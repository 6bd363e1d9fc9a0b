import GraphStore.Index.Descriptor
import GraphStore.Proofs.Slice.Bounds
import GraphStore.Table
import Mathlib.Data.List.TakeWhile

/-!
Contract: the readers of a slice answer alike.

Owns the slices that can be made (`Slice.Made`) and three ways of reading one from a row: by the
places of its bounds among the keys of a map (`Row.range?`), by passing over the entries in column
order (`Slice.cut`), and by testing every column (`Slice.contains`). On a row, whose columns ascend,
each test of a bound holds for a front of the entries (`Falling`), and so all three answer the same
entries (`Slice.readers_agree`).
-/

namespace GraphStore

/-! ### Tests that hold for a front of a list -/

/-- Behind a member that fails the test all others fail it as well. -/
def Falling {α : Type} (test : α → Bool) (members : List α) : Prop :=
  members.Pairwise fun earlier later => test later = true → test earlier = true

namespace Falling

variable {α : Type} {test : α → Bool} {members : List α}

theorem sublist {fewer : List α} (falling : Falling test members) (some : fewer.Sublist members) :
    Falling test fewer :=
  List.Pairwise.sublist some falling

/-- What is left behind the front fails the test. -/
theorem fails_of_mem_dropWhile (falling : Falling test members) {member : α}
    (left : member ∈ members.dropWhile test) : test member = false := by
  induction members with
  | nil => exact nomatch left
  | cons first rest inductionHypothesis =>
      obtain ⟨before, behind⟩ := List.pairwise_cons.1 falling
      by_cases holds : test first = true
      · rw [List.dropWhile_cons_of_pos holds] at left
        exact inductionHypothesis behind left
      · rw [List.dropWhile_cons_of_neg holds] at left
        rcases List.mem_cons.1 left with rfl | later
        · exact Bool.eq_false_iff.2 holds
        · exact Bool.eq_false_iff.2 fun contrary => holds (before member later contrary)

theorem filter_eq_takeWhile (falling : Falling test members) :
    members.filter test = members.takeWhile test := by
  have front : (members.takeWhile test).filter test = members.takeWhile test :=
    List.filter_eq_self.2 fun _ taken => List.mem_takeWhile_imp taken
  have behind : (members.dropWhile test).filter test = [] := by
    apply List.filter_eq_nil_iff.2
    intro member left
    rw [falling.fails_of_mem_dropWhile left]
    exact Bool.false_ne_true
  calc members.filter test
      = (members.takeWhile test ++ members.dropWhile test).filter test := by
        rw [List.takeWhile_append_dropWhile]
    _ = members.takeWhile test := by rw [List.filter_append, front, behind, List.append_nil]

theorem filter_not_eq_dropWhile (falling : Falling test members) :
    members.filter (fun member => !test member) = members.dropWhile test := by
  have front : (members.takeWhile test).filter (fun member => !test member) = [] := by
    apply List.filter_eq_nil_iff.2
    intro member taken
    rw [List.mem_takeWhile_imp taken]
    exact Bool.false_ne_true
  have behind : (members.dropWhile test).filter (fun member => !test member) =
      members.dropWhile test := by
    apply List.filter_eq_self.2
    intro member left
    rw [falling.fails_of_mem_dropWhile left]
    rfl
  calc members.filter (fun member => !test member)
      = (members.takeWhile test ++ members.dropWhile test).filter (fun member => !test member) := by
        rw [List.takeWhile_append_dropWhile]
    _ = members.dropWhile test := by rw [List.filter_append, front, behind, List.nil_append]

/-- The front ends at the place that counts the members for which the test holds. -/
theorem length_takeWhile (falling : Falling test members) :
    (members.takeWhile test).length = members.countP test := by
  rw [← falling.filter_eq_takeWhile, List.countP_eq_length_filter]

theorem take_countP (falling : Falling test members) :
    members.take (members.countP test) = members.filter test := by
  have split := List.takeWhile_append_dropWhile (p := test) (l := members)
  rw [falling.filter_eq_takeWhile, ← falling.length_takeWhile]
  calc members.take (members.takeWhile test).length
      = (members.takeWhile test ++ members.dropWhile test).take
          (members.takeWhile test).length := by rw [split]
    _ = members.takeWhile test := List.take_left

theorem drop_countP (falling : Falling test members) :
    members.drop (members.countP test) = members.filter fun member => !test member := by
  have split := List.takeWhile_append_dropWhile (p := test) (l := members)
  rw [falling.filter_not_eq_dropWhile, ← falling.length_takeWhile]
  calc members.drop (members.takeWhile test).length
      = (members.takeWhile test ++ members.dropWhile test).drop
          (members.takeWhile test).length := by rw [split]
    _ = members.dropWhile test := List.drop_left

end Falling

/-! ### Three readers -/

/-- The entries from one key up to, but not including, another one. The map looks up the places of
both bounds, which are the numbers of smaller keys, and yields what lies in between. It stops at
inverted bounds. -/
def OrderedMap.range? {κ ν : Type} [LT κ] [DecidableLT κ] (map : OrderedMap κ ν)
    (start stop : κ) : Option (List (κ × ν)) :=
  if stop < start then none
  else some ((map.entries.take (map.entries.countP (·.1 < stop))).drop
    (map.entries.countP (·.1 < start)))

/-- The entries of a row between the bounds of a slice, up to its cap. -/
def Row.range? (row : Row) (slice : Slice) : Option (List Entry) :=
  (OrderedMap.range? row slice.start slice.stop).map fun found =>
    slice.cap (found.map fun entry => ⟨entry.1, entry.2⟩)

theorem Row.ascending_toEntries (row : Row) :
    (Row.toEntries row).Pairwise fun earlier later => earlier.column < later.column :=
  List.pairwise_map.2 row.ascending

/-- A slice of a row shows the entries whose columns lie in it, up to its cap. -/
theorem Row.slice_eq (row : Row) (slice : Slice) : Row.slice row slice =
    slice.cap ((Row.toEntries row).filter fun entry => slice.contains entry.column) := by
  unfold Row.slice Row.toEntries OrderedMap.filter
  rw [List.filter_map]
  rfl

section Ranges

variable {κ ν : Type} [LT κ] [DecidableLT κ] [LE κ] [Std.IsLinearOrder κ] [Std.LawfulOrderLT κ]

/-- In an ordered map the keys below a bound come first. -/
theorem OrderedMap.falling_below (map : OrderedMap κ ν) (bound : κ) :
    Falling (fun entry => entry.1 < bound) map.entries := by
  apply map.ascending.imp
  intro earlier later less below
  exact decide_eq_true (Std.lt_trans less (of_decide_eq_true below))

/-- Between bounds that are not inverted the places enclose the keys that lie between them. -/
theorem OrderedMap.range?_eq (map : OrderedMap κ ν) {start stop : κ} (ordered : ¬ stop < start) :
    map.range? start stop =
      some (map.entries.filter fun entry => !(entry.1 < start) && entry.1 < stop) := by
  have below : ∀ key : κ, key < start → key < stop := by
    intro key less
    by_cases reached : start < stop
    · exact Std.lt_trans less reached
    · rwa [← Std.le_antisymm (Std.not_lt.1 ordered) (Std.not_lt.1 reached)]
  -- The places count all keys, and those below the start are among those below the stop.
  have place : map.entries.countP (fun entry => entry.1 < start) =
      (map.entries.filter fun entry => entry.1 < stop).countP fun entry => entry.1 < start := by
    rw [List.countP_filter]
    apply List.countP_congr
    intro entry _
    simp only [decide_eq_true_eq, Bool.and_eq_true]
    exact ⟨fun less => ⟨less, below _ less⟩, And.left⟩
  have kept : Falling (fun entry => entry.1 < start)
      (map.entries.filter fun entry => entry.1 < stop) :=
    (map.falling_below start).sublist List.filter_sublist
  rw [range?, if_neg ordered, (map.falling_below stop).take_countP, place, kept.drop_countP,
    List.filter_filter]

end Ranges

namespace Slice

variable {slice : Slice}

/-- Passing over entries in column order keeps those whose columns lie in the slice. -/
theorem cut_eq_filter (slice : Slice) {entries : List Entry}
    (ascending : entries.Pairwise fun earlier later => earlier.column < later.column) :
    slice.cut entries = slice.cap (entries.filter fun entry => slice.contains entry.column) := by
  have falling : ∀ bound : Bytes, Falling (fun entry => entry.column < bound) entries := by
    intro bound
    apply ascending.imp
    intro earlier later less below
    exact decide_eq_true (List.lt_trans less (of_decide_eq_true below))
  have behind : Falling (fun entry => entry.column < slice.stop)
      (entries.filter fun entry => !(entry.column < slice.start)) :=
    (falling slice.stop).sublist List.filter_sublist
  rw [cut, ← (falling slice.start).filter_not_eq_dropWhile, ← behind.filter_eq_takeWhile,
    List.filter_filter]
  congr 2
  funext entry
  exact Bool.and_comm _ _

theorem range?_toEntries (row : Row) (ordered : ¬ slice.stop < slice.start) :
    Row.range? row slice =
      some (slice.cap ((Row.toEntries row).filter fun entry => slice.contains entry.column)) := by
  rw [Row.range?, OrderedMap.range?_eq row ordered, Row.toEntries, List.filter_map]
  rfl

theorem cap_sublist (entries : List Entry) : (slice.cap entries).Sublist entries := by
  unfold cap
  split
  · exact List.take_sublist _ _
  · exact List.Sublist.refl _

theorem cut_sublist (slice : Slice) (entries : List Entry) : (slice.cut entries).Sublist entries :=
  (cap_sublist _).trans ((List.takeWhile_sublist _).trans (List.dropWhile_sublist _))

/-! ### Passing over entries again -/

theorem cap_cap (entries : List Entry) : slice.cap (slice.cap entries) = slice.cap entries := by
  unfold cap
  split
  · rw [List.take_take, Nat.min_self]
  · rfl

/-- The cap leaves a front. -/
theorem cap_isPrefix (entries : List Entry) : slice.cap entries <+: entries := by
  unfold cap
  split
  · exact List.take_prefix _ _
  · exact List.prefix_refl _

theorem dropWhile_of_isPrefix {α : Type} {test : α → Bool} {front members : List α}
    (isFront : front <+: members.dropWhile test) : front.dropWhile test = front := by
  cases front with
  | nil => rfl
  | cons first front =>
      obtain ⟨behind, same⟩ := isFront
      have fails := List.head?_dropWhile_not test members
      rw [← same] at fails
      exact List.dropWhile_cons_of_neg (by simpa using fails)

/-- What has been cut out stays as it is, in whatever order the entries were. -/
theorem cut_cut (entries : List Entry) : slice.cut (slice.cut entries) = slice.cut entries := by
  have front : slice.cut entries <+: entries.dropWhile (·.column < slice.start) :=
    (cap_isPrefix _).trans (List.takeWhile_prefix _)
  have below : ∀ entry ∈ slice.cut entries, decide (entry.column < slice.stop) = true := by
    intro entry shown
    have taken := (cap_sublist _).subset shown
    exact List.mem_takeWhile_imp (x := entry) taken
  calc slice.cut (slice.cut entries)
      = slice.cap ((slice.cut entries).takeWhile (·.column < slice.stop)) := by
        rw [cut, dropWhile_of_isPrefix front]
    _ = slice.cap (slice.cut entries) := by rw [List.takeWhile_eq_self_iff.2 below]
    _ = slice.cut entries := cap_cap _

/-! ### Slices that can be made -/

/-- The slices that can be made: between bounds in order, for whole rows, for a stem, for the
columns of a relation-type index, and with a positive cap from one that has been made. -/
inductive Made : Slice → Prop where
  | between {start stop : Bytes} {slice : Slice} (made : between start stop = .ok slice) :
      Made slice
  | fullRow : Made fullRow
  | ofPrefix (stem : Bytes) : Made (ofPrefix stem)
  | relation {index : IndexDescriptor} {slice : Slice}
      (made : index.relationSlice? = some (.ok slice)) : Made slice
  | withLimit {slice capped : Slice} {limit : Nat} (earlier : Made slice)
      (made : slice.withLimit limit = .ok capped) : Made capped

theorem between_eq_ok {start stop : Bytes} :
    between start stop = .ok slice ↔ ¬ stop < start ∧ slice = ⟨start, stop, none⟩ := by
  unfold between
  split
  · rename_i inverted
    exact ⟨nofun, fun made => absurd inverted made.1⟩
  · rename_i ordered
    rw [Except.ok.injEq]
    exact ⟨fun made => ⟨ordered, made.symm⟩, fun made => made.2.symm⟩

theorem withLimit_eq_ok {capped : Slice} {limit : Nat} :
    slice.withLimit limit = .ok capped ↔
      limit ≠ 0 ∧ capped = { slice with limit := some limit } := by
  unfold withLimit
  split
  · rename_i zero
    exact ⟨nofun, fun made => absurd zero made.1⟩
  · rename_i positive
    rw [Except.ok.injEq]
    exact ⟨fun made => ⟨positive, made.symm⟩, fun made => made.2.symm⟩

theorem start_lt_stop_ofPrefix (stem : Bytes) : (ofPrefix stem).start < (ofPrefix stem).stop := by
  unfold ofPrefix
  dsimp only
  cases next : Bytes.nextPrefix stem with
  | some bound => exact ((Bytes.isPrefix_iff_of_nextPrefix next).1 (List.prefix_refl stem)).2
  | none => exact Bytes.lt_ones_of_length (by omega)

/-- A slice can be made exactly if its bounds are in order and its cap, if it has one, is
positive. -/
theorem made_iff : slice.Made ↔ ¬ slice.stop < slice.start ∧ slice.limit ≠ some 0 := by
  constructor
  · intro made
    induction made with
    | between made =>
        obtain ⟨ordered, rfl⟩ := between_eq_ok.1 made
        exact ⟨ordered, nofun⟩
    | fullRow => exact ⟨List.lt_asymm (Bytes.lt_ones_of_length (by decide)), nofun⟩
    | ofPrefix stem => exact ⟨List.lt_asymm (start_lt_stop_ofPrefix stem), nofun⟩
    | @relation index slice made =>
        unfold IndexDescriptor.relationSlice? at made
        split at made
        · obtain ⟨ordered, rfl⟩ := between_eq_ok.1 (Option.some.inj made)
          exact ⟨ordered, nofun⟩
        · exact nomatch made
    | withLimit _ made inductionHypothesis =>
        obtain ⟨positive, rfl⟩ := withLimit_eq_ok.1 made
        exact ⟨inductionHypothesis.1, fun zero => positive (Option.some.inj zero)⟩
  · rintro ⟨ordered, positive⟩
    obtain ⟨start, stop, limit⟩ := slice
    have uncapped : Made ⟨start, stop, none⟩ := .between (between_eq_ok.2 ⟨ordered, rfl⟩)
    cases limit with
    | none => exact uncapped
    | some limit =>
        exact uncapped.withLimit
          (withLimit_eq_ok.2 ⟨fun zero => positive (congrArg some zero), rfl⟩)

/-- Whatever slice is made, its bounds are in order, so that a map finds a range between them. Of a
row this range, the entries that are cut out in column order, and the entries whose columns lie in
the slice up to its cap are one list, which ascends by columns and repeats none. What has been cut
out, of a row or of any other entries, is not changed by cutting again. -/
theorem readers_agree {slice : Slice} (made : slice.Made) (row : Row) :
    ¬ slice.stop < slice.start ∧
      Row.range? row slice = some (slice.cut (Row.toEntries row)) ∧
      Row.slice row slice = slice.cut (Row.toEntries row) ∧
      slice.cut (Row.toEntries row) =
        slice.cap ((Row.toEntries row).filter fun entry => slice.contains entry.column) ∧
      (slice.cut (Row.toEntries row)).Pairwise (fun earlier later =>
        earlier.column < later.column) ∧
      ((slice.cut (Row.toEntries row)).map Entry.column).Nodup ∧
      ∀ entries, slice.cut (slice.cut entries) = slice.cut entries := by
  have ordered := (made_iff.1 made).1
  have passed := slice.cut_eq_filter (Row.ascending_toEntries row)
  have ascending := List.Pairwise.sublist (slice.cut_sublist (Row.toEntries row))
    (Row.ascending_toEntries row)
  refine ⟨ordered, ?_, ?_, passed, ascending, ?_, cut_cut⟩
  · rw [range?_toEntries row ordered, passed]
  · rw [Row.slice_eq, passed]
  · apply List.pairwise_map.2
    apply ascending.imp
    intro earlier later less same
    rw [same] at less
    exact List.lt_irrefl _ less

/-- Columns before, among and behind those that start with the byte 1. -/
def stemmedRow : Row :=
  .ofList [([0, 255], [6]), ([1], [7]), ([1, 0], [8]), ([1, 255], [9]), ([2], [10])]

/-- Two of the columns that start with the byte 1. -/
def twoOfStem : Slice := { ofPrefix [1] with limit := some 2 }

theorem readers_agree_stemmedRow :
    twoOfStem.Made ∧
      Row.range? stemmedRow twoOfStem = some [⟨[1], [7]⟩, ⟨[1, 0], [8]⟩] ∧
      Row.slice stemmedRow twoOfStem = [⟨[1], [7]⟩, ⟨[1, 0], [8]⟩] := by
  have capped : (ofPrefix [1]).withLimit 2 = .ok twoOfStem := rfl
  have made : twoOfStem.Made := (Made.ofPrefix [1]).withLimit capped
  have cutOut : twoOfStem.cut (Row.toEntries stemmedRow) = [⟨[1], [7]⟩, ⟨[1, 0], [8]⟩] := by
    decide +kernel
  obtain ⟨-, ranged, shown, -⟩ := readers_agree made stemmedRow
  rw [cutOut] at ranged shown
  exact ⟨made, ranged, shown⟩

end Slice

end GraphStore

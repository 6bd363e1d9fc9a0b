/-!
Contract: finite maps kept in ascending key order.

Owns:
- the map type, whose entries ascend strictly by construction;
- look-up, insertion, removal and filtering, each with its effect on look-up.

Two maps with the same look-ups are equal (`ext_find?`), so rows and tables
can be compared by what they hold.
-/

namespace GraphStore

/-- A finite map whose entries ascend strictly by key. -/
structure OrderedMap (κ ν : Type) [LT κ] where
  entries : List (κ × ν)
  ascending : entries.Pairwise (fun left right => left.1 < right.1)

namespace OrderedMap

variable {κ ν : Type} [LT κ]

instance [DecidableEq κ] [DecidableEq ν] : DecidableEq (OrderedMap κ ν) := fun left right =>
  if same : left.entries = right.entries then
    isTrue (by cases left; cases right; cases same; rfl)
  else
    isFalse (fun equal => same (equal ▸ rfl))

def empty : OrderedMap κ ν := ⟨[], .nil⟩

instance : EmptyCollection (OrderedMap κ ν) := ⟨empty⟩

instance : Inhabited (OrderedMap κ ν) := ⟨empty⟩

def size (map : OrderedMap κ ν) : Nat := map.entries.length

def isEmpty (map : OrderedMap κ ν) : Bool := map.entries.isEmpty

/-- The keys in ascending order. -/
def keys (map : OrderedMap κ ν) : List κ := map.entries.map Prod.fst

/-- The values in ascending key order. -/
def values (map : OrderedMap κ ν) : List ν := map.entries.map Prod.snd

/-- The value held under `key`. -/
def find? [DecidableEq κ] (map : OrderedMap κ ν) (key : κ) : Option ν := map.entries.lookup key

def contains [DecidableEq κ] (map : OrderedMap κ ν) (key : κ) : Bool := (map.find? key).isSome

/-- The entries that satisfy `keep`. -/
def filter (map : OrderedMap κ ν) (keep : κ → ν → Bool) : OrderedMap κ ν :=
  ⟨map.entries.filter (fun entry => keep entry.1 entry.2), map.ascending.filter _⟩

def erase [DecidableEq κ] (map : OrderedMap κ ν) (key : κ) : OrderedMap κ ν :=
  map.filter (fun held _ => held ≠ key)

/-- The value held under `key`, or the given one where there is none. -/
def findD [DecidableEq κ] (map : OrderedMap κ ν) (key : κ) (default : ν) : ν :=
  (map.find? key).getD default

/-! ### Insertion -/

section Insertion

variable [DecidableLT κ]

/-- Puts an entry at its place in an ascending list, replacing an entry of the same key. -/
def place (key : κ) (value : ν) : List (κ × ν) → List (κ × ν)
  | [] => [(key, value)]
  | head :: tail =>
    if key < head.1 then (key, value) :: head :: tail
    else if head.1 < key then head :: place key value tail
    else (key, value) :: tail

theorem mem_place {key : κ} {value : ν} {entry : κ × ν} {entries : List (κ × ν)}
    (member : entry ∈ place key value entries) :
    entry = (key, value) ∨ entry ∈ entries := by
  induction entries with
  | nil => exact Or.inl (by simpa [place] using member)
  | cons head tail inductionHypothesis =>
      rw [place] at member
      split at member
      · simpa using member
      · split at member
        · rcases List.mem_cons.1 member with same | inTail
          · exact Or.inr (same ▸ List.mem_cons_self)
          · exact (inductionHypothesis inTail).imp_right (List.mem_cons_of_mem _)
        · rcases List.mem_cons.1 member with same | inTail
          · exact Or.inl same
          · exact Or.inr (List.mem_cons_of_mem _ inTail)

variable [LE κ] [Std.IsLinearOrder κ] [Std.LawfulOrderLT κ]

theorem ascending_place (key : κ) (value : ν) {entries : List (κ × ν)}
    (ascending : entries.Pairwise (fun left right => left.1 < right.1)) :
    (place key value entries).Pairwise (fun left right => left.1 < right.1) := by
  induction entries with
  | nil => simp [place]
  | cons head tail inductionHypothesis =>
      obtain ⟨below, tailAscending⟩ := List.pairwise_cons.1 ascending
      rw [place]
      split
      · rename_i less
        refine List.pairwise_cons.2 ⟨fun entry member => ?_, ascending⟩
        rcases List.mem_cons.1 member with same | inTail
        · exact same ▸ less
        · exact Std.lt_trans less (below entry inTail)
      · rename_i notLess
        split
        · rename_i greater
          refine List.pairwise_cons.2
            ⟨fun entry member => ?_, inductionHypothesis tailAscending⟩
          rcases mem_place member with same | inTail
          · exact same ▸ greater
          · exact below entry inTail
        · rename_i notGreater
          obtain rfl := Std.le_antisymm (Std.not_lt.1 notGreater) (Std.not_lt.1 notLess)
          exact List.pairwise_cons.2 ⟨below, tailAscending⟩

/-- The map that also holds `value` under `key`, instead of what it held there. -/
def insert (map : OrderedMap κ ν) (key : κ) (value : ν) : OrderedMap κ ν :=
  ⟨place key value map.entries, ascending_place key value map.ascending⟩

/-- The map of the given entries; of several entries of one key the last counts. -/
def ofList (entries : List (κ × ν)) : OrderedMap κ ν :=
  entries.foldl (fun map entry => map.insert entry.1 entry.2) empty

end Insertion

/-! ### Look-up -/

section Lookup

variable [DecidableEq κ]

@[simp] theorem find?_empty (key : κ) : (empty : OrderedMap κ ν).find? key = none := rfl

/-- A removal shows under its key alone. -/
theorem find?_erase (map : OrderedMap κ ν) (key probe : κ) :
    (map.erase key).find? probe = if probe = key then none else map.find? probe := by
  obtain ⟨entries, ascending⟩ := map
  simp only [find?, erase, filter]
  induction entries with
  | nil => simp
  | cons head tail inductionHypothesis =>
      have rest := inductionHypothesis (List.pairwise_cons.1 ascending).2
      by_cases dropped : head.1 = key
      · simp only [List.filter_cons, dropped, ne_eq, not_true_eq_false, decide_false]
        rw [if_neg (by decide), rest, List.lookup_cons, dropped]
        by_cases same : probe = key
        · simp [same]
        · simp [beq_eq_false_iff_ne.2 same, same]
      · simp only [List.filter_cons, ne_eq, dropped, not_false_eq_true, decide_true, if_true]
        rw [List.lookup_cons, List.lookup_cons, rest]
        by_cases atHead : probe = head.1
        · simp [atHead, dropped]
        · simp [beq_eq_false_iff_ne.2 atHead]

variable [LE κ] [Std.LawfulOrderLT κ]

/-- A key below all entries is not held. -/
theorem lookup_eq_none_of_below {key : κ} {entries : List (κ × ν)}
    (below : ∀ entry ∈ entries, key < entry.1) : entries.lookup key = none :=
  List.lookup_eq_none_iff.2 fun entry member =>
    bne_iff_ne.2 fun same => Std.lt_irrefl (same ▸ below entry member)

/-- A key is held exactly with the value of its entry. -/
theorem find?_eq_some_iff {map : OrderedMap κ ν} {key : κ} {value : ν} :
    map.find? key = some value ↔ (key, value) ∈ map.entries := by
  obtain ⟨entries, ascending⟩ := map
  simp only [find?]
  induction entries with
  | nil => simp
  | cons head tail inductionHypothesis =>
      obtain ⟨below, tailAscending⟩ := List.pairwise_cons.1 ascending
      rw [List.lookup_cons]
      by_cases atHead : key = head.1
      · simp only [atHead, beq_self_eq_true, List.mem_cons]
        constructor
        · intro found
          exact Or.inl (by rw [← Option.some.inj found])
        · rintro (same | inTail)
          · rw [← same]
          · exact absurd (below _ inTail) Std.lt_irrefl
      · simp only [beq_eq_false_iff_ne.2 atHead, List.mem_cons]
        rw [inductionHypothesis tailAscending]
        constructor
        · exact Or.inr
        · rintro (same | inTail)
          · exact absurd (congrArg Prod.fst same) atHead
          · exact inTail

variable [Std.IsLinearOrder κ]

theorem lookup_place [DecidableLT κ] (key probe : κ) (value : ν) (entries : List (κ × ν)) :
    (place key value entries).lookup probe =
      if probe = key then some value else entries.lookup probe := by
  induction entries with
  | nil =>
      by_cases same : probe = key
      · simp [place, same]
      · simp [place, List.lookup_cons, beq_eq_false_iff_ne.2 same, same]
  | cons head tail inductionHypothesis =>
      rw [place]
      split
      · by_cases same : probe = key
        · simp [same]
        · have different : (probe == key) = false := beq_eq_false_iff_ne.2 same
          rw [List.lookup_cons, different, if_neg same]
      · split
        · rename_i greater
          rw [List.lookup_cons, inductionHypothesis, List.lookup_cons]
          by_cases atHead : probe = head.1
          · have apart : ¬ head.1 = key := fun same =>
              Std.lt_irrefl (by rwa [same] at greater)
            simp [atHead, apart]
          · have different : (probe == head.1) = false := beq_eq_false_iff_ne.2 atHead
            simp [different]
        · rename_i notLess notGreater
          have same : key = head.1 :=
            Std.le_antisymm (Std.not_lt.1 notGreater) (Std.not_lt.1 notLess)
          rw [List.lookup_cons, List.lookup_cons, ← same]
          by_cases atKey : probe = key
          · simp [atKey]
          · have different : (probe == key) = false := beq_eq_false_iff_ne.2 atKey
            simp [different, atKey]

/-- An insertion shows under its key alone. -/
theorem find?_insert [DecidableLT κ] (map : OrderedMap κ ν) (key probe : κ) (value : ν) :
    (map.insert key value).find? probe = if probe = key then some value else map.find? probe :=
  lookup_place key probe value map.entries

omit [DecidableEq κ] in
/-- An ascending list is determined by its members. -/
theorem eq_of_mem_iff {left right : List (κ × ν)}
    (leftAscending : left.Pairwise (fun a b => a.1 < b.1))
    (rightAscending : right.Pairwise (fun a b => a.1 < b.1))
    (same : ∀ entry, entry ∈ left ↔ entry ∈ right) : left = right := by
  have nodup {entries : List (κ × ν)}
      (ascending : entries.Pairwise (fun a b => a.1 < b.1)) : entries.Nodup :=
    ascending.imp fun {a b} less (equal : a = b) => Std.lt_irrefl (equal ▸ less)
  have rearranged : left.Perm right :=
    (List.perm_ext_iff_of_nodup (nodup leftAscending) (nodup rightAscending)).2 same
  refine rearranged.eq_of_pairwise ?_ leftAscending rightAscending
  intro a b _ _ less greater
  exact absurd (Std.lt_trans less greater) Std.lt_irrefl

/-- Maps with the same look-ups are equal. -/
theorem ext_find? {left right : OrderedMap κ ν}
    (same : ∀ key, left.find? key = right.find? key) : left = right := by
  have entries : left.entries = right.entries := by
    refine eq_of_mem_iff left.ascending right.ascending fun entry => ?_
    obtain ⟨key, value⟩ := entry
    rw [← find?_eq_some_iff, ← find?_eq_some_iff, same]
  cases left
  cases right
  cases entries
  rfl

end Lookup

end OrderedMap

end GraphStore

import GraphStore.Proofs.Scan.Requests
import Mathlib.Data.List.Induction
import Mathlib.Data.List.Perm.Subperm

/-!
Contract: a walk over pages from a source that may fail at any call.

Owns how a walk from its start (`Pager.Walk.afterTurns`) relates to the source and to the filter:
its fetches are the calls of the source (`Replays`), it depends on the filter only through the keys
that it puts to it (`Walk.afterTurns_refilter`), and over a source with finitely many keys it
answers every request (`exists_answers`). Together with the trail that it leaves, this is what the
walk does (`walks_exact`).
-/

namespace GraphStore

/-- The source only knows these keys. -/
def PageSource.Confined {σ : Type} (fetch : PageSource σ) (known : List Bytes) : Prop :=
  ∀ {after size state page}, (fetch after size state).1 = .ok page → ∀ row ∈ page, row.key ∈ known

namespace Pager

open Event

variable {σ : Type} {fetch : PageSource σ} {filter : KeyFilter} {limit size : Nat}
  {trail events : List Event} {first last : σ}

/-- The fetches are calls of the source, one after the other from the first state to the last. -/
def Replays (fetch : PageSource σ) : List Event → σ → σ → Prop
  | [], first, last => first = last
  | fetched after size outcome :: trail, first, last =>
    (fetch after size first).1 = outcome ∧ Replays fetch trail (fetch after size first).2 last
  | asked _ :: trail, first, last => Replays fetch trail first last
  | answered _ :: trail, first, last => Replays fetch trail first last

namespace Walk

def afterTurns (fetch : PageSource σ) (selector : Selector) (pageSize : Nat) (state : σ)
    (turns : Nat) : Walk σ :=
  (turn fetch)^[turns] (start selector pageSize state)

theorem afterTurns_succ (fetch : PageSource σ) (selector : Selector) (pageSize : Nat) (state : σ)
    (turns : Nat) : afterTurns fetch selector pageSize state (turns + 1) =
      (afterTurns fetch selector pageSize state turns).turn fetch :=
  Function.iterate_succ_apply' ..

end Walk

/-! ### The calls of the source -/

theorem Replays.append {middle : σ} (front : Replays fetch trail first middle)
    (back : Replays fetch events middle last) : Replays fetch (trail ++ events) first last := by
  induction trail generalizing first with
  | nil =>
      obtain rfl : first = middle := front
      exact back
  | cons event trail inductionHypothesis =>
      cases event with
      | asked key => exact inductionHypothesis front
      | fetched after size outcome => exact ⟨front.1, inductionHypothesis front.2⟩
      | answered answer => exact inductionHypothesis front

/-- A walk whose trail can be replayed stays so behind a turn. -/
theorem Replays.turned {walk after : Walk σ} (replays : Replays fetch walk.trail first walk.state)
    (turned : Walk.Turned fetch walk after) : Replays fetch after.trail first after.state := by
  have call {outcome : Result (List KeyedRow)} {state : σ} {events : List Event}
      (answers : fetch walk.pager.lastKey walk.pager.pageSize walk.state = (outcome, state))
      (silent : Replays fetch events state state) : Replays fetch
        (fetched walk.pager.lastKey walk.pager.pageSize outcome :: events) walk.state state := by
    rw [Replays, answers]
    exact ⟨rfl, silent⟩
  cases turned with
  | ended _ => exact replays.append rfl
  | yielded _ _ _ => exact replays.append rfl
  | passed _ _ _ => exact replays.append rfl
  | failed _ _ _ failed => exact replays.append (call failed rfl)
  | filled _ _ _ answers _ => exact replays.append (call answers rfl)
  | @drained state _ _ _ answers =>
      have silent : Replays fetch [] state state := rfl
      exact (replays.append (call answers silent)).append rfl

theorem replays_afterTurns (fetch : PageSource σ) (selector : Selector) (pageSize : Nat)
    (state : σ) (turns : Nat) :
    Replays fetch (Walk.afterTurns fetch selector pageSize state turns).trail state
      (Walk.afterTurns fetch selector pageSize state turns).state := by
  induction turns with
  | zero => rfl
  | succ turns inductionHypothesis =>
      rw [Walk.afterTurns_succ]
      exact inductionHypothesis.turned (Walk.turned fetch _)

/-- All rows come from the source. -/
theorem Replays.known {known : List Bytes} (replays : Replays fetch trail first last)
    (confined : fetch.Confined known) : ∀ row ∈ rows trail, row.key ∈ known := by
  induction trail generalizing first with
  | nil => exact fun row member => absurd member List.not_mem_nil
  | cons event trail inductionHypothesis =>
      cases event with
      | asked key => exact inductionHypothesis replays
      | answered answer => exact inductionHypothesis replays
      | fetched after size outcome =>
          obtain ⟨answers, later⟩ := replays
          cases outcome with
          | error failure => exact inductionHypothesis later
          | ok page =>
              intro row member
              have split : row ∈ page ∨ row ∈ rows trail := by simpa using member
              rcases split with onPage | behind
              · exact confined answers row onPage
              · exact inductionHypothesis later row behind

/-! ### The filter -/

namespace Walk

def refilter (other : KeyFilter) (walk : Walk σ) : Walk σ :=
  { walk with pager.selector.filter := other }

variable {walk after : Walk σ}

/-- There is one way for a turn. -/
theorem Turned.eq_turn (turned : Turned fetch walk after) : walk.turn fetch = after := by
  cases turned with
  | ended ended =>
      rcases ended with full | ⟨empty, used⟩
      · simp [turn, full]
      · simp [turn, empty, used]
  | yielded isOpen buffered accepted =>
      simp [turn, isOpen, buffered, Selector.offer, accepted]
  | passed isOpen buffered rejected =>
      simp [turn, isOpen, buffered, Selector.offer, rejected]
  | failed isOpen empty unused failed => simp [turn, isOpen, empty, unused, failed]
  | @filled page _ isOpen empty unused answers filled =>
      simp [turn, isOpen, empty, unused, answers, filled]
  | drained isOpen empty unused answers => simp [turn, isOpen, empty, unused, answers]; rfl

/-- A turn goes the same way with a filter that says the same of the keys that are put to it. -/
theorem Turned.refilter {other : KeyFilter} (turned : Turned fetch walk after)
    (same : ∀ key ∈ askedKeys after.trail, other key = walk.pager.selector.filter key) :
    Turned fetch (walk.refilter other) (after.refilter other) := by
  cases turned with
  | ended ended => exact .ended ended
  | @yielded row _ isOpen buffered accepted =>
      have agrees : other row.key = walk.pager.selector.filter row.key :=
        same row.key (by simp [note])
      exact .yielded isOpen buffered (agrees.trans accepted)
  | @passed row _ isOpen buffered rejected =>
      have agrees : other row.key = walk.pager.selector.filter row.key :=
        same row.key (by simp [note])
      exact .passed isOpen buffered (agrees.trans rejected)
  | failed isOpen empty unused failed => exact .failed isOpen empty unused failed
  | filled isOpen empty unused answers filled => exact .filled isOpen empty unused answers filled
  | drained isOpen empty unused answers => exact .drained isOpen empty unused answers

/-- A walk depends on the filter only through the keys that are put to it. -/
theorem afterTurns_refilter {selector : Selector} (made : Selector.new filter limit = .ok selector)
    (pageSize : Nat) (orderly : fetch.Orderly) (state : σ) (turns : Nat) {other : KeyFilter}
    (same : ∀ key ∈ askedKeys (afterTurns fetch selector pageSize state turns).trail,
      other key = filter key) :
    afterTurns fetch { selector with filter := other } pageSize state turns =
      (afterTurns fetch selector pageSize state turns).refilter other := by
  induction turns with
  | zero => rfl
  | succ turns inductionHypothesis =>
      have tracked := tracked_turns made pageSize orderly state turns
      have ours : (afterTurns fetch selector pageSize state turns).pager.selector.filter = filter :=
        congrArg Selector.filter tracked.selector
      have turned := turned fetch (afterTurns fetch selector pageSize state turns)
      obtain ⟨events, more⟩ :=
        exists_events fetch 1 (afterTurns fetch selector pageSize state turns)
      rw [Function.iterate_one] at more
      rw [afterTurns_succ] at same ⊢
      have earlier := inductionHypothesis fun key asked => same key (by simp [more, asked])
      rw [earlier, afterTurns_succ]
      have agrees key (asked : key ∈ askedKeys _) := (same key asked).trans (congrFun ours key).symm
      exact (turned.refilter agrees).eq_turn

end Walk

/-! ### Every request is answered -/

/-- An event is a key that is put to the filter, a fetch or an answer. -/
theorem length_eq (trail : List Event) :
    trail.length = (askedKeys trail).length + fetchCount trail + (answers trail).length := by
  induction trail with
  | nil => rfl
  | cons event trail inductionHypothesis =>
      rw [List.length_cons, inductionHypothesis]
      cases event <;> simp <;> omega

/-- A fetch gives a page, or fails. -/
theorem fetchCount_eq (trail : List Event) :
    fetchCount trail = (pages trail).length + (failures trail).length := by
  induction trail with
  | nil => rfl
  | cons event trail inductionHypothesis =>
      rw [fetchCount_cons, inductionHypothesis]
      rcases event with _ | ⟨_, _, _ | _⟩ | _ <;> simp <;> omega

theorem length_pages_le (full : ∀ page ∈ pages trail, page ≠ []) :
    (pages trail).length ≤ (rows trail).length := by
  rw [rows]
  revert full
  induction pages trail with
  | nil => exact fun _ => Nat.le_refl 0
  | cons page others inductionHypothesis =>
      intro full
      obtain ⟨here, later⟩ := List.forall_mem_cons.1 full
      have some := List.length_pos_iff.2 here
      have rest := inductionHypothesis later
      rw [List.length_cons, List.flatten_cons, List.length_append]
      omega

/-- The last fetch of a trail. -/
theorem exists_last_fetch (some : fetchCount trail ≠ 0) :
    ∃ front after asking outcome back, trail = front ++ fetched after asking outcome :: back ∧
      fetchCount trail = fetchCount front + 1 := by
  induction trail using List.reverseRecOn with
  | nil => exact absurd rfl some
  | append_singleton front event inductionHypothesis =>
      cases event with
      | fetched after asking outcome =>
          exact ⟨front, after, asking, outcome, [], rfl, by simp⟩
      | asked key =>
          obtain ⟨earlier, after, asking, outcome, back, rfl, count⟩ :=
            inductionHypothesis (by simpa using some)
          exact ⟨earlier, after, asking, outcome, back ++ [asked key], by simp,
            by simpa using count⟩
      | answered answer =>
          obtain ⟨earlier, after, asking, outcome, back, rfl, count⟩ :=
            inductionHypothesis (by simpa using some)
          exact ⟨earlier, after, asking, outcome, back ++ [answered answer], by simp,
            by simpa using count⟩

namespace Regular

variable (regular : Regular filter limit size trail) {known : List Bytes}
  (within : ∀ row ∈ rows trail, row.key ∈ known)
include regular within

theorem length_rows_le : (rows trail).length ≤ known.length := by
  have distinct : ((rows trail).map KeyedRow.key).Nodup :=
    List.pairwise_map.2 (regular.ascending.imp fun below same => by
      rw [same] at below
      exact Std.lt_irrefl below)
  have inside : (rows trail).map KeyedRow.key ⊆ known := by
    intro key member
    obtain ⟨row, found, rfl⟩ := List.mem_map.1 member
    exact within row found
  simpa using (List.subperm_of_subset distinct inside).length_le

theorem length_askedKeys_le : (askedKeys trail).length ≤ known.length := by
  obtain ⟨taken, left, rows_eq, asked_eq, -⟩ := regular.taken
  have bound := regular.length_rows_le within
  rw [rows_eq, List.length_append] at bound
  rw [asked_eq, List.length_map]
  omega

/-- All pages but the last one are full, so there is at most one more than there are rows. -/
theorem fetchCount_le (positive : 0 < size) : fetchCount trail ≤ known.length + 1 := by
  by_cases noFetch : fetchCount trail = 0
  · omega
  obtain ⟨front, after, asking, outcome, back, split, count⟩ := exists_last_fetch noFetch
  have may : MayFetch limit size front after asking :=
    (regular.justified front _ back split).2.1
  have filled : ∀ page ∈ pages front, page ≠ [] := fun page member =>
    List.ne_nil_of_length_pos (may.full page member ▸ positive)
  have inFront : (rows front).length ≤ (rows trail).length := by
    rw [split, rows_append, List.length_append]
    omega
  have byRows := length_pages_le filled
  have all := regular.length_rows_le within
  rw [count, fetchCount_eq, may.unfailed, List.length_nil]
  omega

end Regular

section Answering

variable {selector : Selector} (made : Selector.new filter limit = .ok selector) (pageSize : Nat)
  (orderly : fetch.Orderly) (state : σ)
include made orderly

theorem Walk.regular_afterTurns (turns : Nat) :
    Regular filter limit (max pageSize 1) (afterTurns fetch selector pageSize state turns).trail :=
  (tracked_turns made pageSize orderly state turns).regular

variable {known : List Bytes} (confined : fetch.Confined known)
include confined

theorem fetchCount_afterTurns_le (turns : Nat) :
    fetchCount (Walk.afterTurns fetch selector pageSize state turns).trail ≤ known.length + 1 := by
  have regular := Walk.regular_afterTurns made pageSize orderly state turns
  have within := (replays_afterTurns fetch selector pageSize state turns).known confined
  exact regular.fetchCount_le within (by omega)

/-- There are only so many events between two answers. -/
theorem length_afterTurns_le (turns : Nat) :
    (Walk.afterTurns fetch selector pageSize state turns).trail.length ≤ 2 * known.length + 1 +
      (answers (Walk.afterTurns fetch selector pageSize state turns).trail).length := by
  have regular := Walk.regular_afterTurns made pageSize orderly state turns
  have within := (replays_afterTurns fetch selector pageSize state turns).known confined
  have askedBound := regular.length_askedKeys_le within
  have fetchBound := fetchCount_afterTurns_le made pageSize orderly state confined turns
  rw [length_eq]
  omega

/-- Some turns later there is one more answer. The induction is on the events that there may still
be before it. -/
theorem exists_answer (turns : Nat) : ∃ later,
    AtRest (Walk.afterTurns fetch selector pageSize state later).trail ∧
      (answers (Walk.afterTurns fetch selector pageSize state later).trail).length =
        (answers (Walk.afterTurns fetch selector pageSize state turns).trail).length + 1 := by
  induction room : 2 * known.length + 1 +
      (answers (Walk.afterTurns fetch selector pageSize state turns).trail).length -
        (Walk.afterTurns fetch selector pageSize state turns).trail.length
    using Nat.strongRecOn generalizing turns with
  | _ room inductionHypothesis =>
      have turned := Walk.turned fetch (Walk.afterTurns fetch selector pageSize state turns)
      rw [← Walk.afterTurns_succ] at turned
      cases turned.advanced with
      | answering events answer trail quiet _ =>
          refine ⟨turns + 1, ?_, ?_⟩
          · rw [trail, ← List.append_assoc]
            intro event last
            rw [List.getLast?_concat, Option.mem_some_iff] at last
            exact ⟨answer, last.symm⟩
          · simp [trail, quiet]
      | silent events trail quiet _ =>
          have bound := length_afterTurns_le made pageSize orderly state confined (turns + 1)
          have same : (answers (Walk.afterTurns fetch selector pageSize state (turns + 1)).trail)
              = answers (Walk.afterTurns fetch selector pageSize state turns).trail := by
            simp [trail, quiet]
          have longer := turned.length_lt
          rw [same] at bound
          obtain ⟨later, rest, count⟩ :=
            inductionHypothesis _ (by rw [same]; omega) (turns + 1) rfl
          exact ⟨later, rest, by rw [count, same]⟩

/-- Any number of requests is answered. -/
theorem exists_answers (count : Nat) : ∃ turns,
    AtRest (Walk.afterTurns fetch selector pageSize state turns).trail ∧
      (answers (Walk.afterTurns fetch selector pageSize state turns).trail).length = count := by
  induction count with
  | zero => exact ⟨0, nofun, rfl⟩
  | succ count inductionHypothesis =>
      obtain ⟨turns, -, counted⟩ := inductionHypothesis
      obtain ⟨later, rest, more⟩ := exists_answer made pageSize orderly state confined turns
      exact ⟨later, rest, by rw [more, counted]⟩

end Answering

/-! ### The whole walk -/

/-- What a walk does over any source that may fail at any call. Its trail is as it should be, its
fetches are the calls of the source, requests are answered as the trail says, and it only depends on
what the filter says of the keys that the trail names. If the source has finitely many keys, then
every request is answered. -/
theorem walks_exact {selector : Selector} (made : Selector.new filter limit = .ok selector)
    (pageSize : Nat) (orderly : fetch.Orderly) (state : σ) :
    let walk := Walk.afterTurns fetch selector pageSize state
    (∀ turns, turns ≤ (walk turns).trail.length ∧
      Regular filter limit (max pageSize 1) (walk turns).trail ∧
      Replays fetch (walk turns).trail state (walk turns).state ∧
      (AtRest (walk turns).trail →
        ∀ fuels, fuels.length = (answers (walk turns).trail).length →
          (∀ fuel ∈ fuels, fetchCount (walk turns).trail < fuel) →
          requests fetch fuels (.new selector pageSize) state =
            (answers (walk turns).trail, (walk turns).pager, (walk turns).state)) ∧
      ∀ other, (∀ key ∈ askedKeys (walk turns).trail, other key = filter key) →
        Walk.afterTurns fetch { selector with filter := other } pageSize state turns =
          (walk turns).refilter other) ∧
    ∀ known, fetch.Confined known → ∀ count, ∃ turns, AtRest (walk turns).trail ∧
      (answers (walk turns).trail).length = count ∧
      fetchCount (walk turns).trail ≤ known.length + 1 := by
  intro walk
  refine ⟨fun turns => ⟨?_, ?_, ?_, ?_, ?_⟩, fun known confined count => ?_⟩
  · have longer := Walk.length_turns fetch turns (.start selector pageSize state)
    rwa [show (Walk.start selector pageSize state).trail.length = 0 from rfl, Nat.zero_add]
      at longer
  · exact Walk.regular_afterTurns made pageSize orderly state turns
  · exact replays_afterTurns fetch selector pageSize state turns
  · intro rest fuels each enough
    have later : (walk turns).trail =
        (Walk.start selector pageSize state).trail ++ (walk turns).trail := rfl
    exact Walk.requests_of_turns later rest each enough
  · exact fun other same => Walk.afterTurns_refilter made pageSize orderly state turns same
  · obtain ⟨turns, rest, counted⟩ := exists_answers made pageSize orderly state confined count
    exact ⟨turns, rest, counted,
      fetchCount_afterTurns_le made pageSize orderly state confined turns⟩

def numberedRows : List KeyedRow := [1, 2, 3, 4, 5].map fun number => ⟨[number], []⟩

/-- A source of these rows that counts its calls, and fails at the third one. -/
def faltering : PageSource Nat := fun after size calls =>
  if calls = 2 then (.error (.temporary "busy"), 3)
  else (.ok ((numberedRows.filter fun row => after.all (· < row.key)).take size), calls + 1)

theorem page_faltering {after : Option Bytes} {size calls : Nat} {page : List KeyedRow}
    (answers : (faltering after size calls).1 = .ok page) :
    page = (numberedRows.filter fun row => after.all (· < row.key)).take size := by
  unfold faltering at answers
  split at answers
  · cases answers
  · exact (Except.ok.inj answers).symm

theorem orderly_faltering : faltering.Orderly where
  short answers := by
    rw [page_faltering answers]
    exact List.length_take_le ..
  ascending answers := by
    have ascending : numberedRows.Pairwise fun left right => left.key < right.key := by decide
    rw [page_faltering answers]
    exact (ascending.filter _).sublist (List.take_sublist ..)
  behind answers last isAfter row member := by
    rw [page_faltering answers] at member
    have kept := (List.mem_filter.1 (List.mem_of_mem_take member)).2
    rw [Option.mem_def.1 isAfter] at kept
    simpa using kept

theorem confined_faltering : faltering.Confined (numberedRows.map KeyedRow.key) := by
  intro after size state page answers row member
  rw [page_faltering answers] at member
  exact List.mem_map_of_mem (List.mem_filter.1 (List.mem_of_mem_take member)).1

/-- A walk that passes over the second row: the rows behind the failure are not seen. -/
theorem walks_exact_faltering :
    Selector.new (· != [2]) 9 = .ok ⟨(· != [2]), 9, 0⟩ ∧ faltering.Orderly ∧
      Regular (· != [2]) 9 2 [fetched none 2 (.ok [⟨[1], []⟩, ⟨[2], []⟩]),
        asked [1], answered (some (.ok ⟨[1], []⟩)), asked [2],
        fetched (some [2]) 2 (.ok [⟨[3], []⟩, ⟨[4], []⟩]),
        asked [3], answered (some (.ok ⟨[3], []⟩)), asked [4], answered (some (.ok ⟨[4], []⟩)),
        fetched (some [4]) 2 (.error (.temporary "busy")),
        answered (some (.error (.temporary "busy"))), answered none] ∧
      requests faltering [4, 4, 4, 4, 4] (.new ⟨(· != [2]), 9, 0⟩ 2) 0 =
        ([some (.ok ⟨[1], []⟩), some (.ok ⟨[3], []⟩), some (.ok ⟨[4], []⟩),
          some (.error (.temporary "busy")), none],
          ⟨⟨(· != [2]), 9, 3⟩, 2, [], some [4], true⟩, 3) ∧
      ∃ turns,
        (answers (Walk.afterTurns faltering ⟨(· != [2]), 9, 0⟩ 2 0 turns).trail).length = 7 := by
  have made : Selector.new (· != [2]) 9 = .ok ⟨(· != [2]), 9, 0⟩ := rfl
  have exact := walks_exact made 2 orderly_faltering 0
  obtain ⟨-, regular, -, requested, -⟩ := exact.1 8
  obtain ⟨turns, -, counted, -⟩ := exact.2 _ confined_faltering 7
  have rest : AtRest (Walk.afterTurns faltering ⟨(· != [2]), 9, 0⟩ 2 0 8).trail :=
    fun event last => ⟨none, (Option.some.inj last).symm⟩
  exact ⟨made, orderly_faltering, regular, requested rest [4, 4, 4, 4, 4] rfl (by decide), turns,
    counted⟩

end Pager

end GraphStore

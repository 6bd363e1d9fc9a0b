import GraphStore.Proofs.Cache.Pool

/-!
Contract: the batches that a commit sends.

Owns what `Transaction.chunks` makes of a list, and the batches of pending mutations
(`Transaction.batches`): each carries rows of one store, together they carry every pending row
once, and there are no more of them than the bound on their size asks for.
-/

namespace GraphStore

namespace Transaction

/-! ### Chunks -/

section Chunks

variable {α : Type} (size : Nat)

/-- The chunks of a list are its members in their order. -/
theorem flatten_chunks (members : List α) : (chunks size members).flatten = members := by
  induction members using chunks.induct size with
  | case1 => rw [chunks]; rfl
  | case2 first others inductionHypothesis =>
      rw [chunks, List.flatten_cons, inductionHypothesis, List.cons_append,
        List.take_append_drop]

/-- Every chunk holds something, and no more than the size allows. -/
theorem length_of_mem_chunks (members : List α) :
    ∀ chunk ∈ chunks size members, 0 < chunk.length ∧ chunk.length ≤ max 1 size := by
  induction members using chunks.induct size with
  | case1 => rw [chunks]; exact nofun
  | case2 first others inductionHypothesis =>
      rw [chunks]
      refine List.forall_mem_cons.2 ⟨?_, inductionHypothesis⟩
      rw [List.length_cons, List.length_take]
      omega

/-- There are as many chunks as a division that rounds up tells. -/
theorem length_chunks (members : List α) :
    (chunks size members).length = (members.length + (max 1 size - 1)) / max 1 size := by
  induction members using chunks.induct size with
  | case1 =>
      rw [chunks]
      exact (Nat.div_eq_of_lt (by simp only [List.length_nil]; omega)).symm
  | case2 first others inductionHypothesis =>
      have positive : 0 < max 1 size := by omega
      rw [chunks, List.length_cons, inductionHypothesis, List.length_drop, List.length_cons]
      by_cases last : others.length < max 1 size
      · have none : (others.length - (size - 1) + (max 1 size - 1)) / max 1 size = 0 :=
          Nat.div_eq_of_lt (by omega)
        have one : others.length + 1 + (max 1 size - 1) = others.length + max 1 size := by omega
        rw [none, one, Nat.add_div_right _ positive, Nat.div_eq_of_lt last]
      · have rest : others.length - (size - 1) + (max 1 size - 1) = others.length := by omega
        have one : others.length + 1 + (max 1 size - 1) = others.length + max 1 size := by omega
        rw [rest, one, Nat.add_div_right _ positive]

end Chunks

/-! ### Batches -/

def batch (store : String) (rows : List (Bytes × Mutation)) : StoreMutations :=
  OrderedMap.empty.insert store (OrderedMap.ofList rows)

/-- The batches for pending mutations, stores in name order and rows in key order. -/
def batches (size : Nat) (pending : StoreMutations) : List StoreMutations :=
  pending.entries.flatMap fun store => (chunks size store.2.entries).map (batch store.1)

/-- The rows of a store that a set of mutations carries, in key order. -/
def carried (store : String) (mutations : StoreMutations) : List (Bytes × Mutation) :=
  (mutations.findD store .empty).entries

theorem ascending_of_mem_chunks {size : Nat} {rows : OrderedMap Bytes Mutation}
    {chunk : List (Bytes × Mutation)} (member : chunk ∈ chunks size rows.entries) :
    chunk.Pairwise (fun left right => left.1 < right.1) := by
  have ascending := rows.ascending
  rw [← flatten_chunks size rows.entries, List.pairwise_flatten] at ascending
  exact ascending.1 chunk member

theorem entries_ofList {rows : List (Bytes × Mutation)}
    (ascending : rows.Pairwise (fun left right => left.1 < right.1)) :
    (OrderedMap.ofList rows).entries = rows :=
  congrArg OrderedMap.entries (OrderedMap.ofList_entries ⟨rows, ascending⟩)

theorem carried_batch (store name : String) {rows : List (Bytes × Mutation)}
    (ascending : rows.Pairwise (fun left right => left.1 < right.1)) :
    carried name (batch store rows) = if name = store then rows else [] := by
  rw [carried, batch, OrderedMap.findD, OrderedMap.find?_insert]
  split
  · exact entries_ofList ascending
  · rfl

/-- A batch names one store and carries between one row and `size` rows of it. -/
def OfOneStore (size : Nat) (mutations : StoreMutations) : Prop :=
  ∃ store rows, mutations.entries = [(store, rows)] ∧ 0 < rows.size ∧ rows.size ≤ max 1 size

/-- Every batch is of one store and within the buffer size. -/
theorem ofOneStore_of_mem_batches {size : Nat} {pending mutations : StoreMutations}
    (member : mutations ∈ batches size pending) : OfOneStore size mutations := by
  obtain ⟨store, -, ofStore⟩ := List.mem_flatMap.1 member
  obtain ⟨chunk, inChunks, rfl⟩ := List.mem_map.1 ofStore
  have length := length_of_mem_chunks size store.2.entries chunk inChunks
  have entries := entries_ofList (ascending_of_mem_chunks inChunks)
  refine ⟨store.1, OrderedMap.ofList chunk, rfl, ?_⟩
  rw [OrderedMap.size, entries]
  omega

section Shares

variable (size : Nat) (pending : StoreMutations) (store : String)

theorem contains_batch (name : String) (rows : List (Bytes × Mutation)) :
    (batch name rows).contains store = decide (store = name) := by
  rw [OrderedMap.contains, batch, OrderedMap.find?_insert]
  by_cases same : store = name
  · rw [if_pos same, decide_eq_true same]
    rfl
  · rw [if_neg same, decide_eq_false same]
    rfl

/-- The batches for a store are those of its own rows. -/
theorem filter_batches :
    (batches size pending).filter (fun mutations => mutations.contains store) =
      (chunks size (carried store pending)).map (batch store) := by
  have named : ∀ name (parts : List (List (Bytes × Mutation))),
      (parts.map (batch name)).filter (fun mutations => mutations.contains store) =
        if store = name then parts.map (batch name) else [] := by
    intro name parts
    split
    · rename_i same
      refine List.filter_eq_self.2 fun mutations member => ?_
      obtain ⟨rows, -, rfl⟩ := List.mem_map.1 member
      rw [contains_batch, decide_eq_true same]
    · rename_i different
      refine List.filter_eq_nil_iff.2 fun mutations member => ?_
      obtain ⟨rows, -, rfl⟩ := List.mem_map.1 member
      rw [contains_batch, decide_eq_false different]
      exact Bool.false_ne_true
  have others : ∀ rows ∈ pending.entries, rows.1 ≠ store →
      ((chunks size rows.2.entries).map (batch rows.1)).filter
        (fun mutations => mutations.contains store) = [] := by
    intro rows _ different
    rw [named, if_neg (Ne.symm different)]
  rw [batches, OrderedMap.filter_flatMap pending.ascending others, carried, OrderedMap.findD,
    OrderedMap.find?]
  cases pending.entries.lookup store with
  | none =>
      have nothing : chunks size (OrderedMap.empty : OrderedMap Bytes Mutation).entries = [] :=
        chunks.eq_1 size
      rw [Option.getD_none, nothing]
      rfl
  | some rows => exact (named store _).trans (if_pos rfl)

/-- Together the batches carry the pending rows of every store, each once and in order. -/
theorem flatMap_carried_batches :
    (batches size pending).flatMap (carried store) = carried store pending := by
  have elsewhere : ∀ sent : List StoreMutations, sent.flatMap (carried store) =
      (sent.filter fun mutations => mutations.contains store).flatMap (carried store) := by
    intro sent
    induction sent with
    | nil => rfl
    | cons mutations sent inductionHypothesis =>
        rw [List.flatMap_cons, inductionHypothesis, List.filter_cons]
        split
        · rw [List.flatMap_cons]
        · rename_i absent
          have nothing : carried store mutations = [] := by
            rw [carried, OrderedMap.findD,
              Option.not_isSome_iff_eq_none.1 (mt (fun held => held) absent)]
            rfl
          rw [nothing, List.nil_append]
  have own : ∀ chunk ∈ chunks size (carried store pending),
      carried store (batch store chunk) = chunk := by
    intro chunk member
    rw [carried_batch store store (ascending_of_mem_chunks member), if_pos rfl]
  rw [elsewhere, filter_batches, List.flatMap_map, List.flatMap_def, List.map_congr_left own,
    List.map_id', flatten_chunks]

/-- The number of batches for a store is the number of its rows, divided and rounded up. -/
theorem length_filter_batches :
    ((batches size pending).filter fun mutations => mutations.contains store).length =
      ((carried store pending).length + (max 1 size - 1)) / max 1 size := by
  rw [filter_batches, List.length_map, length_chunks]

end Shares

end Transaction

end GraphStore

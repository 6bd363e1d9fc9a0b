import GraphStore.Proofs.Action
import GraphStore.Proofs.Index.Canonical

/-!
Contract: coercion, writing and reading of one value.

Owns what a field of a declared type does with any value. Coercing and appending accept the same
values and refuse the others with the same error, and a refused value leaves what has been written
as it was (`append_eq`). An accepted value is stored as what it is coerced to and read back as that,
wherever the bytes stand (`coerce_append_read`).
-/

namespace GraphStore

open Encoding

/-! ### Reading behind any front -/

namespace Value

/-- The most bytes of a form whose end is known by its length alone. -/
def widestFixed : Nat := 8

/-- A stored form ends with a mark, or has a fixed width. -/
theorem length_fieldBytes_le {value : Value} (notText : value.dataType ≠ .string)
    (notBytes : value.dataType ≠ .bytes) : value.fieldBytes.length ≤ widestFixed := by
  cases value with
  | bool flag => exact Nat.succ_le_succ (Nat.zero_le _)
  | int number => exact (Bytes.length_bigEndian 4 _).trans_le (by decide)
  | long number => exact (Bytes.length_bigEndian 8 _).le
  | double number =>
      rw [fieldBytes]
      split
      · exact Nat.zero_le _
      · exact (Bytes.length_bigEndian 8 _).le
  | text content => exact absurd rfl notText
  | bytes content => exact absurd rfl notBytes

/-- In front of any further bytes a stored form is read back. Only for forms of fixed width are
offsets held against the limit: a form with an end mark may be of any length. -/
theorem read_fieldBytes {value : Value} (verified : value.verify = .ok ()) {offset : Nat}
    (within : offset + widestFixed < offsetLimit) (further : Bytes) :
    value.dataType.read ⟨offset, value.fieldBytes ++ further⟩ =
      (.ok value.dropZeroSign, ⟨offset + value.fieldBytes.length, further⟩) := by
  cases value with
  | text content => exact Action.map_eq_ok.2 ⟨content, read_readText content offset further, rfl⟩
  | bytes content => exact Action.map_eq_ok.2 ⟨content, read_escaped content offset further, rfl⟩
  | _ =>
      refine takes_read verified offset further
        (Nat.lt_of_le_of_lt (Nat.add_le_add_left ?_ offset) within)
      exact length_fieldBytes_le (fun same => nomatch same) (fun same => nomatch same)

end Value

namespace DataType

variable {target : DataType} {value coerced : Value}

/-! ### One field -/

/-- Appending follows coercion: it adds the stored form, or fails in the same way and adds
nothing. -/
theorem append_eq (target : DataType) (value : Value) (out : Bytes) :
    target.append value out = match target.coerce value with
      | .ok coerced => ((.ok (), out ++ coerced.fieldBytes) : Result Unit × Bytes)
      | .error failure => (.error failure, out) := by
  rw [coerce_eq, append]
  cases converts : target.convert value with
  | error failure => exact Action.bind_of_error (Action.ofResult_apply _ out)
  | ok converted =>
      rw [Action.bind_of_ok (Action.ofResult_apply (.ok converted) out)]
      show _ = match converted.verify >>= fun _ => pure converted with
        | .ok coerced => ((.ok (), out ++ coerced.fieldBytes) : Result Unit × Bytes)
        | .error failure => (.error failure, out)
      cases verified : converted.verify with
      | error failure => exact Action.bind_of_error (Action.ofResult_apply _ out)
      | ok _ => exact Action.bind_of_ok (Action.ofResult_apply _ out)

/-- What a field can hold is coerced to itself, signs of zeros and all. -/
theorem coerce_of_holds (holds : target.Holds value) : target.coerce value = .ok value := by
  obtain ⟨rfl, verified⟩ := holds
  exact Value.coerce_self_iff.2 ⟨rfl, verified⟩

theorem coerce_again (coerces : target.coerce value = .ok coerced) :
    target.coerce coerced = .ok coerced :=
  coerce_of_holds (holds_of_coerce coerces)

/-- A field of the type stores the value as `coerced`, in the bytes `written`. The value and what it
is coerced to add the same bytes, and behind any front and in front of anything else they are read
back as `coerced`, a signed zero without its sign, up to their end. Fronts in memory leave room for
a field below the limit of offsets. -/
structure Stores (target : DataType) (value coerced : Value) (written : Bytes) : Prop where
  appends : ∀ out, target.append value out = (.ok (), out ++ written)
  appendsCoerced : ∀ out, target.append coerced out = (.ok (), out ++ written)
  coercesAgain : target.coerce coerced = .ok coerced
  reads : ∀ front further, front.length + Value.widestFixed < offsetLimit →
    target.read (Cursor.startAt (front ++ written ++ further) front.length) =
      (.ok coerced.dropZeroSign,
        Cursor.startAt (front ++ written ++ further) (front ++ written).length)

theorem stores_fieldBytes (coerces : target.coerce value = .ok coerced) :
    target.Stores value coerced coerced.fieldBytes where
  appends out := by rw [append_eq, coerces]
  appendsCoerced out := by rw [append_eq, coerce_again coerces]
  coercesAgain := coerce_again coerces
  reads front further within := by
    obtain ⟨rfl, verified⟩ := holds_of_coerce coerces
    rw [Cursor.startAt, Cursor.startAt, List.drop_left, List.append_assoc, List.drop_left,
      List.length_append]
    exact Value.read_fieldBytes verified within further

/-- Coercion, writing and reading agree on every value. Writing succeeds exactly if coercion does,
and fails with its error otherwise; a failed call adds no bytes; an accepted value is stored as what
it is coerced to. What a field of the type can hold is accepted as it is. -/
theorem coerce_append_read (target : DataType) (value : Value) :
    (∀ out, (target.append value out).1 = (target.coerce value).map fun _ => ()) ∧
      (∀ out after failure, target.append value out = (.error failure, after) → after = out) ∧
      (∀ coerced, target.coerce value = .ok coerced →
        ∃ written, target.Stores value coerced written) ∧
      (target.Holds value → target.coerce value = .ok value) := by
  refine ⟨fun out => ?_, fun out after failure failed => ?_, fun coerced coerces =>
    ⟨coerced.fieldBytes, stores_fieldBytes coerces⟩, coerce_of_holds⟩
  · rw [append_eq]
    cases target.coerce value <;> rfl
  · rw [append_eq] at failed
    cases coerces : target.coerce value with
    | error _ =>
        rw [coerces] at failed
        exact (Prod.mk.inj failed).2.symm
    | ok coerced =>
        rw [coerces] at failed
        exact nomatch (Prod.mk.inj failed).1

/-- Blanks around the text of a number do not count, and a text that names NaN is no attribute. -/
example : double.coerce (.text " -0.0 ") = .ok (.double .negativeZero) ∧
    double.coerce (.text "NaN") = .error (.invalidValue .nanAttribute) := by
  decide +kernel

end DataType

end GraphStore

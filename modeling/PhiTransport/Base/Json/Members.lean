import PhiTransport.Base.Json.Soundness

/-!
# Reading a member back

How a client reads an object it has parsed: a later duplicate of a key
overrides an earlier one. `lastValue` is that rule on a member list and
`valueAt` the same on text.
-/

namespace Rfc8259

open Octets

def keys (ms : List (Bytes × Json)) : List Bytes := ms.map Prod.fst

/-- The value of `key`, of its last occurrence where it is repeated. -/
def lastValue (key : Bytes) : List (Bytes × Json) → Option Json
  | [] => none
  | (k, v) :: ms => (lastValue key ms).or (if k = key then some v else none)

/-- Parse an object and read one of its members. -/
def valueAt (key t : Bytes) : Option Json :=
  match readText t with
  | some (.obj ms) => lastValue key ms
  | _ => none

theorem lastValue_cons_of_ne {k key : Bytes} (h : k ≠ key) (v : Json) (ms : List (Bytes × Json)) :
    lastValue key ((k, v) :: ms) = lastValue key ms := by
  rw [lastValue, if_neg h, Option.or_none]

theorem lastValue_eq_none_iff {key : Bytes} {ms : List (Bytes × Json)} :
    lastValue key ms = none ↔ key ∉ keys ms := by
  induction ms with
  | nil => simp [lastValue, keys]
  | cons m ms ih =>
      rcases m with ⟨k, v⟩
      rw [lastValue, Option.or_eq_none_iff, ih]
      by_cases h : k = key
      · simp [keys, h]
      · simp [keys, h, Ne.symm h]

theorem lastValue_cons_self {key : Bytes} {ms : List (Bytes × Json)} (h : key ∉ keys ms)
    (v : Json) : lastValue key ((key, v) :: ms) = some v := by
  rw [lastValue, lastValue_eq_none_iff.mpr h, if_pos rfl]
  rfl

/-- Members behind the others matter only under their own keys. -/
theorem lastValue_append_of_notMem {key : Bytes} {ns : List (Bytes × Json)} (h : key ∉ keys ns)
    (ms : List (Bytes × Json)) : lastValue key (ms ++ ns) = lastValue key ms := by
  induction ms with
  | nil => exact lastValue_eq_none_iff.mpr h
  | cons m ms ih =>
      rcases m with ⟨k, v⟩
      rw [List.cons_append, lastValue, lastValue, ih]

theorem valueAt_of_objectText {ms : List (Bytes × Json)} {t : Bytes} (h : ObjectText ms t)
    (key : Bytes) : valueAt key t = lastValue key ms := by
  rw [valueAt, readText_of_text h]

end Rfc8259

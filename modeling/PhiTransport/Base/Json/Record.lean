import PhiTransport.Base.Json.Members

/-!
# Records with optional members

A record is a list of fields, each with its value or none; its object has the
members that are present, in the order of the record. `present` is that object
and `FieldText` the text a field contributes behind the first member: a comma
and the member, or nothing.
-/

namespace Rfc8259

open Octets

abbrev Record : Type := List (Bytes × Option Json)

/-- The members of a record's object. -/
def present (fs : Record) : List (Bytes × Json) :=
  fs.filterMap fun f => f.2.map fun v => (f.1, v)

theorem present_cons_some (key : Bytes) (v : Json) (fs : Record) :
    present ((key, some v) :: fs) = (key, v) :: present fs := rfl

theorem keys_present_sublist (fs : Record) : (keys (present fs)).Sublist (fs.map Prod.fst) := by
  induction fs with
  | nil => exact List.Sublist.refl _
  | cons f fs ih =>
      rcases f with ⟨key, _ | v⟩
      · exact ih.cons _
      · exact ih.cons_cons _

/-- No key of the object is repeated when none of the record is. -/
theorem nodup_keys_present {fs : Record} (h : (fs.map Prod.fst).Nodup) :
    (keys (present fs)).Nodup :=
  h.sublist (keys_present_sublist fs)

/-- A reader finds the value of a field, and nothing where it has none. -/
theorem lastValue_present {fs : Record} (h : (fs.map Prod.fst).Nodup) (key : Bytes) :
    lastValue key (present fs) = (fs.lookup key).join := by
  induction fs with
  | nil => rfl
  | cons f fs ih =>
      rcases f with ⟨k, o⟩
      obtain ⟨hk, hfs⟩ := List.nodup_cons.mp h
      by_cases heq : k = key
      · subst heq
        have hrest : k ∉ keys (present fs) := fun hmem =>
          hk ((keys_present_sublist fs).subset hmem)
        rw [List.lookup_cons_self]
        cases o with
        | none => exact lastValue_eq_none_iff.mpr hrest
        | some v => exact lastValue_cons_self hrest v
      · rw [List.lookup_cons, beq_false_of_ne (Ne.symm heq)]
        cases o with
        | none => exact ih hfs
        | some v =>
            rw [present_cons_some, lastValue_cons_of_ne heq]
            exact ih hfs

/-- What a field contributes behind the first member. -/
inductive FieldText : Bytes × Option Json → Bytes → Prop where
  | absent (key : Bytes) : FieldText (key, none) []
  | member {key a : Bytes} {v : Json} (h : MemberText (key, v) a) :
      FieldText (key, some v) (comma :: a)

theorem tailText_present {fs : Record} {ts : List Bytes} (h : List.Forall₂ FieldText fs ts) :
    TailText MemberText (present fs) ts.flatten := by
  induction h with
  | nil => rfl
  | @cons f t fs ts hf hfs ih =>
      cases hf with
      | absent key => exact ih
      | member hm => exact ⟨_, _, rfl, hm, ih⟩

/-- A record whose first field is always there, written field by field. -/
theorem objectText_present {key a : Bytes} {v : Json} {fs : Record} {ts : List Bytes}
    (ha : MemberText (key, v) a) (h : List.Forall₂ FieldText fs ts) :
    ObjectText (present ((key, some v) :: fs)) (lbrace :: (a ++ ts.flatten) ++ [rbrace]) :=
  objectText_of_list (listText_of_tail ha (tailText_present h))

/-- The same with a member list behind the fields. -/
theorem objectText_present_append {key a t : Bytes} {v : Json} {fs : Record} {ts : List Bytes}
    {extra : List (Bytes × Json)} (ha : MemberText (key, v) a) (h : List.Forall₂ FieldText fs ts)
    (ht : TailText MemberText extra t) :
    ObjectText (present ((key, some v) :: fs) ++ extra)
      (lbrace :: (a ++ (ts.flatten ++ t)) ++ [rbrace]) :=
  objectText_of_list (listText_of_tail ha (tailText_append (tailText_present h) ht))

theorem valueAt_present {fs : Record} {t : Bytes} (h : ObjectText (present fs) t)
    (hd : (fs.map Prod.fst).Nodup) (key : Bytes) : valueAt key t = (fs.lookup key).join := by
  rw [valueAt_of_objectText h, lastValue_present hd]

/-! ## Reading with defaults -/

/-- The integer an integer literal stands for. -/
def Number.toInt (n : Number) : ℤ :=
  if n.minus then -(natOfDigits n.int : ℤ) else natOfDigits n.int

theorem Number.toInt_ofNat (n : ℕ) : (Number.ofNat n).toInt = n := by
  rw [Number.toInt, Number.ofNat, if_neg Bool.false_ne_true, natOfDigits_decimal]

theorem Number.toInt_ofInt (i : ℤ) : (Number.ofInt i).toInt = i := by
  rw [Number.toInt, Number.ofInt, natOfDigits_decimal]
  by_cases h : i < 0
  · rw [if_pos (decide_eq_true h)]
    omega
  · rw [if_neg (by simpa using h)]
    omega

/-- The integer a member holds, `0` where there is none. -/
def integerAt (key t : Bytes) : ℤ :=
  match valueAt key t with
  | some (.num n) => n.toInt
  | _ => 0

def stringAt (key t : Bytes) : Bytes :=
  match valueAt key t with
  | some (.str s) => s
  | _ => []

def elementsAt (key t : Bytes) : List Json :=
  match valueAt key t with
  | some (.arr vs) => vs
  | _ => []

def membersAt (key t : Bytes) : List (Bytes × Json) :=
  match valueAt key t with
  | some (.obj ms) => ms
  | _ => []

section

variable {key t : Bytes}

theorem integerAt_ite {n : Number} {c : Prop} [Decidable c]
    (h : valueAt key t = if c then some (.num n) else none) :
    integerAt key t = if c then n.toInt else 0 := by
  unfold integerAt
  rw [h]
  by_cases hc : c
  · rw [if_pos hc, if_pos hc]
  · rw [if_neg hc, if_neg hc]

theorem integerAt_nat {n : ℕ} (h : valueAt key t = some (.num (.ofNat n))) :
    integerAt key t = n := by
  rw [integerAt, h]
  exact Number.toInt_ofNat n

theorem stringAt_some {s : Bytes} (h : valueAt key t = some (.str s)) : stringAt key t = s := by
  rw [stringAt, h]

/-- What is left out when it is empty is read back as empty. -/
theorem stringAt_ite {s : Bytes}
    (h : valueAt key t = if !s.isEmpty then some (.str s) else none) : stringAt key t = s := by
  cases s with
  | nil => rw [stringAt, h]; rfl
  | cons b s => exact stringAt_some h

theorem elementsAt_ite {vs : List Json}
    (h : valueAt key t = if !vs.isEmpty then some (.arr vs) else none) :
    elementsAt key t = vs := by
  cases vs with
  | nil => rw [elementsAt, h]; rfl
  | cons v vs => rw [elementsAt, h]; rfl

theorem membersAt_ite {ms : List (Bytes × Json)}
    (h : valueAt key t = if !ms.isEmpty then some (.obj ms) else none) :
    membersAt key t = ms := by
  cases ms with
  | nil => rw [membersAt, h]; rfl
  | cons m ms => rw [membersAt, h]; rfl

end

end Rfc8259

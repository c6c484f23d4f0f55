import PhiTransport.Api.JsonText
import PhiTransport.Base.Binary64

/-!
# Placeholder values

The values behind the `%1`.. placeholders of a message and their JSON text.
`std::to_chars` on a double is a parameter of the encoders; all they rely on is
that a finite double comes out as a JSON number (`WritesNumbers`).
-/

namespace PhiTransport

open Octets Rfc8259

/-- A `double`. Its sign is the one of its value, but zero has a sign of its own,
which `std::to_chars` writes. -/
inductive Double where
  | minusZero
  | of (value : Binary64)

def Double.value : Double → Binary64
  | .minusZero => .finite 0 Binary64.representable_zero
  | .of value => value

def Double.isFinite (entry : Double) : Bool := entry.value.isFinite

inductive Scalar where
  | monostate
  | boolean (entry : Bool)
  | int64 (entry : Int64)
  | double (entry : Double)
  | string (entry : Bytes)

abbrev ScalarList : Type := List Scalar

/-- `std::to_chars` into the 32-byte buffer: the text, or `none` for an error code. -/
abbrev ToChars : Type := Double → Option Bytes

/-- A finite double is written as a JSON number. -/
def WritesNumbers (toChars : ToChars) : Prop :=
  ∀ entry t, Double.isFinite entry = true → toChars entry = some t → ∃ n : Number, t = n.text

/-- `std::to_chars` on the integers below a hundred thousand, which it writes
without an exponent. -/
def smallIntegerChars : ToChars
  | .minusZero => some (ascii "-0")
  | .of (.finite q _) =>
      if q.den = 1 ∧ q.num.natAbs < 100000 then some (decimalInt q.num) else none
  | .of _ => none

/-- The number literal `-0`. -/
def minusZeroNumber : Number where
  minus := true
  int := ascii "0"
  frac := []
  exp := none
  int_ok := intPart_decimal 0
  frac_ok := digits_nil

theorem writesNumbers_smallIntegerChars : WritesNumbers smallIntegerChars := by
  intro entry t hfin ht
  unfold smallIntegerChars at ht
  split at ht
  · exact ⟨minusZeroNumber, (Option.some.inj ht).symm⟩
  · next q h =>
    split_ifs at ht
    refine ⟨.ofInt q.num, ?_⟩
    rw [Number.text_ofInt]
    exact (Option.some.inj ht).symm
  · exact absurd ht (Option.some_ne_none t).symm

section

variable (toChars : ToChars)

def doubleToText (value : Double) : Bytes := (toChars value).getD (ascii "0")

def scalarToJson : Scalar → Bytes
  | .monostate => ascii "null"
  | .boolean entry => if entry then ascii "true" else ascii "false"
  | .int64 entry => decimalInt entry.toInt
  | .double entry => if entry.isFinite then doubleToText toChars entry else ascii "null"
  | .string entry => jsonQuoted entry

def scalarListToJson (values : ScalarList) : Bytes :=
  appendItems (scalarToJson toChars) values [lbracket] ++ [rbracket]

/-- Rendering for a text sink: an absent value leaves a gap. -/
def scalarToText : Scalar → Bytes
  | .monostate => []
  | .boolean entry => if entry then ascii "true" else ascii "false"
  | .int64 entry => decimalInt entry.toInt
  | .double entry => if entry.isFinite then doubleToText toChars entry else []
  | .string entry => entry

variable {toChars}

theorem number_doubleToText (hc : WritesNumbers toChars) {value : Double}
    (h : value.isFinite = true) : ∃ n : Number, n.text = doubleToText toChars value := by
  unfold doubleToText
  cases htext : toChars value with
  | none => exact ⟨.ofNat 0, Number.text_ofNat 0⟩
  | some t =>
      obtain ⟨n, rfl⟩ := hc value t h htext
      exact ⟨n, rfl⟩

/-- Every scalar is written as JSON text. -/
theorem text_scalarToJson (hc : WritesNumbers toChars) (value : Scalar) :
    ∃ v, Text v (scalarToJson toChars value) := by
  cases value with
  | monostate => exact ⟨_, text_null⟩
  | boolean entry => exact ⟨_, text_bool entry⟩
  | int64 entry => exact ⟨_, text_int _⟩
  | string entry => exact ⟨_, text_jsonQuoted entry⟩
  | double entry =>
      rw [scalarToJson]
      by_cases h : entry.isFinite = true
      · rw [if_pos h]
        obtain ⟨n, hn⟩ := number_doubleToText hc h
        rw [← hn]
        exact ⟨_, text_number n⟩
      · rw [if_neg h]
        exact ⟨_, text_null⟩

/-- A placeholder list is written as a JSON array, element by element. -/
theorem text_scalarListToJson (hc : WritesNumbers toChars) (values : ScalarList) :
    ∃ vs, Text (.arr vs) (scalarListToJson toChars values) ∧
      List.Forall₂ (fun v value => Text v (scalarToJson toChars value)) vs values := by
  have hall : ∃ vs, List.Forall₂ (fun v value => Text v (scalarToJson toChars value)) vs
      values := by
    induction values with
    | nil => exact ⟨[], .nil⟩
    | cons value values ih =>
        obtain ⟨v, hv⟩ := text_scalarToJson hc value
        obtain ⟨vs, hvs⟩ := ih
        exact ⟨v :: vs, .cons hv hvs⟩
  obtain ⟨vs, hvs⟩ := hall
  refine ⟨vs, ?_, hvs⟩
  rw [scalarListToJson, appendItems_append, List.singleton_append]
  exact text_appendItems hvs

/-- What a reader finds for a scalar; for a double, the number written for it. -/
def ScalarJson (toChars : ToChars) (v : Json) : Scalar → Prop
  | .monostate => v = .null
  | .boolean entry => v = .bool entry
  | .int64 entry => v = .num (.ofInt entry.toInt)
  | .double entry =>
      if entry.isFinite then ∃ n : Number, v = .num n ∧ n.text = doubleToText toChars entry
      else v = .null
  | .string entry => v = .str entry

theorem scalarJson_of_text (hc : WritesNumbers toChars) {v : Json} {value : Scalar}
    (h : Text v (scalarToJson toChars value)) : ScalarJson toChars v value := by
  cases value with
  | monostate => exact text_unique h text_null
  | boolean entry => exact text_unique h (text_bool entry)
  | int64 entry => exact text_unique h (text_int _)
  | string entry => exact text_unique h (text_jsonQuoted entry)
  | double entry =>
      rw [scalarToJson] at h
      rw [ScalarJson]
      by_cases hfin : entry.isFinite = true
      · rw [if_pos hfin] at h ⊢
        obtain ⟨n, hn⟩ := number_doubleToText hc hfin
        rw [← hn] at h
        exact ⟨n, text_unique h (text_number n), hn⟩
      · rw [if_neg hfin] at h ⊢
        exact text_unique h text_null

/-- A placeholder list is read back with one element a scalar, in order. -/
theorem scalarJson_scalarListToJson (hc : WritesNumbers toChars) (values : ScalarList) :
    ∃ vs, Text (.arr vs) (scalarListToJson toChars values) ∧
      List.Forall₂ (ScalarJson toChars) vs values := by
  obtain ⟨vs, htext, hvs⟩ := text_scalarListToJson hc values
  refine ⟨vs, htext, hvs.imp ?_⟩
  intro v value hv
  exact scalarJson_of_text hc hv

end

end PhiTransport

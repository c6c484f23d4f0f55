import PhiTransport.Base.Octets

/-!
# The JSON grammar over bytes

RFC 8259 as a relation between a value and a byte string that spells it. The
value keeps what the text says and nothing less: an object is its member list
in the order of the text, repeated keys included, and a number is its literal.
Strings are decoded: the relation goes through the list of character units of
the literal, so `\u0073` and `s` spell the same key.

- `StringText`, `Number.text` — the two leaves that are not fixed words.
- `ListText` — items between separating commas, shared by arrays and objects.
- `Spells` — the grammar; `spells_arr` and `spells_obj` present it through
  `ListText`, and everything later uses that form.
- `Text` — a value between optional whitespace, the shape of a whole document.

A byte from `0x80` on stands for itself inside a string.
-/

namespace Rfc8259

open Octets

def quote : UInt8 := 0x22
def backslash : UInt8 := 0x5C
def comma : UInt8 := 0x2C
def colon : UInt8 := 0x3A
def lbracket : UInt8 := 0x5B
def rbracket : UInt8 := 0x5D
def lbrace : UInt8 := 0x7B
def rbrace : UInt8 := 0x7D

def isWs (b : UInt8) : Bool := b == 0x20 || b == 0x09 || b == 0x0A || b == 0x0D

/-- Nothing but JSON whitespace; the empty string is blank. -/
def Blank (t : Bytes) : Prop := ∀ b ∈ t, isWs b = true

instance (t : Bytes) : Decidable (Blank t) :=
  decidable_of_iff (t.all isWs = true) List.all_eq_true

theorem blank_nil : Blank [] := by simp [Blank]

/-! ## String literals -/

/-- One unit of a string literal: a byte, written as itself or by a two-byte
escape, or a UTF-16 code unit written `\uXXXX`. -/
inductive CharUnit where
  | byte (b : UInt8)
  | code (x : ℕ)
deriving DecidableEq

def isUnescaped (b : UInt8) : Bool := decide (0x20 ≤ b) && b != quote && b != backslash

/-- The byte a two-byte escape stands for, by the byte after the backslash. -/
def escapeByte (c : UInt8) : Option UInt8 :=
  if c = quote then some quote
  else if c = backslash then some backslash
  else if c = 0x2F then some 0x2F
  else if c = 0x62 then some 0x08
  else if c = 0x66 then some 0x0C
  else if c = 0x6E then some 0x0A
  else if c = 0x72 then some 0x0D
  else if c = 0x74 then some 0x09
  else none

def hexVal (b : UInt8) : Option ℕ :=
  if isDigit b then some (b.toNat - 0x30)
  else if 0x61 ≤ b ∧ b ≤ 0x66 then some (b.toNat - 0x57)
  else if 0x41 ≤ b ∧ b ≤ 0x46 then some (b.toNat - 0x37)
  else none

def hexQuad (a b c d : UInt8) : Option ℕ := do
  let w ← hexVal a
  let x ← hexVal b
  let y ← hexVal c
  let z ← hexVal d
  return ((w * 16 + x) * 16 + y) * 16 + z

/-- The letter that starts a `\uXXXX` escape. -/
def letterU : UInt8 := 0x75

inductive UnitText : CharUnit → Bytes → Prop where
  | plain {b : UInt8} (h : isUnescaped b = true) : UnitText (.byte b) [b]
  | escape {c b : UInt8} (h : escapeByte c = some b) : UnitText (.byte b) [backslash, c]
  | unicode {a b c d : UInt8} {x : ℕ} (h : hexQuad a b c d = some x) :
      UnitText (.code x) [backslash, letterU, a, b, c, d]

def UnitsText : List CharUnit → Bytes → Prop
  | [], t => t = []
  | u :: us, t => ∃ a b, t = a ++ b ∧ UnitText u a ∧ UnitsText us b

/-- The UTF-8 bytes of a code point. A lone surrogate gets the three bytes its
value would have, which no UTF-8 text contains. -/
def utf8 (x : ℕ) : Bytes :=
  if x < 0x80 then [UInt8.ofNat x]
  else if x < 0x800 then [UInt8.ofNat (0xC0 + x / 0x40), UInt8.ofNat (0x80 + x % 0x40)]
  else if x < 0x10000 then
    [UInt8.ofNat (0xE0 + x / 0x1000), UInt8.ofNat (0x80 + x / 0x40 % 0x40),
      UInt8.ofNat (0x80 + x % 0x40)]
  else
    [UInt8.ofNat (0xF0 + x / 0x40000), UInt8.ofNat (0x80 + x / 0x1000 % 0x40),
      UInt8.ofNat (0x80 + x / 0x40 % 0x40), UInt8.ofNat (0x80 + x % 0x40)]

def isHighSurrogate (x : ℕ) : Bool := decide (0xD800 ≤ x ∧ x < 0xDC00)
def isLowSurrogate (x : ℕ) : Bool := decide (0xDC00 ≤ x ∧ x < 0xE000)

/-- What the units of a literal decode to; a surrogate pair is one code point. -/
def decode : List CharUnit → Bytes
  | [] => []
  | .byte b :: us => b :: decode us
  | .code x :: .code y :: us =>
      if isHighSurrogate x && isLowSurrogate y then
        utf8 (0x10000 + (x - 0xD800) * 0x400 + (y - 0xDC00)) ++ decode us
      else utf8 x ++ decode (.code y :: us)
  | .code x :: us => utf8 x ++ decode us

/-- `t` is a string literal, quotes included, that decodes to `s`. -/
def StringText (s t : Bytes) : Prop :=
  ∃ us u, t = quote :: u ++ [quote] ∧ UnitsText us u ∧ s = decode us

/-! ## Numbers -/

def Digits (t : Bytes) : Prop := ∀ b ∈ t, isDigit b = true

instance (t : Bytes) : Decidable (Digits t) :=
  decidable_of_iff (t.all isDigit = true) List.all_eq_true

theorem digits_nil : Digits [] := by simp [Digits]

/-- An integer part: digits, and no leading zero unless it is the only digit. -/
def IntPart (t : Bytes) : Prop :=
  t ≠ [] ∧ Digits t ∧ (t.head? = some 0x30 → t = [0x30])

instance (t : Bytes) : Decidable (IntPart t) := by unfold IntPart; infer_instance

structure Exponent where
  upper : Bool
  /-- `some true` for a minus, `some false` for a plus. -/
  sign : Option Bool
  digits : Bytes
  digits_ok : digits ≠ [] ∧ Digits digits
deriving DecidableEq

/-- A number literal, part by part. An absent fraction is the empty one. -/
structure Number where
  minus : Bool
  int : Bytes
  frac : Bytes
  exp : Option Exponent
  int_ok : IntPart int
  frac_ok : Digits frac
deriving DecidableEq

def signText : Option Bool → Bytes
  | none => []
  | some true => [0x2D]
  | some false => [0x2B]

def Exponent.text (e : Exponent) : Bytes :=
  (if e.upper then 0x45 else 0x65) :: signText e.sign ++ e.digits

def fracText (frac : Bytes) : Bytes := if frac = [] then [] else 0x2E :: frac

def expText : Option Exponent → Bytes
  | none => []
  | some e => e.text

def Number.text (n : Number) : Bytes :=
  (if n.minus then [0x2D] else []) ++ n.int ++ fracText n.frac ++ expText n.exp

theorem intPart_decimal (n : ℕ) : IntPart (decimal n) := by
  refine ⟨decimal_ne_nil n, fun b hb => isDigit_of_mem_decimal hb, fun h => ?_⟩
  by_cases hn : n = 0
  · rw [hn]
    rfl
  · obtain ⟨b, t, hbt⟩ := List.exists_cons_of_ne_nil (decimal_ne_nil n)
    rw [hbt, List.head?_cons, Option.some.injEq] at h
    exact absurd h (decimal_head_ne_zero hn hbt)

/-- The literal of a natural number. -/
def Number.ofNat (n : ℕ) : Number where
  minus := false
  int := decimal n
  frac := []
  exp := none
  int_ok := intPart_decimal n
  frac_ok := digits_nil

theorem Number.text_ofNat (n : ℕ) : (Number.ofNat n).text = decimal n := by
  simp [Number.text, Number.ofNat, fracText, expText]

/-- The literal of an integer. -/
def Number.ofInt (i : ℤ) : Number where
  minus := decide (i < 0)
  int := decimal i.natAbs
  frac := []
  exp := none
  int_ok := intPart_decimal i.natAbs
  frac_ok := digits_nil

theorem Number.text_ofInt (i : ℤ) : (Number.ofInt i).text = decimalInt i := by
  by_cases h : i < 0
  · simp [Number.text, Number.ofInt, fracText, expText, decimalInt, h]
  · simp [Number.text, Number.ofInt, fracText, expText, decimalInt, h]

/-! ## Values -/

inductive Json where
  | null
  | bool (b : Bool)
  | num (n : Number)
  | str (s : Bytes)
  | arr (xs : List Json)
  | obj (ms : List (Bytes × Json))

/-- Induction on a value, with the hypothesis for every element and member. -/
@[elab_as_elim]
theorem Json.ind {motive : Json → Prop} (null : motive .null)
    (bool : ∀ b, motive (.bool b)) (num : ∀ n, motive (.num n))
    (str : ∀ s, motive (.str s))
    (arr : ∀ xs, (∀ x ∈ xs, motive x) → motive (.arr xs))
    (obj : ∀ ms, (∀ m ∈ ms, motive m.2) → motive (.obj ms)) (v : Json) : motive v := by
  refine Json.rec (motive_1 := motive) (motive_2 := fun xs => ∀ x ∈ xs, motive x)
    (motive_3 := fun ms => ∀ m ∈ ms, motive m.2) (motive_4 := fun m => motive m.2)
    null bool num str arr obj ?_ ?_ ?_ ?_ ?_ v
  · simp
  · intro x xs hx hxs y hy
    rcases List.mem_cons.mp hy with rfl | hy
    · exact hx
    · exact hxs y hy
  · simp
  · intro m ms hm hms y hy
    rcases List.mem_cons.mp hy with rfl | hy
    · exact hm
    · exact hms y hy
  · intro k v hv
    exact hv

/-- A text of `P` between optional whitespace. -/
def Padded (P : Bytes → Prop) (t : Bytes) : Prop :=
  ∃ w u w', t = w ++ u ++ w' ∧ Blank w ∧ P u ∧ Blank w'

theorem padded_of {P : Bytes → Prop} {t : Bytes} (h : P t) : Padded P t :=
  ⟨[], t, [], by simp, blank_nil, h, blank_nil⟩

/-- A member: a key, a colon and the text of its value. -/
def MemberOf (P : Bytes → Prop) (key t : Bytes) : Prop :=
  ∃ a b, t = a ++ colon :: b ∧ Padded (StringText key) a ∧ Padded P b

def boolText (b : Bool) : Bytes := if b then ascii "true" else ascii "false"

mutual
/-- `Spells v t`: the text `t`, without surrounding whitespace, is a JSON
text of the value `v`. -/
def Spells : Json → Bytes → Prop
  | .null, t => t = ascii "null"
  | .bool b, t => t = boolText b
  | .num n, t => t = n.text
  | .str s, t => StringText s t
  | .arr xs, t => ∃ b, t = lbracket :: b ++ [rbracket] ∧ ElementsText xs b
  | .obj ms, t => ∃ b, t = lbrace :: b ++ [rbrace] ∧ MembersText ms b
def ElementsText : List Json → Bytes → Prop
  | [], t => Blank t
  | x :: xs, t => ∃ a b, t = a ++ b ∧ Padded (Spells x) a ∧ ElementsTail xs b
def ElementsTail : List Json → Bytes → Prop
  | [], t => t = []
  | x :: xs, t => ∃ a b, t = comma :: a ++ b ∧ Padded (Spells x) a ∧ ElementsTail xs b
def MembersText : List (Bytes × Json) → Bytes → Prop
  | [], t => Blank t
  | (k, v) :: ms, t => ∃ a b, t = a ++ b ∧ MemberOf (Spells v) k a ∧ MembersTail ms b
def MembersTail : List (Bytes × Json) → Bytes → Prop
  | [], t => t = []
  | (k, v) :: ms, t =>
      ∃ a b, t = comma :: a ++ b ∧ MemberOf (Spells v) k a ∧ MembersTail ms b
end

/-- A whole document: one value between optional whitespace. -/
def Text (v : Json) : Bytes → Prop := Padded (Spells v)

/-- The text of one member. -/
def MemberText (m : Bytes × Json) : Bytes → Prop := MemberOf (Spells m.2) m.1

/-- `t` is JSON object text with the members `ms`, in this order. -/
def ObjectText (ms : List (Bytes × Json)) (t : Bytes) : Prop := Text (.obj ms) t

/-! ## Comma-separated lists -/

section Lists

variable {α : Type}

/-- What follows the first item of a list: a comma and an item, repeated. -/
def TailText (P : α → Bytes → Prop) : List α → Bytes → Prop
  | [], t => t = []
  | x :: xs, t => ∃ a b, t = comma :: a ++ b ∧ P x a ∧ TailText P xs b

/-- The inside of an array or an object. -/
def ListText (P : α → Bytes → Prop) : List α → Bytes → Prop
  | [], t => Blank t
  | x :: xs, t => ∃ a b, t = a ++ b ∧ P x a ∧ TailText P xs b

variable {P : α → Bytes → Prop}

theorem tailText_of_listText {xs : List α} {t : Bytes} (hne : xs ≠ [])
    (h : ListText P xs t) : TailText P xs (comma :: t) := by
  cases xs with
  | nil => exact absurd rfl hne
  | cons x xs =>
      obtain ⟨a, b, rfl, ha, hb⟩ := h
      exact ⟨a, b, rfl, ha, hb⟩

theorem listText_singleton {x : α} {a : Bytes} (h : P x a) : ListText P [x] a :=
  ⟨a, [], by simp, h, rfl⟩

theorem listText_cons {x : α} {xs : List α} {a t : Bytes} (hx : P x a)
    (hne : xs ≠ []) (h : ListText P xs t) : ListText P (x :: xs) (a ++ comma :: t) :=
  ⟨a, comma :: t, rfl, hx, tailText_of_listText hne h⟩

theorem listText_of_tail {x : α} {xs : List α} {a b : Bytes} (hx : P x a)
    (h : TailText P xs b) : ListText P (x :: xs) (a ++ b) :=
  ⟨a, b, rfl, hx, h⟩

theorem tailText_append {xs ys : List α} {s t : Bytes} (hs : TailText P xs s)
    (ht : TailText P ys t) : TailText P (xs ++ ys) (s ++ t) := by
  induction xs generalizing s with
  | nil =>
      rw [TailText] at hs
      rw [hs]
      exact ht
  | cons x xs ih =>
      obtain ⟨a, b, rfl, ha, hb⟩ := hs
      exact ⟨a, b ++ t, by simp, ha, ih hb⟩

/-- An optional item, with the comma in front of it. -/
theorem tailText_ite {x : α} {a : Bytes} (hx : P x a) (c : Bool) :
    TailText P (if c then [x] else []) (if c then comma :: a else []) := by
  cases c
  · rfl
  · exact ⟨a, [], by simp, hx, rfl⟩

/-- Item texts joined by commas are the text of the list. -/
theorem listText_intercalate {xs : List α} {ts : List Bytes}
    (h : List.Forall₂ P xs ts) : ListText P xs ([comma].intercalate ts) := by
  induction h with
  | nil => exact blank_nil
  | @cons x t xs ts hx hxs ih =>
      cases hxs with
      | nil =>
          rw [List.intercalate_singleton]
          exact listText_singleton hx
      | cons hy hys =>
          rw [List.intercalate_cons_cons, List.append_assoc]
          exact listText_cons hx (List.cons_ne_nil _ _) ih

end Lists

section Containers

attribute [local simp] Spells ElementsText ElementsTail MembersText MembersTail TailText ListText

theorem elementsTail_iff (xs : List Json) (t : Bytes) :
    ElementsTail xs t ↔ TailText Text xs t := by
  induction xs generalizing t with
  | nil => simp
  | cons x xs ih => simp [Text, ih]

theorem elementsText_iff (xs : List Json) (t : Bytes) :
    ElementsText xs t ↔ ListText Text xs t := by
  cases xs with
  | nil => simp
  | cons x xs => simp [Text, elementsTail_iff]

theorem membersTail_iff (ms : List (Bytes × Json)) (t : Bytes) :
    MembersTail ms t ↔ TailText MemberText ms t := by
  induction ms generalizing t with
  | nil => simp
  | cons m ms ih => simp [MemberText, ih]

theorem membersText_iff (ms : List (Bytes × Json)) (t : Bytes) :
    MembersText ms t ↔ ListText MemberText ms t := by
  cases ms with
  | nil => simp
  | cons m ms => simp [MemberText, membersTail_iff]

theorem spells_arr {xs : List Json} {t : Bytes} :
    Spells (.arr xs) t ↔ ∃ b, t = lbracket :: b ++ [rbracket] ∧ ListText Text xs b := by
  simp [elementsText_iff]

theorem spells_obj {ms : List (Bytes × Json)} {t : Bytes} :
    Spells (.obj ms) t ↔ ∃ b, t = lbrace :: b ++ [rbrace] ∧ ListText MemberText ms b := by
  simp [membersText_iff]

end Containers

/-! ## Building texts -/

theorem text_of_spells {v : Json} {t : Bytes} (h : Spells v t) : Text v t := padded_of h

theorem text_null : Text .null (ascii "null") := text_of_spells (by rw [Spells])

theorem text_bool (b : Bool) : Text (.bool b) (boolText b) := text_of_spells (by rw [Spells])

theorem text_number (n : Number) : Text (.num n) n.text :=
  text_of_spells (by rw [Spells])

theorem text_nat (n : ℕ) : Text (.num (.ofNat n)) (decimal n) := by
  rw [← Number.text_ofNat]
  exact text_number _

theorem text_int (i : ℤ) : Text (.num (.ofInt i)) (decimalInt i) := by
  rw [← Number.text_ofInt]
  exact text_number _

theorem text_str {s t : Bytes} (h : StringText s t) : Text (.str s) t :=
  text_of_spells (by rwa [Spells])

theorem text_arr {xs : List Json} {t : Bytes} (h : ListText Text xs t) :
    Text (.arr xs) (lbracket :: t ++ [rbracket]) :=
  text_of_spells (spells_arr.mpr ⟨t, rfl, h⟩)

theorem objectText_of_list {ms : List (Bytes × Json)} {t : Bytes}
    (h : ListText MemberText ms t) : ObjectText ms (lbrace :: t ++ [rbrace]) :=
  text_of_spells (spells_obj.mpr ⟨t, rfl, h⟩)

/-- Object text is its braces between whitespace, with the member list inside. -/
theorem objectText_iff {ms : List (Bytes × Json)} {t : Bytes} :
    ObjectText ms t ↔ ∃ w b w', t = w ++ (lbrace :: b ++ [rbrace]) ++ w' ∧
      Blank w ∧ Blank w' ∧ ListText MemberText ms b := by
  constructor
  · rintro ⟨w, u, w', rfl, hw, hu, hw'⟩
    obtain ⟨b, rfl, hb⟩ := spells_obj.mp hu
    exact ⟨w, b, w', rfl, hw, hw', hb⟩
  · rintro ⟨w, b, w', rfl, hw, hw', hb⟩
    exact ⟨w, _, w', rfl, hw, spells_obj.mpr ⟨b, rfl, hb⟩, hw'⟩

theorem memberText_of {k a b : Bytes} {v : Json} (hk : StringText k a) (hv : Text v b) :
    MemberText (k, v) (a ++ colon :: b) :=
  ⟨a, b, rfl, padded_of hk, hv⟩

/-- Every member text starts, after whitespace, with the quote of its key. -/
theorem memberText_quote_mem {m : Bytes × Json} {t : Bytes} (h : MemberText m t) :
    quote ∈ t := by
  obtain ⟨a, b, rfl, ⟨w, u, w', rfl, -, ⟨us, body, rfl, -, -⟩, -⟩, -⟩ := h
  simp

end Rfc8259

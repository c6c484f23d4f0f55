import PhiTransport.Base.Json.Soundness
import PhiTransport.Base.Binary64

/-!
# A JSON library's values

The value type of `nlohmann::json` and what its documentation says of the
operations a client of it calls. The parser itself is not modelled: it is any
function with `ReadsJson`, which fixes its answer on JSON text whose strings
are UTF-8 and whose numbers a 64-bit number can hold. On other input it may
answer anything, `discarded` included.

An object is an association list with one entry a key, the way `operator[]`
fills it, so a repeated key of the text keeps its last value. The accessors
throw on a value of another type.
-/

namespace Nlohmann

open Octets Rfc8259

inductive Value where
  | discarded
  | null
  | boolean (b : Bool)
  | numberUnsigned (n : UInt64)
  | numberInteger (i : Int64)
  | numberFloat (d : Binary64)
  | string (s : Bytes)
  | array (xs : List Value)
  | object (ms : List (Bytes × Value))

abbrev Members : Type := List (Bytes × Value)

/-! ## Members -/

/-- `operator[]` followed by an assignment; the keys stay in order. -/
def assign (key : Bytes) (v : Value) : Members → Members
  | [] => [(key, v)]
  | (k, w) :: ms =>
      if k = key then (key, v) :: ms
      else if key < k then (key, v) :: (k, w) :: ms
      else (k, w) :: assign key v ms

theorem lookup_cons_of_ne {k key : Bytes} (h : k ≠ key) (v : Value) (ms : Members) :
    List.lookup key ((k, v) :: ms) = ms.lookup key := by
  rw [List.lookup_cons, beq_false_of_ne (Ne.symm h)]

theorem lookup_assign_self (key : Bytes) (v : Value) (ms : Members) :
    (assign key v ms).lookup key = some v := by
  induction ms with
  | nil => exact List.lookup_cons_self
  | cons m ms ih =>
      rcases m with ⟨k, w⟩
      rw [assign]
      by_cases h : k = key
      · rw [if_pos h]
        exact List.lookup_cons_self
      · by_cases hlt : key < k
        · rw [if_neg h, if_pos hlt]
          exact List.lookup_cons_self
        · rw [if_neg h, if_neg hlt, lookup_cons_of_ne h]
          exact ih

theorem lookup_assign_of_ne {k key : Bytes} (hne : key ≠ k) (v : Value) (ms : Members) :
    (assign key v ms).lookup k = ms.lookup k := by
  induction ms with
  | nil => exact lookup_cons_of_ne hne v []
  | cons m ms ih =>
      rcases m with ⟨k', w⟩
      rw [assign]
      by_cases h : k' = key
      · rw [if_pos h, lookup_cons_of_ne hne, lookup_cons_of_ne (h ▸ hne)]
      · by_cases hlt : key < k'
        · rw [if_neg h, if_pos hlt, lookup_cons_of_ne hne]
        · rw [if_neg h, if_neg hlt, List.lookup_cons, List.lookup_cons, ih]

/-- The members of a text, assigned one after the other. -/
def build (ms : Members) : Members := ms.foldl (fun o m => assign m.1 m.2 o) []

theorem lookup_foldl_assign (key : Bytes) (ms o : Members) :
    (ms.foldl (fun o m => assign m.1 m.2 o) o).lookup key =
      (ms.reverse.lookup key).or (o.lookup key) := by
  induction ms generalizing o with
  | nil => rfl
  | cons m ms ih =>
      rcases m with ⟨k, v⟩
      rw [List.foldl_cons, ih, List.reverse_cons, List.lookup_append, Option.or_assoc]
      congr 1
      by_cases h : k = key
      · subst h
        rw [lookup_assign_self, List.lookup_cons_self, Option.some_or]
      · rw [lookup_assign_of_ne h, lookup_cons_of_ne h]
        rfl

/-- The last occurrence of a key is the one that is kept. -/
theorem lookup_build (key : Bytes) (ms : Members) :
    (build ms).lookup key = ms.reverse.lookup key := by
  rw [build, lookup_foldl_assign]
  exact Option.or_none

/-! ## Type tests and accessors -/

def Value.isObject : Value → Bool
  | .object _ => true
  | _ => false

def Value.isNumber : Value → Bool
  | .numberUnsigned _ | .numberInteger _ | .numberFloat _ => true
  | _ => false

def Value.isString : Value → Bool
  | .string _ => true
  | _ => false

theorem Value.isObject_cases (v : Value) : v.isObject = false ∨ ∃ ms, v = .object ms := by
  cases v with
  | object ms => exact Or.inr ⟨ms, rfl⟩
  | _ => exact Or.inl rfl

/-- `find`, with `none` for `end()`; nothing is found in a value that is no object. -/
def Value.find (key : Bytes) : Value → Option Value
  | .object ms => ms.lookup key
  | _ => none

def Value.contains (key : Bytes) (v : Value) : Bool := (v.find key).isSome

/-- `operator[]` followed by an assignment. A null becomes an object first, a
value of another type has no members to assign to. -/
def Value.set (v : Value) (key : Bytes) (w : Value) : Except Fault Value :=
  match v with
  | .object ms => .ok (.object (assign key w ms))
  | .null => .ok (.object [(key, w)])
  | _ => .error .thrown

/-- `get<double>()`. -/
def Value.getDouble : Value → Except Fault Binary64
  | .numberUnsigned n => .ok (.ofUInt64 n)
  | .numberInteger i => .ok (.ofInt64 i)
  | .numberFloat d => .ok d
  | _ => .error .thrown

/-- `get<std::string>()` and `get_ref<const std::string &>()`. -/
def Value.getString : Value → Except Fault Bytes
  | .string s => .ok s
  | _ => .error .thrown

/-! ## Reading JSON text -/

def within (low high b : UInt8) : Bool := decide (low ≤ b) && decide (b ≤ high)

def isTail (b : UInt8) : Bool := within 0x80 0xBF b

/-- The first two bytes of a three-byte sequence: no overlong form, no surrogate. -/
def isLead3 (a b : UInt8) : Bool :=
  (a == 0xE0 && within 0xA0 0xBF b) || (within 0xE1 0xEC a && isTail b) ||
    (a == 0xED && within 0x80 0x9F b) || (within 0xEE 0xEF a && isTail b)

/-- The first two bytes of a four-byte sequence: no overlong form, no more than `U+10FFFF`. -/
def isLead4 (a b : UInt8) : Bool :=
  (a == 0xF0 && within 0x90 0xBF b) || (within 0xF1 0xF3 a && isTail b) ||
    (a == 0xF4 && within 0x80 0x8F b)

/-- Well-formed UTF-8. -/
def validUtf8 : Bytes → Bool
  | [] => true
  | a :: t =>
      if a < 0x80 then validUtf8 t
      else
        match t with
        | [] => false
        | b :: t =>
            if within 0xC2 0xDF a && isTail b then validUtf8 t
            else
              match t with
              | [] => false
              | c :: t =>
                  if isLead3 a b && isTail c then validUtf8 t
                  else
                    match t with
                    | [] => false
                    | d :: t => isLead4 a b && isTail c && isTail d && validUtf8 t

theorem validUtf8_of_ascii {t : Bytes} (h : t.all (· < 0x80) = true) : validUtf8 t = true := by
  induction t with
  | nil => rw [validUtf8]
  | cons a t ih =>
      rw [List.all_cons, Bool.and_eq_true, decide_eq_true_eq] at h
      unfold validUtf8
      rw [if_pos h.1]
      exact ih h.2

section

variable (float : Number → Option Binary64)

/-- An integer literal is kept as a 64-bit integer where it fits; any other
number goes through `strtod`, here `float`, which fails on overflow. -/
def ofNumber (n : Number) : Option Value :=
  let magnitude := natOfDigits n.int
  if n.frac = [] ∧ n.exp = none then
    if n.minus then
      if magnitude ≤ 2 ^ 63 then some (.numberInteger (Int64.ofInt (-magnitude)))
      else (float n).map .numberFloat
    else
      if magnitude < 2 ^ 64 then some (.numberUnsigned (UInt64.ofNat magnitude))
      else (float n).map .numberFloat
  else (float n).map .numberFloat

mutual
/-- The value of a document, `none` where the library refuses it. -/
def ofJson : Json → Option Value
  | .null => some .null
  | .bool b => some (.boolean b)
  | .num n => ofNumber float n
  | .str s => if validUtf8 s then some (.string s) else none
  | .arr xs => (ofElements xs).map .array
  | .obj ms => (ofMembers ms).map fun vs => .object (build vs)
def ofElements : List Json → Option (List Value)
  | [] => some []
  | x :: xs => (ofJson x).bind fun v => (ofElements xs).map fun vs => v :: vs
def ofMembers : List (Bytes × Json) → Option Members
  | [] => some []
  | (k, x) :: ms =>
      if validUtf8 k then
        (ofJson x).bind fun v => (ofMembers ms).map fun vs => (k, v) :: vs
      else none
end

/-- `json::parse` with exceptions off reads JSON text correctly. -/
def ReadsJson (parse : Bytes → Value) : Prop :=
  ∀ t v w, Text v t → ofJson float v = some w → parse t = w

/-- A parser that does: the reader of the grammar, then the library's values. -/
def referenceParse (t : Bytes) : Value := ((readText t).bind (ofJson float)).getD .discarded

theorem readsJson_referenceParse : ReadsJson float (referenceParse float) := by
  intro t v w ht hw
  rw [referenceParse, readText_of_text ht, Option.bind_some, hw]
  rfl

theorem ofNumber_ofNat {n : ℕ} (h : n < 2 ^ 64) :
    ofNumber float (.ofNat n) = some (.numberUnsigned (UInt64.ofNat n)) := by
  simpa [ofNumber, Number.ofNat, natOfDigits_decimal] using h

end

end Nlohmann

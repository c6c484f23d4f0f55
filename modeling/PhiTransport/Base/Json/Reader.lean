import PhiTransport.Base.Json.Grammar
import Mathlib.Data.List.TakeWhile

/-!
# An executable JSON reader

The reader is a recursive descent over bytes with fuel for nesting; `readText`
supplies enough of it. Completeness ties it to the grammar: a text the grammar
derives is read, and read as the value it spells (`readText_of_text`). Since
the reader is a function, the grammar is unambiguous (`text_unique`).

Lists are read by one loop, `readTail`, whatever the items are, so completeness
is proved for it once, against `ListText`, and used for arrays and objects.
-/

namespace Rfc8259

open Octets

/-! ## The reader -/

def skipWs (t : Bytes) : Bytes := t.dropWhile isWs

/-- The units of a literal up to its closing quote, and what follows it. -/
def readUnits : Bytes → Option (List CharUnit × Bytes)
  | [] => none
  | b :: t =>
      if b = quote then some ([], t)
      else if b = backslash then
        match t with
        | [] => none
        | c :: t =>
            if c = letterU then
              match t with
              | h :: i :: j :: k :: t =>
                  (hexQuad h i j k).bind fun x =>
                    (readUnits t).map fun p => (.code x :: p.1, p.2)
              | _ => none
            else
              (escapeByte c).bind fun e =>
                (readUnits t).map fun p => (.byte e :: p.1, p.2)
      else if isUnescaped b then (readUnits t).map fun p => (.byte b :: p.1, p.2)
      else none

/-- A string literal from its opening quote on. -/
def readString : Bytes → Option (Bytes × Bytes)
  | [] => none
  | b :: t => if b = quote then (readUnits t).map fun p => (decode p.1, p.2) else none

def readMinus : Bytes → Bool × Bytes
  | [] => (false, [])
  | b :: t => if b = 0x2D then (true, t) else (false, b :: t)

/-- A run of digits, possibly empty. -/
def readDigits (t : Bytes) : { ds : Bytes // Digits ds } × Bytes :=
  (⟨t.takeWhile isDigit, fun _ hb => List.mem_takeWhile_imp hb⟩, t.dropWhile isDigit)

def readFrac : Bytes → Option ({ ds : Bytes // Digits ds } × Bytes)
  | [] => some (⟨[], digits_nil⟩, [])
  | b :: t =>
      if b = 0x2E then
        if (readDigits t).1.1 = [] then none else some (readDigits t)
      else some (⟨[], digits_nil⟩, b :: t)

def readSign : Bytes → Option Bool × Bytes
  | [] => (none, [])
  | b :: t =>
      if b = 0x2D then (some true, t)
      else if b = 0x2B then (some false, t)
      else (none, b :: t)

def readExp : Bytes → Option (Option Exponent × Bytes)
  | [] => some (none, [])
  | b :: t =>
      if b = 0x45 ∨ b = 0x65 then
        let s := readSign t
        let d := readDigits s.2
        if h : d.1.1 ≠ [] then some (some ⟨b = 0x45, s.1, d.1.1, h, d.1.2⟩, d.2)
        else none
      else some (none, b :: t)

def readNumber (t : Bytes) : Option (Number × Bytes) :=
  let m := readMinus t
  let i := readDigits m.2
  if hi : IntPart i.1.1 then
    (readFrac i.2).bind fun f =>
      (readExp f.2).map fun e => (⟨m.1, i.1.1, f.1.1, e.1, hi, f.1.2⟩, e.2)
  else none

/-- A fixed word, for the three literal names. -/
def readWord (word : Bytes) (v : Json) (t : Bytes) : Option (Json × Bytes) :=
  if t.take word.length = word then some (v, t.drop word.length) else none

section Lists

variable {α : Type}

/-- `item` with the whitespace around it. -/
def readPadded (item : Bytes → Option (α × Bytes)) (t : Bytes) : Option (α × Bytes) :=
  (item (skipWs t)).map fun p => (p.1, skipWs p.2)

/-- The rest of a list after an item, up to and including `close`. -/
def readTail (item : Bytes → Option (α × Bytes)) (close : UInt8) :
    ℕ → Bytes → Option (List α × Bytes)
  | 0, _ => none
  | _ + 1, [] => none
  | n + 1, b :: t =>
      if b = close then some ([], t)
      else if b = comma then
        (item t).bind fun p => (readTail item close n p.2).map fun q => (p.1 :: q.1, q.2)
      else none

/-- A list after its opening bracket, up to and including `close`. -/
def readList (item : Bytes → Option (α × Bytes)) (close : UInt8) (n : ℕ) (t : Bytes) :
    Option (List α × Bytes) :=
  match skipWs t with
  | [] => none
  | b :: u =>
      if b = close then some ([], u)
      else (item t).bind fun p => (readTail item close n p.2).map fun q => (p.1 :: q.1, q.2)

end Lists

def readMember (value : Bytes → Option (Json × Bytes)) (t : Bytes) :
    Option ((Bytes × Json) × Bytes) :=
  (readPadded readString t).bind fun p =>
    match p.2 with
    | [] => none
    | b :: u =>
        if b = colon then (readPadded value u).map fun q => ((p.1, q.1), q.2) else none

def readValue : ℕ → Bytes → Option (Json × Bytes)
  | 0, _ => none
  | _ + 1, [] => none
  | n + 1, b :: t =>
      if b = quote then (readString (b :: t)).map fun p => (.str p.1, p.2)
      else if b = lbracket then
        (readList (readPadded (readValue n)) rbracket n t).map fun p => (.arr p.1, p.2)
      else if b = lbrace then
        (readList (readMember (readValue n)) rbrace n t).map fun p => (.obj p.1, p.2)
      else if b = 0x6E then readWord (ascii "null") .null (b :: t)
      else if b = 0x74 then readWord (ascii "true") (.bool true) (b :: t)
      else if b = 0x66 then readWord (ascii "false") (.bool false) (b :: t)
      else (readNumber (b :: t)).map fun p => (.num p.1, p.2)

/-- The document `t` is, `none` when it is not JSON text. -/
def readText (t : Bytes) : Option Json :=
  (readPadded (readValue (t.length + 1)) t).bind fun p => if p.2 = [] then some p.1 else none

/-! ## What may follow a text

A number ends where no further byte can belong to it; a padded text ends at
one of the punctuation bytes that close it, or at the end of the input. -/

/-- `t` does not start with a byte of the class `p`. -/
def HeadNot (p : UInt8 → Bool) (t : Bytes) : Prop := ∀ b ∈ t.head?, p b = false

def isNumberByte (b : UInt8) : Bool := isDigit b || b == 0x2E || b == 0x45 || b == 0x65

def isCloser (b : UInt8) : Bool := b == comma || b == colon || b == rbracket || b == rbrace

def Closed (t : Bytes) : Prop := ∀ b ∈ t.head?, isCloser b = true

theorem headNot_nil (p : UInt8 → Bool) : HeadNot p [] := by simp [HeadNot]

theorem headNot_cons {p : UInt8 → Bool} {b : UInt8} {t : Bytes} :
    HeadNot p (b :: t) ↔ p b = false := by simp [HeadNot]

theorem closed_nil : Closed [] := by simp [Closed]

theorem closed_cons {b : UInt8} {t : Bytes} : Closed (b :: t) ↔ isCloser b = true := by
  simp [Closed]

theorem isCloser_cases {b : UInt8} (h : isCloser b = true) :
    b = comma ∨ b = colon ∨ b = rbracket ∨ b = rbrace := by
  simpa [isCloser, or_assoc] using h

theorem not_ws_of_closer {b : UInt8} (h : isCloser b = true) : isWs b = false := by
  rcases isCloser_cases h with rfl | rfl | rfl | rfl <;> rfl

theorem not_numberByte_of_closer {b : UInt8} (h : isCloser b = true) :
    isNumberByte b = false := by
  rcases isCloser_cases h with rfl | rfl | rfl | rfl <;> rfl

theorem isWs_cases {b : UInt8} (h : isWs b = true) :
    b = 0x20 ∨ b = 0x09 ∨ b = 0x0A ∨ b = 0x0D := by
  simpa [isWs, or_assoc] using h

theorem not_numberByte_of_ws {b : UInt8} (h : isWs b = true) : isNumberByte b = false := by
  rcases isWs_cases h with rfl | rfl | rfl | rfl <;> rfl

theorem Closed.headNot_ws {t : Bytes} (h : Closed t) : HeadNot isWs t :=
  fun b hb => not_ws_of_closer (h b hb)

/-- After trailing whitespace and a closing byte no number goes on. -/
theorem headNot_number_append {w r : Bytes} (hw : Blank w) (hr : Closed r) :
    HeadNot isNumberByte (w ++ r) := by
  cases w with
  | nil => exact fun b hb => not_numberByte_of_closer (hr b hb)
  | cons b w => exact headNot_cons.mpr (not_numberByte_of_ws (hw b List.mem_cons_self))

theorem skipWs_append {w t : Bytes} (hw : Blank w) (ht : HeadNot isWs t) :
    skipWs (w ++ t) = t := by
  rw [skipWs, List.dropWhile_append_of_pos hw]
  cases t with
  | nil => rfl
  | cons b t => rw [List.dropWhile_cons_of_neg (by simp [headNot_cons.mp ht])]

theorem skipWs_blank {w : Bytes} (hw : Blank w) : skipWs w = [] := by
  simpa using skipWs_append hw (headNot_nil isWs)

/-! ## Completeness: strings -/

theorem unescaped_iff {b : UInt8} :
    isUnescaped b = true ↔ 0x20 ≤ b ∧ b ≠ quote ∧ b ≠ backslash := by
  simp [isUnescaped, and_assoc]

theorem readUnits_quote (t : Bytes) : readUnits (quote :: t) = some ([], t) := by
  rw [readUnits.eq_def]
  exact if_pos rfl

theorem readUnits_plain {b : UInt8} (h : isUnescaped b = true) (t : Bytes) :
    readUnits (b :: t) = (readUnits t).map fun p => (.byte b :: p.1, p.2) := by
  have hne := unescaped_iff.mp h
  rw [readUnits.eq_def]
  simp only [if_neg hne.2.1, if_neg hne.2.2, if_pos h]

theorem readUnits_escape {c e : UInt8} (h : escapeByte c = some e) (t : Bytes) :
    readUnits (backslash :: c :: t) = (readUnits t).map fun p => (.byte e :: p.1, p.2) := by
  have hu : c ≠ letterU := by
    rintro rfl
    have hnone : escapeByte letterU = none := by decide
    exact absurd (hnone.symm.trans h) (by simp)
  have hq : backslash ≠ quote := by decide
  rw [readUnits.eq_def]
  simp only [if_neg hq, if_pos, if_neg hu, h, Option.bind_some]

theorem readUnits_unicode {h i j k : UInt8} {x : ℕ} (hx : hexQuad h i j k = some x)
    (t : Bytes) : readUnits (backslash :: letterU :: h :: i :: j :: k :: t) =
      (readUnits t).map fun p => (.code x :: p.1, p.2) := by
  have hq : backslash ≠ quote := by decide
  rw [readUnits.eq_def]
  simp only [if_neg hq, if_pos, hx, Option.bind_some]

theorem readUnits_of_unitsText (r : Bytes) {us : List CharUnit} {u : Bytes}
    (h : UnitsText us u) : readUnits (u ++ quote :: r) = some (us, r) := by
  induction us generalizing u with
  | nil =>
      rw [UnitsText] at h
      rw [h, List.nil_append, readUnits_quote]
  | cons x us ih =>
      obtain ⟨a, b, rfl, ha, hb⟩ := h
      rw [List.append_assoc]
      cases ha with
      | plain hc =>
          rw [List.singleton_append, readUnits_plain hc, ih hb]
          rfl
      | escape he =>
          rw [List.cons_append, List.singleton_append, readUnits_escape he, ih hb]
          rfl
      | unicode hx =>
          simp only [List.cons_append, List.nil_append]
          rw [readUnits_unicode hx, ih hb]
          rfl

/-- A reader started on a string literal stops exactly at its end. -/
theorem readString_of_stringText {s t : Bytes} (h : StringText s t) (r : Bytes) :
    readString (t ++ r) = some (s, r) := by
  obtain ⟨us, u, rfl, hu, rfl⟩ := h
  have hunits := readUnits_of_unitsText r hu
  simp only [List.cons_append, List.append_assoc, readString, if_pos]
  rw [List.nil_append, hunits]
  rfl

/-! ## Completeness: numbers -/

theorem digit_ne {b : UInt8} (h : isDigit b = true) :
    b ≠ 0x2D ∧ b ≠ 0x2B ∧ b ≠ 0x2E ∧ b ≠ 0x45 ∧ b ≠ 0x65 := by
  refine ⟨?_, ?_, ?_, ?_, ?_⟩ <;> rintro rfl <;> exact absurd h (by decide)

theorem HeadNot.digit {t : Bytes} (h : HeadNot isNumberByte t) : HeadNot isDigit t := by
  intro b hb
  have := h b hb
  simp only [isNumberByte, Bool.or_eq_false_iff] at this
  exact this.1.1.1

theorem numberByte_ne {b : UInt8} (h : isNumberByte b = false) :
    b ≠ 0x2E ∧ b ≠ 0x45 ∧ b ≠ 0x65 := by
  simp only [isNumberByte, Bool.or_eq_false_iff, beq_eq_false_iff_ne] at h
  exact ⟨h.1.1.2, h.1.2, h.2⟩

theorem readDigits_append {ds t : Bytes} (hd : Digits ds) (ht : HeadNot isDigit t) :
    readDigits (ds ++ t) = (⟨ds, hd⟩, t) := by
  have hstop : t.takeWhile isDigit = [] ∧ t.dropWhile isDigit = t := by
    cases t with
    | nil => exact ⟨rfl, rfl⟩
    | cons b t =>
        have hb : ¬isDigit b = true := by simp [headNot_cons.mp ht]
        rw [List.takeWhile_cons_of_neg hb, List.dropWhile_cons_of_neg hb]
        exact ⟨rfl, rfl⟩
  simp only [readDigits, List.takeWhile_append_of_pos hd, List.dropWhile_append_of_pos hd,
    hstop.1, hstop.2, List.append_nil]

theorem readMinus_append {minus : Bool} {t : Bytes} (ht : HeadNot (· == 0x2D) t) :
    readMinus ((if minus then [0x2D] else []) ++ t) = (minus, t) := by
  cases minus with
  | true => simp [readMinus]
  | false =>
      cases t with
      | nil => rfl
      | cons b t =>
          have hb : b ≠ 0x2D := by simpa using headNot_cons.mp ht
          simp [readMinus, hb]

theorem readFrac_append {frac t : Bytes} (hf : Digits frac)
    (ht : HeadNot (fun b => isDigit b || b == 0x2E) t) :
    readFrac (fracText frac ++ t) = some (⟨frac, hf⟩, t) := by
  unfold fracText
  by_cases hnil : frac = []
  · subst hnil
    cases t with
    | nil => rfl
    | cons b t =>
        have hb : b ≠ 0x2E := by
          have := headNot_cons.mp ht
          simp only [Bool.or_eq_false_iff, beq_eq_false_iff_ne] at this
          exact this.2
        simp [readFrac, hb]
  · have hd : HeadNot isDigit t := fun b hb => by
      have := ht b hb
      rw [Bool.or_eq_false_iff] at this
      exact this.1
    rw [if_neg hnil, List.cons_append, readFrac, if_pos rfl, readDigits_append hf hd,
      if_neg hnil]

theorem readSign_append {sign : Option Bool} {t : Bytes}
    (ht : HeadNot (fun b => b == 0x2D || b == 0x2B) t) :
    readSign (signText sign ++ t) = (sign, t) := by
  rcases sign with _ | (_ | _)
  · cases t with
    | nil => rfl
    | cons b t =>
        have hb := headNot_cons.mp ht
        simp only [Bool.or_eq_false_iff, beq_eq_false_iff_ne] at hb
        simp [readSign, signText, hb.1, hb.2]
  · simp [readSign, signText]
  · simp [readSign, signText]

theorem readExp_append {exp : Option Exponent} {t : Bytes} (ht : HeadNot isNumberByte t) :
    readExp (expText exp ++ t) = some (exp, t) := by
  cases exp with
  | none =>
      cases t with
      | nil => rfl
      | cons b t =>
          have hb := numberByte_ne (headNot_cons.mp ht)
          simp [readExp, expText, hb.2.1, hb.2.2]
  | some e =>
      obtain ⟨upper, sign, digits, hne, hd⟩ := e
      have hsign : readSign (signText sign ++ (digits ++ t)) = (sign, digits ++ t) := by
        apply readSign_append
        cases digits with
        | nil => exact absurd rfl hne
        | cons b ds =>
            have hb := digit_ne (hd b List.mem_cons_self)
            exact headNot_cons.mpr (by simp [hb.1, hb.2.1])
      have hdig := readDigits_append hd ht.digit
      cases upper <;>
        simp [expText, Exponent.text, readExp, hsign, hdig, hne]

/-- A number literal is read whole when no byte after it could belong to it. -/
theorem readNumber_text (n : Number) {r : Bytes} (hr : HeadNot isNumberByte r) :
    readNumber (n.text ++ r) = some (n, r) := by
  obtain ⟨minus, int, frac, exp, hint, hfrac⟩ := n
  -- each part stops because the next one starts with none of its bytes
  have hexp : HeadNot (fun b => isDigit b || b == 0x2E) (expText exp ++ r) := by
    cases exp with
    | none =>
        intro b hb
        have hnum := hr b hb
        have hdot := (numberByte_ne hnum).1
        simp [HeadNot.digit hr b hb, hdot]
    | some e =>
        obtain ⟨upper, _, _, _⟩ := e
        cases upper <;> exact headNot_cons.mpr rfl
  have hdig : HeadNot isDigit (fracText frac ++ (expText exp ++ r)) := by
    unfold fracText
    by_cases hnil : frac = []
    · rw [if_pos hnil]
      intro b hb
      have := hexp b hb
      rw [Bool.or_eq_false_iff] at this
      exact this.1
    · rw [if_neg hnil]
      exact headNot_cons.mpr rfl
  have hminus : HeadNot (· == 0x2D) (int ++ (fracText frac ++ (expText exp ++ r))) := by
    cases int with
    | nil => exact absurd rfl hint.1
    | cons b ds => exact headNot_cons.mpr (by simp [(digit_ne (hint.2.1 b List.mem_cons_self)).1])
  simp only [Number.text, List.append_assoc, readNumber, readMinus_append hminus,
    readDigits_append hint.2.1 hdig, dif_pos hint, readFrac_append hfrac hexp,
    readExp_append hr, Option.bind_some, Option.map_some]

/-! ## Completeness: lists and values -/

section Lists

variable {α : Type} {P : α → Bytes → Prop} {item : Bytes → Option (α × Bytes)}

/-- `item` reads every text of `x` up to the length `n`, whatever closes it. -/
def Reads (P : α → Bytes → Prop) (item : Bytes → Option (α × Bytes)) (n : ℕ) (x : α) : Prop :=
  ∀ a r, P x a → a.length < n → Closed r → item (a ++ r) = some (x, r)

theorem readPadded_append {Q : Bytes → Prop} {x : α} {n : ℕ} {a r : Bytes}
    (hitem : ∀ u r, Q u → u.length < n → HeadNot isNumberByte r →
      item (u ++ r) = some (x, r))
    (hstart : ∀ u, Q u → ∃ b t, u = b :: t ∧ isWs b = false)
    (ha : Padded Q a) (hn : a.length < n) (hr : Closed r) :
    readPadded item (a ++ r) = some (x, r) := by
  obtain ⟨w, u, w', rfl, hw, hu, hw'⟩ := ha
  have hskip : skipWs (w ++ u ++ w' ++ r) = u ++ (w' ++ r) := by
    obtain ⟨b, t, rfl, hb⟩ := hstart u hu
    rw [List.append_assoc, List.append_assoc]
    exact skipWs_append hw (headNot_cons.mpr hb)
  have hread := hitem u (w' ++ r) hu (by simp only [List.length_append] at hn; omega)
    (headNot_number_append hw' hr)
  rw [readPadded, hskip, hread, Option.map_some, skipWs_append hw' hr.headNot_ws]

/-- The rest of a list starts with a comma or is empty. -/
theorem closed_of_tailText {xs : List α} {b : Bytes} (h : TailText P xs b) : Closed b := by
  cases xs with
  | nil =>
      rw [TailText] at h
      rw [h]
      exact closed_nil
  | cons y ys =>
      obtain ⟨c, d, rfl, -, -⟩ := h
      exact closed_cons.mpr rfl

/-- After an item comes a comma or the closing bracket, never more of the item. -/
theorem closed_tail_append {close : UInt8} (hclose : isCloser close = true) {xs : List α}
    {b : Bytes} (hb : TailText P xs b) (r : Bytes) : Closed (b ++ close :: r) := by
  cases b with
  | nil => exact closed_cons.mpr hclose
  | cons c b => exact closed_cons.mpr (closed_cons.mp (closed_of_tailText hb))

theorem readTail_append {close : UInt8} (hclose : isCloser close = true) (hne : close ≠ comma)
    {N : ℕ} (r : Bytes) {xs : List α} {t : Bytes} {n : ℕ} (ht : TailText P xs t)
    (hn : t.length < n) (hN : t.length ≤ N) (hitem : ∀ x ∈ xs, Reads P item N x) :
    readTail item close n (t ++ close :: r) = some (xs, r) := by
  -- every turn of the loop spends one unit of fuel and at least a comma of text
  induction xs generalizing t n with
  | nil =>
      rw [TailText] at ht
      subst ht
      obtain ⟨n, rfl⟩ := Nat.exists_eq_succ_of_ne_zero (Nat.ne_of_gt hn)
      rw [List.nil_append, readTail, if_pos rfl]
  | cons x xs ih =>
      obtain ⟨a, b, rfl, ha, hb⟩ := ht
      obtain ⟨n, rfl⟩ := Nat.exists_eq_succ_of_ne_zero
        (Nat.ne_of_gt (Nat.lt_of_le_of_lt (Nat.zero_le _) hn))
      simp only [List.length_append, List.length_cons] at hn hN
      have hfollow := closed_tail_append hclose hb r
      have hx := hitem x List.mem_cons_self a (b ++ close :: r) ha (by omega) hfollow
      have hxs : readTail item close n (b ++ close :: r) = some (xs, r) := by
        apply ih hb (by omega) (by omega)
        intro y hy
        exact hitem y (List.mem_cons_of_mem _ hy)
      simp only [List.cons_append, List.append_assoc]
      rw [readTail, if_neg (Ne.symm hne), if_pos rfl, hx, Option.bind_some, hxs]
      rfl

theorem readList_append {close : UInt8} (hclose : isCloser close = true) (hne : close ≠ comma)
    {N : ℕ} {xs : List α} {t r : Bytes} (ht : ListText P xs t) (hN : t.length < N)
    (hitem : ∀ x ∈ xs, Reads P item N x)
    (hstart : ∀ x ∈ xs, ∀ a, P x a → ∀ r, ∃ b u, skipWs (a ++ r) = b :: u ∧ b ≠ close) :
    readList item close N (t ++ close :: r) = some (xs, r) := by
  cases xs with
  | nil =>
      rw [readList, skipWs_append ht (headNot_cons.mpr (not_ws_of_closer hclose))]
      exact if_pos rfl
  | cons x xs =>
      obtain ⟨a, b, rfl, ha, hb⟩ := ht
      rw [List.length_append] at hN
      have hfollow := closed_tail_append hclose hb r
      have hx := hitem x List.mem_cons_self a (b ++ close :: r) ha (by omega) hfollow
      have hxs : readTail item close N (b ++ close :: r) = some (xs, r) := by
        apply readTail_append (N := N) hclose hne r hb (by omega) (by omega)
        intro y hy
        exact hitem y (List.mem_cons_of_mem _ hy)
      obtain ⟨c, u, hc, hcc⟩ := hstart x List.mem_cons_self a ha (b ++ close :: r)
      rw [List.append_assoc, readList, hc]
      simp only [if_neg hcc, hx, hxs, Option.bind_some, Option.map_some]

end Lists

theorem number_start (n : Number) :
    ∃ b u, n.text = b :: u ∧ (b = 0x2D ∨ isDigit b = true) := by
  obtain ⟨minus, int, frac, exp, hint, hfrac⟩ := n
  cases minus with
  | true => exact ⟨_, _, rfl, Or.inl rfl⟩
  | false =>
      cases int with
      | nil => exact absurd rfl hint.1
      | cons b ds => exact ⟨b, _, rfl, Or.inr (hint.2.1 b List.mem_cons_self)⟩

/-- Every value text starts with a byte that neither is whitespace nor closes a list. -/
theorem spells_start {v : Json} {t : Bytes} (h : Spells v t) :
    ∃ b u, t = b :: u ∧ isWs b = false ∧ isCloser b = false := by
  cases v with
  | null =>
      rw [Spells] at h
      exact ⟨_, _, h, rfl, rfl⟩
  | bool b =>
      rw [Spells] at h
      cases b
      · exact ⟨_, _, h, rfl, rfl⟩
      · exact ⟨_, _, h, rfl, rfl⟩
  | num n =>
      rw [Spells] at h
      obtain ⟨b, u, hbu, hb⟩ := number_start n
      refine ⟨b, u, h.trans hbu, ?_, ?_⟩
      · by_contra hws
        rw [Bool.not_eq_false] at hws
        rcases isWs_cases hws with rfl | rfl | rfl | rfl <;> exact absurd hb (by decide)
      · by_contra hcl
        rw [Bool.not_eq_false] at hcl
        rcases isCloser_cases hcl with rfl | rfl | rfl | rfl <;> exact absurd hb (by decide)
  | str s =>
      rw [Spells] at h
      obtain ⟨us, u, rfl, -, -⟩ := h
      exact ⟨_, _, rfl, rfl, rfl⟩
  | arr xs =>
      obtain ⟨b, rfl, -⟩ := spells_arr.mp h
      exact ⟨_, _, rfl, rfl, rfl⟩
  | obj ms =>
      obtain ⟨b, rfl, -⟩ := spells_obj.mp h
      exact ⟨_, _, rfl, rfl, rfl⟩

/-- The first byte of a padded text after its whitespace. -/
theorem skipWs_text {v : Json} {a : Bytes} (h : Text v a) (r : Bytes) :
    ∃ b u, skipWs (a ++ r) = b :: u ∧ isCloser b = false := by
  obtain ⟨w, u, w', rfl, hw, hu, hw'⟩ := h
  obtain ⟨b, t, rfl, hb, hc⟩ := spells_start hu
  refine ⟨b, t ++ (w' ++ r), ?_, hc⟩
  rw [List.append_assoc, List.append_assoc]
  exact skipWs_append hw (headNot_cons.mpr hb)

theorem skipWs_member {m : Bytes × Json} {a : Bytes} (h : MemberText m a) (r : Bytes) :
    ∃ b u, skipWs (a ++ r) = b :: u ∧ isCloser b = false := by
  obtain ⟨p, q, rfl, ⟨w, u, w', rfl, hw, ⟨us, body, rfl, -, -⟩, -⟩, -⟩ := h
  simp only [List.append_assoc, List.cons_append]
  exact ⟨quote, _, skipWs_append hw (headNot_cons.mpr rfl), rfl⟩

/-- The key of a member is read up to its colon. -/
theorem readPadded_key {key a : Bytes} (ha : Padded (StringText key) a) (r : Bytes) :
    readPadded readString (a ++ colon :: r) = some (key, colon :: r) := by
  apply readPadded_append _ _ ha (Nat.lt_succ_self _) (closed_cons.mpr rfl)
  · intro u r hu _ _
    exact readString_of_stringText hu r
  · rintro u ⟨us, b, rfl, -, -⟩
    exact ⟨_, _, rfl, rfl⟩

theorem readMember_append {value : Bytes → Option (Json × Bytes)} {n : ℕ}
    {m : Bytes × Json} {a r : Bytes}
    (hvalue : Reads Text (readPadded value) n m.2)
    (ha : MemberText m a) (hn : a.length < n) (hr : Closed r) :
    readMember value (a ++ r) = some (m, r) := by
  obtain ⟨p, q, rfl, hp, hq⟩ := ha
  simp only [List.length_append, List.length_cons] at hn
  have hkey := readPadded_key hp (q ++ r)
  have hval := hvalue q r hq (by omega) hr
  rw [List.append_assoc, List.cons_append, readMember, hkey]
  simp only [Option.bind_some, if_pos, hval, Option.map_some]

theorem readWord_append (word : Bytes) (v : Json) (r : Bytes) :
    readWord word v (word ++ r) = some (v, r) := by
  simp [readWord]

theorem readValue_number {b : UInt8} (h : b = 0x2D ∨ isDigit b = true) (n : ℕ) (t : Bytes) :
    readValue (n + 1) (b :: t) = (readNumber (b :: t)).map fun p => (.num p.1, p.2) := by
  have hne : ∀ c : UInt8, c ≠ 0x2D → isDigit c = false → b ≠ c := by
    rintro c hc hdig rfl
    rcases h with h | h
    · exact hc h
    · exact Bool.false_ne_true (hdig.symm.trans h)
  rw [readValue, if_neg (hne quote (by decide) rfl), if_neg (hne lbracket (by decide) rfl),
    if_neg (hne lbrace (by decide) rfl), if_neg (hne 0x6E (by decide) rfl),
    if_neg (hne 0x74 (by decide) rfl), if_neg (hne 0x66 (by decide) rfl)]

/-- One level of fuel reads a value whose text is shorter than the fuel. -/
def ReadsValue (v : Json) : Prop := ∀ (n : ℕ) (t r : Bytes), Spells v t → t.length ≤ n →
  HeadNot isNumberByte r → readValue (n + 1) (t ++ r) = some (v, r)

/-- The whitespace around a value is skipped on both sides of it. -/
theorem ReadsValue.text {v : Json} (hv : ReadsValue v) (n : ℕ) :
    Reads Text (readPadded (readValue n)) n v := by
  intro a r ha hn hr
  obtain ⟨n, rfl⟩ := Nat.exists_eq_succ_of_ne_zero (Nat.ne_of_gt (Nat.zero_lt_of_lt hn))
  apply readPadded_append _ _ ha hn hr
  · intro u r hu hl hr
    exact hv n u r hu (Nat.le_of_lt_succ hl) hr
  · intro u hu
    obtain ⟨b, t, rfl, hb, -⟩ := spells_start hu
    exact ⟨b, t, rfl, hb⟩

theorem readValue_of_spells (v : Json) : ReadsValue v := by
  -- the fuel drops by one a level and a nested text is shorter by its brackets
  induction v using Json.ind with
  | null =>
      intro n t r ht hn hr
      rw [Spells] at ht
      subst ht
      exact readWord_append (ascii "null") .null r
  | bool b =>
      intro n t r ht hn hr
      rw [Spells] at ht
      subst ht
      cases b
      · exact readWord_append (ascii "false") (.bool false) r
      · exact readWord_append (ascii "true") (.bool true) r
  | num m =>
      intro n t r ht hn hr
      rw [Spells] at ht
      subst ht
      have hread := readNumber_text m hr
      obtain ⟨b, u, hbu, hb⟩ := number_start m
      rw [hbu, List.cons_append] at hread ⊢
      rw [readValue_number hb, hread]
      rfl
  | str s =>
      intro n t r ht hn hr
      rw [Spells] at ht
      have hread := readString_of_stringText ht r
      obtain ⟨us, u, rfl, -, -⟩ := ht
      simp only [List.cons_append] at hread ⊢
      rw [readValue, if_pos rfl, hread]
      rfl
  | arr xs ih =>
      intro n t r ht hn hr
      obtain ⟨b, rfl, hb⟩ := spells_arr.mp ht
      simp only [List.length_append, List.length_cons, List.length_nil] at hn
      have hlist : readList (readPadded (readValue n)) rbracket n (b ++ rbracket :: r) =
          some (xs, r) := by
        apply readList_append rfl (by decide) hb (by omega)
        · intro x hx
          exact (ih x hx).text n
        · intro x hx a ha r
          obtain ⟨c, u, hc, hcl⟩ := skipWs_text ha r
          exact ⟨c, u, hc, by rintro rfl; exact absurd hcl (by decide)⟩
      simp only [List.cons_append, List.append_assoc, List.nil_append]
      rw [readValue, if_neg (by decide), if_pos rfl, hlist]
      rfl
  | obj ms ih =>
      intro n t r ht hn hr
      obtain ⟨b, rfl, hb⟩ := spells_obj.mp ht
      simp only [List.length_append, List.length_cons, List.length_nil] at hn
      have hlist : readList (readMember (readValue n)) rbrace n (b ++ rbrace :: r) =
          some (ms, r) := by
        apply readList_append rfl (by decide) hb (by omega)
        · intro m hm a r ha hl hr
          exact readMember_append ((ih m hm).text n) ha hl hr
        · intro m hm a ha r
          obtain ⟨c, u, hc, hcl⟩ := skipWs_member ha r
          exact ⟨c, u, hc, by rintro rfl; exact absurd hcl (by decide)⟩
      simp only [List.cons_append, List.append_assoc, List.nil_append]
      rw [readValue, if_neg (by decide), if_neg (by decide), if_pos rfl, hlist]
      rfl

/-- **Completeness.** JSON text is read as the value it spells. -/
theorem readText_of_text {v : Json} {t : Bytes} (h : Text v t) : readText t = some v := by
  have hread : readPadded (readValue (t.length + 1)) (t ++ []) = some (v, []) :=
    (readValue_of_spells v).text _ t [] h (Nat.lt_succ_self _) closed_nil
  rw [List.append_nil] at hread
  rw [readText, hread]
  rfl

/-- **Unambiguity.** A byte string is the text of at most one value. -/
theorem text_unique {v v' : Json} {t : Bytes} (h : Text v t) (h' : Text v' t) : v = v' :=
  Option.some.inj ((readText_of_text h).symm.trans (readText_of_text h'))

/-- Object text has one member list. -/
theorem objectText_only {ms : List (Bytes × Json)} {t : Bytes} (h : ObjectText ms t)
    (ms' : List (Bytes × Json)) : ObjectText ms' t ↔ ms' = ms := by
  constructor
  · intro h'
    exact Json.obj.inj (text_unique h' h)
  · rintro rfl
    exact h

end Rfc8259

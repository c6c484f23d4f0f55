import PhiTransport.Base.Dump
import PhiTransport.Base.Utf8
import PhiTransport.Base.Json.Members
import PhiTransport.Base.Json.Splitting

/-!
# What a document holds

Two views of one object meet here: the member list a client reads, where the
last occurrence of a key counts, and the map the library builds
(`lookup_build_ofMembers`). A document's members are documents again, its
strings are UTF-8, and so is any text of it (`validUtf8_of_text`): the strings
are the only place where a byte outside ASCII can stand.
-/

namespace Nlohmann

open Octets Rfc8259

/-! ## Members -/

section

variable {float : Number → Option Binary64}

theorem mem_of_lastValue {key : Bytes} {ms : List (Bytes × Json)} {j : Json}
    (h : lastValue key ms = some j) : (key, j) ∈ ms := by
  induction ms with
  | nil => cases h
  | cons m ms ih =>
      rcases m with ⟨k, i⟩
      rw [lastValue, Option.or_eq_some_iff] at h
      rcases h with h | ⟨-, h⟩
      · exact List.mem_cons_of_mem _ (ih h)
      · split_ifs at h with hkey
        rw [hkey, ← Option.some.inj h]
        exact List.mem_cons_self

/-- A list the library reads is one whose every key is UTF-8 and whose every
value it reads. -/
theorem ofMembers_cons_eq {k : Bytes} {j : Json} {js : List (Bytes × Json)} {vs : Members}
    (h : ofMembers float ((k, j) :: js) = some vs) :
    validUtf8 k = true ∧ ∃ v us, ofJson float j = some v ∧ ofMembers float js = some us ∧
      vs = (k, v) :: us := by
  rw [ofMembers] at h
  split_ifs at h with hk
  obtain ⟨v, hv, hmap⟩ := Option.bind_eq_some_iff.mp h
  obtain ⟨us, hus, rfl⟩ := Option.map_eq_some_iff.mp hmap
  exact ⟨hk, v, us, hv, hus, rfl⟩

theorem exists_ofJson_of_mem {xs : List Json} {vs : List Value}
    (h : ofElements float xs = some vs) {x : Json} (hx : x ∈ xs) :
    ∃ v, ofJson float x = some v := by
  induction xs generalizing vs with
  | nil => cases hx
  | cons y xs ih =>
      rw [ofElements] at h
      obtain ⟨u, hu, hmap⟩ := Option.bind_eq_some_iff.mp h
      obtain ⟨us, hus, -⟩ := Option.map_eq_some_iff.mp hmap
      rcases List.mem_cons.mp hx with rfl | hx
      · exact ⟨u, hu⟩
      · exact ih hus hx

theorem isSome_ofJson_of_mem {js : List (Bytes × Json)} {vs : Members}
    (h : ofMembers float js = some vs) {m : Bytes × Json} (hm : m ∈ js) :
    validUtf8 m.1 = true ∧ ∃ v, ofJson float m.2 = some v := by
  induction js generalizing vs with
  | nil => cases hm
  | cons m' js ih =>
      rcases m' with ⟨k, j⟩
      obtain ⟨hk, v, us, hv, hus, rfl⟩ := ofMembers_cons_eq h
      rcases List.mem_cons.mp hm with rfl | hm
      · exact ⟨hk, v, hv⟩
      · exact ih hus hm

/-- The library keeps of an object what a client reads of it. -/
theorem lookup_build_ofMembers {js : List (Bytes × Json)} {vs : Members}
    (h : ofMembers float js = some vs) (key : Bytes) :
    (build vs).lookup key = (lastValue key js).bind (ofJson float) := by
  rw [lookup_build]
  induction js generalizing vs with
  | nil =>
      rw [ofMembers, Option.some.injEq] at h
      rw [← h]
      rfl
  | cons m js ih =>
      rcases m with ⟨k, j⟩
      obtain ⟨-, v, us, hv, hus, rfl⟩ := ofMembers_cons_eq h
      rw [List.reverse_cons, List.lookup_append, ih hus, lastValue]
      cases hlast : lastValue key js with
      | none =>
          by_cases hkey : k = key
          · rw [hkey, if_pos rfl, List.lookup_cons_self]
            exact hv.symm
          · rw [lookup_cons_of_ne hkey, if_neg hkey]
            rfl
      | some i =>
          obtain ⟨-, w, hw⟩ := isSome_ofJson_of_mem hus (mem_of_lastValue hlast)
          rw [Option.bind_some, hw, Option.some_or, Option.some_or, Option.bind_some, hw]

/-- The members of a document are documents. -/
theorem Document.of_lookup {ms : Members} (h : Document float (.object ms)) {key : Bytes}
    {v : Value} (hv : ms.lookup key = some v) : Document float v := by
  obtain ⟨j, hj⟩ := h
  obtain ⟨js, vs, -, hvs, rfl⟩ := ofJson_eq_object hj
  rw [lookup_build_ofMembers hvs, Option.bind_eq_some_iff] at hv
  obtain ⟨i, -, hi⟩ := hv
  exact ⟨i, hi⟩

theorem ofJson_eq_string {j : Json} {s : Bytes} (h : ofJson float j = some (.string s)) :
    j = .str s ∧ validUtf8 s = true := by
  cases j with
  | str t =>
      rw [ofJson] at h
      split_ifs at h with ht
      cases h
      exact ⟨rfl, ht⟩
  | num n =>
      rw [ofJson] at h
      rcases ofNumber_cases h with ⟨m, hm⟩ | ⟨i, hi⟩ | ⟨d, -, hd⟩
      · cases hm
      · cases hi
      · cases hd
  | null => cases h
  | bool b => cases h
  | arr xs => simp [ofJson] at h
  | obj ms => simp [ofJson] at h

/-- The strings of a document are UTF-8. -/
theorem Document.validUtf8 {s : Bytes} (h : Document float (.string s)) :
    Nlohmann.validUtf8 s = true := by
  obtain ⟨j, hj⟩ := h
  exact (ofJson_eq_string hj).2

end

/-! ## Texts of a value -/

theorem Value.Same.object {w : Value} {ns : Members} (h : w.Same (.object ns)) :
    ∃ ms, w = .object ms := by
  rw [Value.Same, Value.normal] at h
  cases w with
  | object ms => exact ⟨ms, rfl⟩
  | numberInteger i =>
      rw [Value.normal] at h
      split_ifs at h
  | _ => cases h

theorem Value.Same.string {w : Value} {s : Bytes} (h : w.normal = .string s) : w = .string s := by
  cases w with
  | string t => simpa [Value.normal] using h
  | numberInteger i =>
      rw [Value.normal] at h
      split_ifs at h
  | _ => simp [Value.normal] at h

section

variable {float : Number → Option Binary64} {dump : Value → Except Fault Bytes}

/-- What the writer makes of an object document is object text, of members that
the library reads as an object with the same members. -/
theorem WritesJson.objectText (h : WritesJson float dump) {ms : Members}
    (hdoc : Document float (.object ms)) :
    ∃ u js vs, dump (.object ms) = .ok u ∧ ObjectText js u ∧ ofMembers float js = some vs ∧
      normalMembers (build vs) = normalMembers ms := by
  obtain ⟨u, j, w, hdump, htext, hj, hsame⟩ := h.text _ hdoc
  obtain ⟨out, rfl⟩ := hsame.object
  obtain ⟨js, vs, rfl, hvs, rfl⟩ := ofJson_eq_object hj
  exact ⟨u, js, vs, hdump, htext, hvs, Value.same_object.mp hsame⟩

/-- A string member of a value is a string member of any text of it. -/
theorem lastValue_of_lookup_string {js : List (Bytes × Json)} {vs ms : Members}
    (hvs : ofMembers float js = some vs) (hsame : normalMembers (build vs) = normalMembers ms)
    {key s : Bytes} (hs : ms.lookup key = some (.string s)) :
    lastValue key js = some (.str s) := by
  have hlookup : (normalMembers (build vs)).lookup key = (normalMembers ms).lookup key := by
    rw [hsame]
  rw [lookup_normalMembers, lookup_normalMembers, hs, Option.map_some,
    Option.map_eq_some_iff] at hlookup
  obtain ⟨w, hw, hnormal⟩ := hlookup
  rw [lookup_build_ofMembers hvs, Option.bind_eq_some_iff] at hw
  obtain ⟨j, hlast, hj⟩ := hw
  rw [Value.Same.string hnormal] at hj
  rw [hlast, (ofJson_eq_string hj).1]

end

/-! ## Texts are UTF-8 -/

section

variable {a b c d : UInt8}

theorem isLead3_range (h : isLead3 a b = true) : 0xE0 ≤ a ∧ a ≤ 0xEF := by
  simp only [isLead3, within, Bool.or_eq_true, Bool.and_eq_true, beq_iff_eq, decide_eq_true_eq]
    at h
  rcases h with ((⟨rfl, -⟩ | ⟨⟨hlow, hhigh⟩, -⟩) | ⟨rfl, -⟩) | ⟨⟨hlow, hhigh⟩, -⟩
  · decide
  · exact ⟨UInt8.le_trans (by decide) hlow, UInt8.le_trans hhigh (by decide)⟩
  · decide
  · exact ⟨UInt8.le_trans (by decide) hlow, UInt8.le_trans hhigh (by decide)⟩

theorem isLead4_range (h : isLead4 a b = true) : 0xF0 ≤ a := by
  simp only [isLead4, within, Bool.or_eq_true, Bool.and_eq_true, beq_iff_eq, decide_eq_true_eq]
    at h
  rcases h with (⟨rfl, -⟩ | ⟨⟨hlow, -⟩, -⟩) | ⟨rfl, -⟩
  · decide
  · exact UInt8.le_trans (by decide) hlow
  · decide

/-- The first byte of a character says how long it is. -/
theorem validUtf8_of_two (hlow : 0x80 ≤ a) (hhigh : a < 0xE0) {t : Bytes}
    (h : validUtf8 (a :: b :: t) = true) : validUtf8 t = true := by
  have h3 : ∀ c, isLead3 a c = false := fun c => by
    rw [← Bool.not_eq_true]
    exact fun hc => UInt8.not_le.mpr hhigh (isLead3_range hc).1
  have h4 : ∀ c, isLead4 a c = false := fun c => by
    rw [← Bool.not_eq_true]
    exact fun hc => UInt8.not_le.mpr hhigh (UInt8.le_trans (by decide) (isLead4_range hc))
  unfold validUtf8 at h
  rw [if_neg (UInt8.not_lt.mpr hlow)] at h
  dsimp only at h
  split_ifs at h with hbc
  · exact h
  · rcases t with - | ⟨c, - | ⟨d, t⟩⟩ <;> simp [h3, h4] at h

theorem validUtf8_of_three (hlow : 0xE0 ≤ a) (hhigh : a < 0xF0) {t : Bytes}
    (h : validUtf8 (a :: b :: c :: t) = true) : validUtf8 t = true := by
  have h2 : within 0xC2 0xDF a = false := by
    rw [within, decide_eq_false (UInt8.not_le.mpr (UInt8.lt_of_lt_of_le (by decide) hlow)),
      Bool.and_false]
  have h4 : isLead4 a b = false := by
    rw [← Bool.not_eq_true]
    exact fun hc => UInt8.not_le.mpr hhigh (isLead4_range hc)
  have hascii : ¬a < 0x80 := UInt8.not_lt.mpr (UInt8.le_trans (by decide) hlow)
  unfold validUtf8 at h
  rw [if_neg hascii] at h
  dsimp only at h
  rw [h2, Bool.false_and, if_neg Bool.false_ne_true] at h
  split_ifs at h with hbc
  · exact h
  · rcases t with - | ⟨d, t⟩ <;> simp [h4] at h

theorem validUtf8_of_four (hlow : 0xF0 ≤ a) {t : Bytes}
    (h : validUtf8 (a :: b :: c :: d :: t) = true) : validUtf8 t = true := by
  have h2 : within 0xC2 0xDF a = false := by
    rw [within, decide_eq_false (UInt8.not_le.mpr (UInt8.lt_of_lt_of_le (by decide) hlow)),
      Bool.and_false]
  have h3 : isLead3 a b = false := by
    rw [← Bool.not_eq_true]
    exact fun hc => UInt8.not_le.mpr (UInt8.lt_of_lt_of_le (by decide) hlow) (isLead3_range hc).2
  have hascii : ¬a < 0x80 := UInt8.not_lt.mpr (UInt8.le_trans (by decide) hlow)
  unfold validUtf8 at h
  rw [if_neg hascii] at h
  simp only [h2, h3, Bool.false_and, Bool.false_eq_true, if_false, Bool.and_eq_true] at h
  exact h.2

theorem toNat_ofNat_lt {n : ℕ} (h : n < 256) : (UInt8.ofNat n).toNat = n :=
  UInt8.toNat_ofNat_of_lt' h

/-- An encoded code point is cut off as a whole. -/
theorem validUtf8_of_utf8 {x : ℕ} (hx : x < 0x200000) {t : Bytes}
    (h : validUtf8 (utf8 x ++ t) = true) : validUtf8 t = true := by
  unfold utf8 at h
  split_ifs at h with h1 h2 h3
  · rw [List.singleton_append, validUtf8_cons_ascii] at h
    · exact h
    · rw [UInt8.lt_iff_toNat_lt, toNat_ofNat_lt (by omega)]
      exact h1
  · apply validUtf8_of_two _ _ h
    · rw [UInt8.le_iff_toNat_le, toNat_ofNat_lt (by omega)]
      show 0x80 ≤ _
      omega
    · rw [UInt8.lt_iff_toNat_lt, toNat_ofNat_lt (by omega)]
      show _ < 0xE0
      omega
  · apply validUtf8_of_three _ _ h
    · rw [UInt8.le_iff_toNat_le, toNat_ofNat_lt (by omega)]
      show 0xE0 ≤ _
      omega
    · rw [UInt8.lt_iff_toNat_lt, toNat_ofNat_lt (by omega)]
      show _ < 0xF0
      omega
  · apply validUtf8_of_four _ h
    rw [UInt8.le_iff_toNat_le, toNat_ofNat_lt (by omega)]
    show 0xF0 ≤ _
    omega

/-- It starts a character, so what stands in front of it is text of its own. -/
theorem validUtf8_append_utf8 {x : ℕ} (hx : x < 0x200000) (s t : Bytes) :
    validUtf8 (s ++ (utf8 x ++ t)) = (validUtf8 s && validUtf8 (utf8 x ++ t)) := by
  have hhead : ∀ n : ℕ, n < 256 → n < 0x80 ∨ 0xC0 ≤ n → isTail (UInt8.ofNat n) = false := by
    intro n hn hout
    rw [isTail, within, Bool.and_eq_false_iff, decide_eq_false_iff_not, decide_eq_false_iff_not,
      UInt8.le_iff_toNat_le, UInt8.le_iff_toNat_le, toNat_ofNat_lt hn]
    show ¬0x80 ≤ n ∨ ¬n ≤ 0xBF
    omega
  unfold utf8
  split_ifs with h1 h2 h3
  · exact validUtf8_append_cons (hhead _ (by omega) (by omega)) _ _
  · exact validUtf8_append_cons (hhead _ (by omega) (by omega)) _ _
  · exact validUtf8_append_cons (hhead _ (by omega) (by omega)) _ _
  · exact validUtf8_append_cons (hhead _ (by omega) (by omega)) _ _

end

theorem all_ascii_of {t : Bytes} (h : ∀ b ∈ t, b < 0x80) : t.all (· < 0x80) = true := by
  rw [List.all_eq_true]
  exact fun b hb => decide_eq_true (h b hb)

theorem hexVal_lt {c : UInt8} {x : ℕ} (h : hexVal c = some x) : x < 16 := by
  unfold hexVal at h
  split_ifs at h with hdigit hlower hupper
  · rw [isDigit_iff] at hdigit
    rw [← Option.some.inj h]
    omega
  · simp only [UInt8.le_iff_toNat_le] at hlower
    have hhigh : c.toNat ≤ 0x66 := hlower.2
    rw [← Option.some.inj h]
    omega
  · simp only [UInt8.le_iff_toNat_le] at hupper
    have hhigh : c.toNat ≤ 0x46 := hupper.2
    rw [← Option.some.inj h]
    omega

theorem hexQuad_lt {i j k l : UInt8} {x : ℕ} (h : hexQuad i j k l = some x) : x < 0x10000 := by
  simp only [hexQuad, Option.bind_eq_bind, Option.bind_eq_some_iff] at h
  obtain ⟨w, hw, x, hx, y, hy, z, hz, heq⟩ := h
  have h1 := hexVal_lt hw
  have h2 := hexVal_lt hx
  have h3 := hexVal_lt hy
  have h4 := hexVal_lt hz
  rw [← Option.some.inj heq]
  omega

/-- The text of a code unit is all ASCII. -/
theorem ascii_of_unicode {x : ℕ} {u : Bytes} (h : UnitText (.code x) u) :
    u ≠ [] ∧ u.all (· < 0x80) = true ∧ x < 0x10000 := by
  cases h with
  | unicode hquad =>
      refine ⟨List.cons_ne_nil _ _, all_ascii_of ?_, hexQuad_lt hquad⟩
      intro b hb
      rcases List.mem_cons.mp hb with rfl | hb
      · decide
      rcases List.mem_cons.mp hb with rfl | hb
      · decide
      · exact (hexQuad_ascii hquad b hb).2

/-- Behind text that ends inside a character, the literal completes it where the
string it decodes to does. -/
theorem validUtf8_append_units (us : List CharUnit) :
    ∀ {u : Bytes}, UnitsText us u → ∀ s, validUtf8 (s ++ decode us) = true →
      validUtf8 (s ++ u) = true := by
  induction us using decode.induct with
  | case1 =>
      intro u hu s hs
      rw [UnitsText] at hu
      rw [hu]
      exact hs
  | case2 b us ih =>
      rintro u ⟨v, w, rfl, hv, hw⟩ s hs
      rw [decode] at hs
      cases hv with
      | plain hun =>
          rw [← List.append_assoc]
          apply ih hw
          rw [List.append_assoc]
          exact hs
      | escape he =>
          obtain ⟨-, hc, hb⟩ := escapeByte_ascii he
          rw [validUtf8_append_ascii hb, Bool.and_eq_true] at hs
          rw [List.cons_append, validUtf8_append_ascii (by decide), Bool.and_eq_true]
          refine ⟨hs.1, ?_⟩
          rw [List.singleton_append, validUtf8_cons_ascii hc]
          exact ih hw [] hs.2
  | case3 x y us hpair ih =>
      rintro u ⟨v, w, rfl, hv, v', w', rfl, hv', hw⟩ s hs
      obtain ⟨hne, hascii, hx⟩ := ascii_of_unicode hv
      obtain ⟨hne', hascii', hy⟩ := ascii_of_unicode hv'
      have hz : 0x10000 + (x - 0xD800) * 0x400 + (y - 0xDC00) < 0x200000 := by
        simp only [isHighSurrogate, Bool.and_eq_true, decide_eq_true_eq] at hpair
        omega
      rw [decode, if_pos hpair, validUtf8_append_utf8 hz, Bool.and_eq_true] at hs
      rw [validUtf8_append_ascii_append hne hascii, Bool.and_eq_true]
      refine ⟨hs.1, ?_⟩
      rw [validUtf8_ascii_append hascii']
      exact ih hw [] (validUtf8_of_utf8 hz hs.2)
  | case4 x y us hpair ih =>
      rintro u ⟨v, w, rfl, hv, hw⟩ s hs
      obtain ⟨hne, hascii, hx⟩ := ascii_of_unicode hv
      rw [decode, if_neg hpair, validUtf8_append_utf8 (by omega), Bool.and_eq_true] at hs
      rw [validUtf8_append_ascii_append hne hascii, Bool.and_eq_true]
      exact ⟨hs.1, ih hw [] (validUtf8_of_utf8 (by omega) hs.2)⟩
  | case5 x us hsingle ih =>
      rintro u ⟨v, w, rfl, hv, hw⟩ s hs
      obtain ⟨hne, hascii, hx⟩ := ascii_of_unicode hv
      rw [decode, validUtf8_append_utf8 (by omega), Bool.and_eq_true] at hs
      · rw [validUtf8_append_ascii_append hne hascii, Bool.and_eq_true]
        exact ⟨hs.1, ih hw [] (validUtf8_of_utf8 (by omega) hs.2)⟩
      · exact hsingle

theorem validUtf8_of_stringText {s t : Bytes} (h : StringText s t) (hs : validUtf8 s = true) :
    validUtf8 t = true := by
  obtain ⟨us, u, rfl, hu, rfl⟩ := h
  rw [List.cons_append, validUtf8_cons_ascii (by decide), validUtf8_concat (by decide)]
  exact validUtf8_append_units us hu [] hs

theorem isWs_ascii {b : UInt8} (h : isWs b = true) : b < 0x80 := by
  rcases isWs_cases h with rfl | rfl | rfl | rfl <;> decide

theorem blank_ascii {w : Bytes} (h : Blank w) : w.all (· < 0x80) = true :=
  all_ascii_of fun b hb => isWs_ascii (h b hb)

theorem validUtf8_append_blank {w : Bytes} (h : Blank w) (s : Bytes) :
    validUtf8 (s ++ w) = validUtf8 s := by
  cases w with
  | nil => rw [List.append_nil]
  | cons b w =>
      have htail : validUtf8 w = true :=
        validUtf8_of_ascii (blank_ascii fun c hc => h c (List.mem_cons_of_mem _ hc))
      rw [validUtf8_append_ascii (isWs_ascii (h b List.mem_cons_self)), htail, Bool.and_true]

theorem validUtf8_of_padded {P : Bytes → Prop} {t : Bytes} (h : Padded P t)
    (hP : ∀ u, P u → validUtf8 u = true) : validUtf8 t = true := by
  obtain ⟨w, u, w', rfl, hw, hu, hw'⟩ := h
  rw [validUtf8_append_blank hw', validUtf8_ascii_append (blank_ascii hw)]
  exact hP u hu

theorem digits_ascii {ds : Bytes} (h : Digits ds) : ds.all (· < 0x80) = true := by
  apply all_ascii_of
  intro b hb
  have hle := (isDigit_iff.mp (h b hb)).2
  rw [UInt8.lt_iff_toNat_lt]
  exact Nat.lt_of_le_of_lt hle (by decide)

theorem number_ascii (n : Number) : n.text.all (· < 0x80) = true := by
  have hfrac : (fracText n.frac).all (· < 0x80) = true := by
    unfold fracText
    split_ifs
    · rfl
    · rw [List.all_cons, digits_ascii n.frac_ok]
      rfl
  have hexp : (expText n.exp).all (· < 0x80) = true := by
    cases n.exp with
    | none => rfl
    | some e =>
        have hsign : (signText e.sign).all (· < 0x80) = true := by
          rcases e.sign with - | - | -
          · rfl
          · rfl
          · rfl
        rw [expText, Exponent.text, List.cons_append, List.all_cons, List.all_append, hsign,
          digits_ascii e.digits_ok.2]
        cases e.upper
        · rfl
        · rfl
  rw [Number.text, List.all_append, List.all_append, List.all_append, digits_ascii n.int_ok.2.1,
    hfrac, hexp]
  cases n.minus
  · rfl
  · rfl

section

variable {α : Type} {P : α → Bytes → Prop}

theorem validUtf8_append_tail {xs : List α} (hP : ∀ x ∈ xs, ∀ a, P x a → validUtf8 a = true) :
    ∀ {t : Bytes}, TailText P xs t → ∀ {s : Bytes}, validUtf8 s = true →
      validUtf8 (s ++ t) = true := by
  induction xs with
  | nil =>
      rintro t ht s hs
      rw [TailText] at ht
      rw [ht, List.append_nil]
      exact hs
  | cons x xs ih =>
      rintro t ⟨a, b, rfl, ha, hb⟩ s hs
      rw [List.cons_append, validUtf8_append_ascii (by decide), hs, Bool.true_and]
      exact ih (fun y hy => hP y (List.mem_cons_of_mem _ hy)) hb (hP x List.mem_cons_self a ha)

/-- A list of UTF-8 items is UTF-8: what separates them is ASCII. -/
theorem validUtf8_of_list {xs : List α} (hP : ∀ x ∈ xs, ∀ a, P x a → validUtf8 a = true)
    {t : Bytes} (h : ListText P xs t) : validUtf8 t = true := by
  cases xs with
  | nil => exact validUtf8_of_ascii (blank_ascii h)
  | cons x xs =>
      obtain ⟨a, b, rfl, ha, hb⟩ := h
      exact validUtf8_append_tail (fun y hy => hP y (List.mem_cons_of_mem _ hy)) hb
        (hP x List.mem_cons_self a ha)

end

/-- **A text of a document is UTF-8.** The library refuses a string that is not,
and nothing else in a text can be. -/
theorem validUtf8_of_text {float : Number → Option Binary64} {j : Json} :
    ∀ {w : Value} {t : Bytes}, ofJson float j = some w → Text j t → validUtf8 t = true := by
  induction j using Json.ind with
  | null =>
      intro w t hw ht
      refine validUtf8_of_padded ht fun u hu => ?_
      rw [Spells] at hu
      rw [hu]
      exact validUtf8_of_ascii (by decide)
  | bool b =>
      intro w t hw ht
      refine validUtf8_of_padded ht fun u hu => ?_
      rw [Spells] at hu
      rw [hu]
      cases b <;> exact validUtf8_of_ascii (by decide)
  | num n =>
      intro w t hw ht
      refine validUtf8_of_padded ht fun u hu => ?_
      rw [Spells] at hu
      rw [hu]
      exact validUtf8_of_ascii (number_ascii n)
  | str s =>
      intro w t hw ht
      refine validUtf8_of_padded ht fun u hu => ?_
      rw [ofJson] at hw
      split_ifs at hw with hs
      rw [Spells] at hu
      exact validUtf8_of_stringText hu hs
  | arr xs ih =>
      intro w t hw ht
      refine validUtf8_of_padded ht fun u hu => ?_
      obtain ⟨b, rfl, hb⟩ := spells_arr.mp hu
      rw [List.cons_append, validUtf8_cons_ascii (by decide), validUtf8_concat (by decide)]
      rw [ofJson] at hw
      obtain ⟨vs, hvs, -⟩ := Option.map_eq_some_iff.mp hw
      refine validUtf8_of_list ?_ hb
      intro x hx a ha
      obtain ⟨v, hv⟩ := exists_ofJson_of_mem hvs hx
      exact ih x hx hv ha
  | obj ms ih =>
      intro w t hw ht
      refine validUtf8_of_padded ht fun u hu => ?_
      obtain ⟨b, rfl, hb⟩ := spells_obj.mp hu
      rw [List.cons_append, validUtf8_cons_ascii (by decide), validUtf8_concat (by decide)]
      rw [ofJson] at hw
      obtain ⟨vs, hvs, -⟩ := Option.map_eq_some_iff.mp hw
      refine validUtf8_of_list ?_ hb
      rintro ⟨k, i⟩ hm a ⟨c, d, rfl, hc, hd⟩
      obtain ⟨hk, v, hv⟩ := isSome_ofJson_of_mem hvs hm
      rw [validUtf8_append_ascii (by decide), Bool.and_eq_true]
      exact ⟨validUtf8_of_padded hc fun u hu => validUtf8_of_stringText hu hk, ih _ hm hv hd⟩

end Nlohmann

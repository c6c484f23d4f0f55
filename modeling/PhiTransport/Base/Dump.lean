import PhiTransport.Base.Nlohmann

/-!
# Writing a JSON library's values

`operator[]` keeps the members of an object in the order of their keys, so a
value that was read, changed and written has one text (`Ordered`,
`assign_of_lookup`). What the documentation says of `dump` is `WritesJson`: on a
value that can come from a document it writes JSON text of that value.

- `Document` — the values a parser can return.
- `Value.Same` — equal, the two integer types of one number not told apart.
- `referenceDump` — a writer, shown to meet `WritesJson`.
-/

namespace Nlohmann

open Octets Rfc8259

/-- Induction on a value, with the hypothesis for every element and member. -/
@[elab_as_elim]
theorem Value.ind {motive : Value → Prop} (discarded : motive .discarded) (null : motive .null)
    (boolean : ∀ b, motive (.boolean b)) (numberUnsigned : ∀ n, motive (.numberUnsigned n))
    (numberInteger : ∀ i, motive (.numberInteger i)) (numberFloat : ∀ d, motive (.numberFloat d))
    (string : ∀ s, motive (.string s))
    (array : ∀ xs, (∀ x ∈ xs, motive x) → motive (.array xs))
    (object : ∀ ms, (∀ m ∈ ms, motive m.2) → motive (.object ms)) (v : Value) : motive v := by
  refine Value.rec (motive_1 := motive) (motive_2 := fun xs => ∀ x ∈ xs, motive x)
    (motive_3 := fun ms => ∀ m ∈ ms, motive m.2) (motive_4 := fun m => motive m.2)
    discarded null boolean numberUnsigned numberInteger numberFloat string array object
    ?_ ?_ ?_ ?_ ?_ v
  · simp
  · intro x xs hx hxs y hy
    rcases List.mem_cons.mp hy with rfl | hy
    · exact hx
    · exact hxs y hy
  · simp
  · intro m ms hm hms y hy
    rcases List.mem_cons.mp hy with rfl | hy
    · exact hm
    · exact hms y hy
  · intro k v hv
    exact hv

/-! ## The order of the members -/

/-- The keys stand in increasing order. -/
def Ordered (ms : Members) : Prop := (ms.map Prod.fst).Pairwise (· < ·)

theorem key_lt_of_not_lt {k key : Bytes} (hne : k ≠ key) (h : ¬key < k) : k < key := by
  by_contra hlt
  exact hne (List.le_antisymm (List.not_lt.mp h) (List.not_lt.mp hlt))

theorem Ordered.nodup {ms : Members} (h : Ordered ms) : (ms.map Prod.fst).Nodup := by
  apply h.imp
  rintro k k' hlt rfl
  exact List.lt_irrefl k hlt

theorem mem_assign {key : Bytes} {v : Value} {ms : Members} {m : Bytes × Value}
    (h : m ∈ assign key v ms) : m = (key, v) ∨ m ∈ ms := by
  induction ms with
  | nil => exact Or.inl (List.mem_singleton.mp h)
  | cons n ms ih =>
      rcases n with ⟨k, w⟩
      rw [assign] at h
      split_ifs at h with heq hlt
      · rcases List.mem_cons.mp h with rfl | h
        · exact Or.inl rfl
        · exact Or.inr (List.mem_cons_of_mem _ h)
      · exact List.mem_cons.mp h
      · rcases List.mem_cons.mp h with rfl | h
        · exact Or.inr List.mem_cons_self
        · exact (ih h).imp_right (List.mem_cons_of_mem _)

theorem ordered_assign {ms : Members} (h : Ordered ms) (key : Bytes) (v : Value) :
    Ordered (assign key v ms) := by
  induction ms with
  | nil => exact List.pairwise_singleton ..
  | cons n ms ih =>
      rcases n with ⟨k, w⟩
      obtain ⟨hhead, htail⟩ := List.pairwise_cons.mp h
      rw [assign]
      split_ifs with heq hlt
      · subst heq
        exact h
      · refine List.pairwise_cons.mpr ⟨?_, h⟩
        intro k' hk'
        rcases List.mem_cons.mp hk' with rfl | hk'
        · exact hlt
        · exact List.lt_trans hlt (hhead k' hk')
      · refine List.pairwise_cons.mpr ⟨?_, ih htail⟩
        intro k' hk'
        obtain ⟨m, hm, rfl⟩ := List.mem_map.mp hk'
        rcases mem_assign hm with rfl | hm
        · exact key_lt_of_not_lt heq hlt
        · exact hhead _ (List.mem_map_of_mem hm)

theorem build_concat (ms : Members) (m : Bytes × Value) :
    build (ms ++ [m]) = assign m.1 m.2 (build ms) := by
  rw [build, List.foldl_append]
  rfl

theorem ordered_build (ms : Members) : Ordered (build ms) := by
  induction ms using List.reverseRecOn with
  | nil => exact List.Pairwise.nil
  | append_singleton ms m ih =>
      rw [build_concat]
      exact ordered_assign ih m.1 m.2

theorem mem_build {ms : Members} {m : Bytes × Value} (h : m ∈ build ms) : m ∈ ms := by
  induction ms using List.reverseRecOn with
  | nil => exact h
  | append_singleton ms n ih =>
      rw [build_concat] at h
      rcases mem_assign h with rfl | h
      · simp
      · exact List.mem_append_left _ (ih h)

/-- A key behind all others is put at the end. -/
theorem assign_of_forall_lt {key : Bytes} {ms : Members} (h : ∀ m ∈ ms, m.1 < key) (v : Value) :
    assign key v ms = ms ++ [(key, v)] := by
  induction ms with
  | nil => rfl
  | cons n ms ih =>
      rcases n with ⟨k, w⟩
      have hk : k < key := h _ List.mem_cons_self
      rw [assign, if_neg, if_neg (List.lt_asymm hk), ih fun m hm => h m (List.mem_cons_of_mem _ hm)]
      · rfl
      · rintro rfl
        exact List.lt_irrefl k hk

/-- Members in order are built as they stand. -/
theorem build_of_ordered {ms : Members} (h : Ordered ms) : build ms = ms := by
  induction ms using List.reverseRecOn with
  | nil => rfl
  | append_singleton ms m ih =>
      rw [Ordered, List.map_append] at h
      obtain ⟨hms, -, hlt⟩ := List.pairwise_append.mp h
      rw [build_concat, ih hms]
      apply assign_of_forall_lt
      intro n hn
      exact hlt n.1 (List.mem_map_of_mem hn) m.1 (by simp)

/-- Assigning what is already there changes nothing. -/
theorem assign_of_lookup {key : Bytes} {v : Value} {ms : Members} (ho : Ordered ms)
    (h : ms.lookup key = some v) : assign key v ms = ms := by
  induction ms with
  | nil => cases h
  | cons n ms ih =>
      rcases n with ⟨k, w⟩
      obtain ⟨hhead, htail⟩ := List.pairwise_cons.mp ho
      rw [assign]
      by_cases heq : k = key
      · subst heq
        rw [List.lookup_cons_self, Option.some.injEq] at h
        rw [if_pos rfl, h]
      · rw [lookup_cons_of_ne heq] at h
        obtain ⟨before, rest, rfl, -⟩ := List.lookup_eq_some_iff.mp h
        have hlt : k < key := hhead key (by simp)
        rw [if_neg heq, if_neg (List.lt_asymm hlt), ih htail h]

/-! ## Equal values -/

mutual
/-- The value with every integer in its unsigned type where that holds it. -/
def Value.normal : Value → Value
  | .numberInteger i =>
      if 0 ≤ i.toInt then .numberUnsigned (UInt64.ofNat i.toInt.natAbs) else .numberInteger i
  | .array xs => .array (normalElements xs)
  | .object ms => .object (normalMembers ms)
  | v => v
def normalElements : List Value → List Value
  | [] => []
  | x :: xs => x.normal :: normalElements xs
def normalMembers : Members → Members
  | [] => []
  | (k, v) :: ms => (k, v.normal) :: normalMembers ms
end

/-- One value, the signed and the unsigned type of an integer not told apart:
`-0` is read as a signed zero and written as `0`. -/
def Value.Same (v w : Value) : Prop := v.normal = w.normal

theorem Value.same_object {ms ns : Members} :
    (Value.object ms).Same (.object ns) ↔ normalMembers ms = normalMembers ns := by
  simp only [Value.Same, Value.normal, Value.object.injEq]

theorem map_fst_normalMembers (ms : Members) :
    (normalMembers ms).map Prod.fst = ms.map Prod.fst := by
  induction ms with
  | nil => rfl
  | cons m ms ih => rw [normalMembers, List.map_cons, List.map_cons, ih]

theorem lookup_normalMembers (key : Bytes) (ms : Members) :
    (normalMembers ms).lookup key = (ms.lookup key).map Value.normal := by
  induction ms with
  | nil => rfl
  | cons m ms ih =>
      rcases m with ⟨k, v⟩
      rw [normalMembers]
      by_cases h : k = key
      · rw [h, List.lookup_cons_self, List.lookup_cons_self, Option.map_some]
      · rw [lookup_cons_of_ne h, lookup_cons_of_ne h, ih]

theorem normalMembers_assign (key : Bytes) (v : Value) (ms : Members) :
    normalMembers (assign key v ms) = assign key v.normal (normalMembers ms) := by
  induction ms with
  | nil => rfl
  | cons m ms ih =>
      rcases m with ⟨k, w⟩
      rw [assign, normalMembers, assign]
      split_ifs with heq hlt
      · rw [normalMembers]
      · rw [normalMembers, normalMembers]
      · rw [normalMembers, ih]

/-! ## Documents -/

section

variable (float : Number → Option Binary64)

/-- A value the library makes of some JSON document. -/
def Document (w : Value) : Prop := ∃ j, ofJson float j = some w

/-- What `json::parse` returns as an object comes from a document. -/
def ParsesDocuments (parse : Bytes → Value) : Prop :=
  ∀ t ms, parse t = .object ms → Document float (.object ms)

/-- `dump` writes JSON text of the value, and one text for one value. -/
structure WritesJson (dump : Value → Except Fault Bytes) : Prop where
  text : ∀ w, Document float w → ∃ u j w', dump w = .ok u ∧ Text j u ∧
    ofJson float j = some w' ∧ w'.Same w
  same : ∀ w w', w.Same w' → dump w = dump w'

variable {float}

theorem ofJson_eq_object {j : Json} {ms : Members} (h : ofJson float j = some (.object ms)) :
    ∃ js vs, j = .obj js ∧ ofMembers float js = some vs ∧ ms = build vs := by
  cases j with
  | obj js =>
      rw [ofJson] at h
      obtain ⟨vs, hvs, heq⟩ := Option.map_eq_some_iff.mp h
      exact ⟨js, vs, rfl, hvs, (Value.object.inj heq).symm⟩
  | null => simp [ofJson] at h
  | bool b => simp [ofJson] at h
  | num n =>
      rw [ofJson] at h
      unfold ofNumber at h
      dsimp only at h
      split_ifs at h <;> simp at h
  | str s =>
      rw [ofJson] at h
      split_ifs at h
      simp at h
  | arr xs => simp [ofJson] at h

theorem Document.ordered {ms : Members} (h : Document float (.object ms)) : Ordered ms := by
  obtain ⟨j, hj⟩ := h
  obtain ⟨js, vs, -, -, rfl⟩ := ofJson_eq_object hj
  exact ordered_build vs

theorem document_empty : Document float (.object []) := ⟨.obj [], rfl⟩

theorem document_string {s : Bytes} (h : validUtf8 s = true) : Document float (.string s) :=
  ⟨.str s, by rw [ofJson, if_pos h]⟩

theorem ofMembers_cons {k : Bytes} {j : Json} {v : Value} {js : List (Bytes × Json)} {vs : Members}
    (hk : validUtf8 k = true) (hj : ofJson float j = some v) (h : ofMembers float js = some vs) :
    ofMembers float ((k, j) :: js) = some ((k, v) :: vs) := by
  rw [ofMembers, if_pos hk, hj, Option.bind_some, h]
  rfl

theorem ofMembers_concat {js : List (Bytes × Json)} {vs : Members} {k : Bytes} {j : Json}
    {v : Value} (hk : validUtf8 k = true) (hj : ofJson float j = some v)
    (h : ofMembers float js = some vs) :
    ofMembers float (js ++ [(k, j)]) = some (vs ++ [(k, v)]) := by
  induction js generalizing vs with
  | nil =>
      rw [ofMembers, Option.some.injEq] at h
      subst h
      exact ofMembers_cons hk hj rfl
  | cons m js ih =>
      rcases m with ⟨k', j'⟩
      rw [ofMembers] at h
      split_ifs at h with hk'
      obtain ⟨v', hv', hmap⟩ := Option.bind_eq_some_iff.mp h
      obtain ⟨ws, hws, rfl⟩ := Option.map_eq_some_iff.mp hmap
      exact ofMembers_cons hk' hv' (ih hws)

/-- The documents are closed under assigning a document to a UTF-8 key. -/
theorem Document.assign {ms : Members} (h : Document float (.object ms)) {k : Bytes} {v : Value}
    (hk : validUtf8 k = true) (hv : Document float v) :
    Document float (.object (Nlohmann.assign k v ms)) := by
  obtain ⟨j, hj⟩ := h
  obtain ⟨js, vs, rfl, hvs, rfl⟩ := ofJson_eq_object hj
  obtain ⟨i, hi⟩ := hv
  refine ⟨.obj (js ++ [(k, i)]), ?_⟩
  rw [ofJson, ofMembers_concat hk hi hvs, Option.map_some, build_concat]

theorem parsesDocuments_referenceParse : ParsesDocuments float (referenceParse float) := by
  intro t ms h
  unfold referenceParse at h
  cases hread : (readText t).bind (ofJson float) with
  | none =>
      rw [hread] at h
      cases h
  | some w =>
      rw [hread, Option.getD_some] at h
      subst h
      obtain ⟨j, -, hj⟩ := Option.bind_eq_some_iff.mp hread
      exact ⟨j, hj⟩

end

/-! ## A writer -/

section

variable (quoted : Bytes → Bytes) (floatText : Binary64 → Bytes)

mutual
/-- The compact form `dump()` writes; it throws on a string that is not UTF-8. -/
def referenceDump : Value → Except Fault Bytes
  | .discarded => .ok (ascii "<discarded>")
  | .null => .ok (ascii "null")
  | .boolean b => .ok (boolText b)
  | .numberUnsigned n => .ok (decimal n.toNat)
  | .numberInteger i => .ok (decimalInt i.toInt)
  | .numberFloat d => .ok (floatText d)
  | .string s => if validUtf8 s then .ok (quoted s) else .error .thrown
  | .array xs => (dumpElements xs).map fun ts => lbracket :: [comma].intercalate ts ++ [rbracket]
  | .object ms => (dumpMembers ms).map fun ts => lbrace :: [comma].intercalate ts ++ [rbrace]
def dumpElements : List Value → Except Fault (List Bytes)
  | [] => .ok []
  | x :: xs => (referenceDump x).bind fun t => (dumpElements xs).map fun ts => t :: ts
def dumpMembers : Members → Except Fault (List Bytes)
  | [] => .ok []
  | (k, v) :: ms =>
      if validUtf8 k then
        (referenceDump v).bind fun t => (dumpMembers ms).map fun ts => (quoted k ++ colon :: t) :: ts
      else .error .thrown
end

variable {quoted floatText}

theorem int64_natAbs_lt (i : Int64) : i.toInt.natAbs < 2 ^ 64 := by
  have hlow := i.le_toInt
  have hhigh := i.toInt_lt
  omega

theorem referenceDump_normal (v : Value) :
    referenceDump quoted floatText v.normal = referenceDump quoted floatText v := by
  induction v using Value.ind with
  | numberInteger i =>
      rw [Value.normal]
      by_cases h : 0 ≤ i.toInt
      · rw [if_pos h, referenceDump, referenceDump, UInt64.toNat_ofNat_of_lt' (int64_natAbs_lt i),
          decimalInt, if_neg (not_lt.mpr h)]
      · rw [if_neg h]
  | array xs ih =>
      have helements : dumpElements quoted floatText (normalElements xs) =
          dumpElements quoted floatText xs := by
        induction xs with
        | nil => rfl
        | cons x xs ihxs =>
            rw [normalElements, dumpElements, dumpElements, ih x List.mem_cons_self,
              ihxs fun y hy => ih y (List.mem_cons_of_mem _ hy)]
      rw [Value.normal, referenceDump, referenceDump, helements]
  | object ms ih =>
      have hmembers : dumpMembers quoted floatText (normalMembers ms) =
          dumpMembers quoted floatText ms := by
        induction ms with
        | nil => rfl
        | cons m ms ihms =>
            rw [normalMembers, dumpMembers, dumpMembers, ih m List.mem_cons_self,
              ihms fun n hn => ih n (List.mem_cons_of_mem _ hn)]
      rw [Value.normal, referenceDump, referenceDump, hmembers]
  | _ => rfl

variable (float : Number → Option Binary64)

/-- The writer's text of `w` is JSON text of it. -/
def Written (quoted : Bytes → Bytes) (floatText : Binary64 → Bytes) (w : Value) : Prop :=
  ∃ u j w', referenceDump quoted floatText w = .ok u ∧ Text j u ∧ ofJson float j = some w' ∧
    w'.Same w

variable {float}

theorem ofNumber_ofInt (i : Int64) :
    ofNumber float (.ofInt i.toInt) = some (Value.numberInteger i).normal := by
  have hlow := i.le_toInt
  unfold ofNumber Number.ofInt
  dsimp only
  rw [if_pos ⟨rfl, rfl⟩, natOfDigits_decimal, Value.normal]
  by_cases h : 0 ≤ i.toInt
  · rw [if_neg, if_pos (int64_natAbs_lt i), if_pos h]
    rw [decide_eq_true_eq, not_lt]
    exact h
  · have hneg : -(i.toInt.natAbs : ℤ) = i.toInt := by omega
    rw [if_pos, if_pos (by omega), if_neg h, hneg, Int64.ofInt_toInt]
    rw [decide_eq_true_eq]
    exact not_le.mp h

theorem normal_normal_integer (i : Int64) :
    (Value.numberInteger i).normal.normal = (Value.numberInteger i).normal := by
  rw [Value.normal]
  by_cases h : 0 ≤ i.toInt
  · rw [if_pos h]
    rfl
  · rw [if_neg h, Value.normal, if_neg h]

theorem ofNumber_cases {n : Number} {w : Value} (h : ofNumber float n = some w) :
    (∃ m, w = .numberUnsigned m) ∨ (∃ i, w = .numberInteger i) ∨
      ∃ d, float n = some d ∧ w = .numberFloat d := by
  have hfloat : (float n).map .numberFloat = some w → ∃ d, float n = some d ∧ w = .numberFloat d := by
    intro hmap
    obtain ⟨d, hd, heq⟩ := Option.map_eq_some_iff.mp hmap
    exact ⟨d, hd, heq.symm⟩
  unfold ofNumber at h
  dsimp only at h
  split_ifs at h
  · exact Or.inr (Or.inl ⟨_, (Option.some.inj h).symm⟩)
  · exact Or.inr (Or.inr (hfloat h))
  · exact Or.inl ⟨_, (Option.some.inj h).symm⟩
  · exact Or.inr (Or.inr (hfloat h))
  · exact Or.inr (Or.inr (hfloat h))

theorem mem_ofElements {xs : List Json} {vs : List Value} (h : ofElements float xs = some vs)
    {v : Value} (hv : v ∈ vs) : ∃ x ∈ xs, ofJson float x = some v := by
  induction xs generalizing vs with
  | nil =>
      cases h
      cases hv
  | cons x xs ih =>
      rw [ofElements] at h
      obtain ⟨u, hu, hmap⟩ := Option.bind_eq_some_iff.mp h
      obtain ⟨us, hus, rfl⟩ := Option.map_eq_some_iff.mp hmap
      rcases List.mem_cons.mp hv with rfl | hv
      · exact ⟨x, List.mem_cons_self, hu⟩
      · obtain ⟨y, hy, hyv⟩ := ih hus hv
        exact ⟨y, List.mem_cons_of_mem _ hy, hyv⟩

theorem mem_ofMembers {js : List (Bytes × Json)} {vs : Members} (h : ofMembers float js = some vs)
    {m : Bytes × Value} (hm : m ∈ vs) :
    validUtf8 m.1 = true ∧ ∃ j ∈ js, ofJson float j.2 = some m.2 := by
  induction js generalizing vs with
  | nil =>
      cases h
      cases hm
  | cons j js ih =>
      rcases j with ⟨k, x⟩
      rw [ofMembers] at h
      split_ifs at h with hk
      obtain ⟨u, hu, hmap⟩ := Option.bind_eq_some_iff.mp h
      obtain ⟨us, hus, rfl⟩ := Option.map_eq_some_iff.mp hmap
      rcases List.mem_cons.mp hm with rfl | hm
      · exact ⟨hk, (k, x), List.mem_cons_self, hu⟩
      · obtain ⟨hutf, i, hi, him⟩ := ih hus hm
        exact ⟨hutf, i, List.mem_cons_of_mem _ hi, him⟩

theorem written_elements {xs : List Value} (h : ∀ x ∈ xs, Written float quoted floatText x) :
    ∃ ts js ws, dumpElements quoted floatText xs = .ok ts ∧ List.Forall₂ Text js ts ∧
      ofElements float js = some ws ∧ normalElements ws = normalElements xs := by
  induction xs with
  | nil => exact ⟨[], [], [], rfl, .nil, rfl, rfl⟩
  | cons x xs ih =>
      obtain ⟨t, j, w, ht, htext, hj, hsame⟩ := h x List.mem_cons_self
      obtain ⟨ts, js, ws, hts, htexts, hjs, hsames⟩ :=
        ih fun y hy => h y (List.mem_cons_of_mem _ hy)
      refine ⟨t :: ts, j :: js, w :: ws, ?_, .cons htext htexts, ?_, ?_⟩
      · rw [dumpElements, ht, hts]
        rfl
      · rw [ofElements, hj, Option.bind_some, hjs]
        rfl
      · rw [normalElements, normalElements, hsame, hsames]

theorem written_members (hquoted : ∀ s, StringText s (quoted s)) {ms : Members}
    (h : ∀ m ∈ ms, validUtf8 m.1 = true ∧ Written float quoted floatText m.2) :
    ∃ ts js ws, dumpMembers quoted floatText ms = .ok ts ∧ List.Forall₂ MemberText js ts ∧
      ofMembers float js = some ws ∧ normalMembers ws = normalMembers ms := by
  induction ms with
  | nil => exact ⟨[], [], [], rfl, .nil, rfl, rfl⟩
  | cons m ms ih =>
      rcases m with ⟨k, v⟩
      obtain ⟨hk, t, j, w, ht, htext, hj, hsame⟩ := h _ List.mem_cons_self
      obtain ⟨ts, js, ws, hts, htexts, hjs, hsames⟩ :=
        ih fun n hn => h n (List.mem_cons_of_mem _ hn)
      refine ⟨(quoted k ++ colon :: t) :: ts, (k, j) :: js, (k, w) :: ws, ?_,
        .cons (memberText_of (hquoted k) htext) htexts, ofMembers_cons hk hj hjs, ?_⟩
      · rw [dumpMembers, if_pos hk, ht, hts]
        rfl
      · rw [normalMembers, normalMembers, hsame, hsames]

/-- Every document is written, given texts for its strings and its floats. -/
theorem written_of_json (hquoted : ∀ s, StringText s (quoted s))
    (hfloat : ∀ n d, float n = some d →
      ∃ n', n'.text = floatText d ∧ ofNumber float n' = some (.numberFloat d)) (j : Json) :
    ∀ w, ofJson float j = some w → Written float quoted floatText w := by
  induction j using Json.ind with
  | null =>
      rintro w ⟨⟩
      exact ⟨_, _, _, rfl, text_null, rfl, rfl⟩
  | bool b =>
      rintro w ⟨⟩
      exact ⟨_, _, _, rfl, text_bool b, rfl, rfl⟩
  | num n =>
      intro w hw
      rw [ofJson] at hw
      rcases ofNumber_cases hw with ⟨m, rfl⟩ | ⟨i, rfl⟩ | ⟨d, hd, rfl⟩
      · refine ⟨_, _, _, rfl, text_nat m.toNat, ofNumber_ofNat float m.toNat_lt, ?_⟩
        rw [UInt64.ofNat_toNat]
        rfl
      · exact ⟨_, _, _, rfl, text_int i.toInt, ofNumber_ofInt i, normal_normal_integer i⟩
      · obtain ⟨n', htext, hn'⟩ := hfloat n d hd
        exact ⟨floatText d, .num n', _, rfl, htext ▸ text_number n', hn', rfl⟩
  | str s =>
      intro w hw
      rw [ofJson] at hw
      split_ifs at hw with hs
      cases hw
      refine ⟨quoted s, .str s, .string s, ?_, text_str (hquoted s), ?_, rfl⟩
      · rw [referenceDump, if_pos hs]
      · rw [ofJson, if_pos hs]
  | arr xs ih =>
      intro w hw
      rw [ofJson] at hw
      obtain ⟨vs, hvs, rfl⟩ := Option.map_eq_some_iff.mp hw
      have hall : ∀ v ∈ vs, Written float quoted floatText v := by
        intro v hv
        obtain ⟨x, hx, hxv⟩ := mem_ofElements hvs hv
        exact ih x hx v hxv
      obtain ⟨ts, js, ws, hts, htexts, hjs, hsame⟩ := written_elements hall
      refine ⟨_, .arr js, .array ws, ?_, text_arr (listText_intercalate htexts), ?_, ?_⟩
      · rw [referenceDump, hts]
        rfl
      · rw [ofJson, hjs]
        rfl
      · rw [Value.Same, Value.normal, Value.normal, hsame]
  | obj ms ih =>
      intro w hw
      rw [ofJson] at hw
      obtain ⟨vs, hvs, rfl⟩ := Option.map_eq_some_iff.mp hw
      have hall : ∀ m ∈ build vs, validUtf8 m.1 = true ∧ Written float quoted floatText m.2 := by
        intro m hm
        obtain ⟨hutf, i, hi, him⟩ := mem_ofMembers hvs (mem_build hm)
        exact ⟨hutf, ih i hi m.2 him⟩
      obtain ⟨ts, js, ws, hts, htexts, hjs, hsame⟩ := written_members hquoted hall
      -- the members are written in order, so reading them builds them as they stand
      have hordered : Ordered ws := by
        rw [Ordered, ← map_fst_normalMembers, hsame, map_fst_normalMembers]
        exact ordered_build vs
      refine ⟨_, .obj js, .object ws, ?_, objectText_of_list (listText_intercalate htexts), ?_, ?_⟩
      · rw [referenceDump, hts]
        rfl
      · rw [ofJson, hjs, Option.map_some, build_of_ordered hordered]
      · exact Value.same_object.mpr hsame

theorem writesJson_referenceDump (hquoted : ∀ s, StringText s (quoted s))
    (hfloat : ∀ n d, float n = some d →
      ∃ n', n'.text = floatText d ∧ ofNumber float n' = some (.numberFloat d)) :
    WritesJson float (referenceDump quoted floatText) where
  text := by
    rintro w ⟨j, hj⟩
    exact written_of_json hquoted hfloat j w hj
  same := by
    intro w w' h
    rw [← referenceDump_normal w, h, referenceDump_normal]

end

end Nlohmann

import PhiTransport.Base.Json.Numbers
import PhiTransport.Protocol.Exchange

/-!
# Frames written again

A frame that was read, whoever wrote it and however, can be written again by the
API's own builder and read once more. The topic and the payload come back as
they were. The `cid` does when it came as a number: it has been through a double
already. A `cid` that came as a string may be rounded, once; what is read then
is read the same from there on.
-/

namespace PhiTransport

open Octets Rfc8259 Nlohmann

/-! ## Ids that a double holds -/

/-- An id that is read back as written: one of at most 53 significant bits. -/
def SettledCid (cid : CmdId) : Prop := ∃ m k, m < 2 ^ 53 ∧ cid.toNat = m * 2 ^ k

/-- Cutting a fraction off leaves no more bits than there were. -/
theorem floor_representable {q : ℚ} (h : Representable q) (hpos : 0 ≤ q) :
    ∃ m k, m < 2 ^ 53 ∧ ⌊q⌋₊ = m * 2 ^ k := by
  obtain ⟨m, e, hm, -, -, hq⟩ := h
  have hpow : (0 : ℚ) < 2 ^ e := zpow_pos (by norm_num) e
  have hm0 : 0 ≤ m := by
    by_contra hneg
    have hlt : (m : ℚ) * 2 ^ e < 0 := mul_neg_of_neg_of_pos (by exact_mod_cast not_le.mp hneg) hpow
    rw [← hq] at hlt
    exact absurd hpos (not_le.mpr hlt)
  obtain ⟨n, rfl⟩ := Int.eq_ofNat_of_zero_le hm0
  rw [Int.natAbs_natCast] at hm
  rcases le_or_gt 0 e with he | he
  · obtain ⟨k, rfl⟩ := Int.eq_ofNat_of_zero_le he
    refine ⟨n, k, hm, ?_⟩
    have hnat : q = ((n * 2 ^ k : ℕ) : ℚ) := by
      rw [hq]
      push_cast
      rfl
    rw [hnat, Nat.floor_natCast]
  · refine ⟨⌊q⌋₊, 0, ?_, by rw [pow_zero, mul_one]⟩
    have hone : (2 : ℚ) ^ e ≤ 1 := zpow_le_one_of_nonpos₀ (by norm_num) he.le
    have hle : q ≤ n := by
      rw [hq]
      exact mul_le_of_le_one_right (Nat.cast_nonneg n) hone
    exact lt_of_le_of_lt (Nat.floor_le_of_le hle) hm

/-- A number is read as an id that a double holds. -/
theorem settledCid_of_number {value : Binary64} {cid : CmdId}
    (h : cidFromNumber value = .ok (some cid)) : SettledCid cid := by
  have hpart := cidFromNumber_eq_some_iff.mp h
  cases value with
  | nan => cases hpart
  | inf negative => cases hpart
  | finite q hq =>
      unfold integerPart at hpart
      dsimp only at hpart
      split_ifs at hpart with hrange
      obtain ⟨m, k, hm, hfloor⟩ := floor_representable hq hrange.1
      exact ⟨m, k, hm, (Option.some.inj hpart).symm.trans hfloor⟩

theorem settledCid_iff {cid : CmdId} :
    SettledCid cid ↔ cidFromNumber (.ofUInt64 cid) = .ok (some cid) := by
  constructor
  · intro h
    have hround := (Binary64.roundNat_eq_self_iff cid.toNat).mpr h
    rw [cidFromNumber_ofUInt64, hround, if_pos cid.toNat_lt, UInt64.ofNat_toNat]
  · exact settledCid_of_number

/-! ## Topics -/

theorem bare_trimmed {space : UInt8 → Bool} {trimmed : Bytes → Bytes} (h : Trims space trimmed)
    (t : Bytes) : Bare space (trimmed t) := by
  rw [h]
  constructor
  · intro b hb
    obtain ⟨rest, hrest⟩ := List.rdropWhile_prefix space (t.dropWhile space)
    cases hcut : (t.dropWhile space).rdropWhile space with
    | nil =>
        rw [hcut] at hb
        cases hb
    | cons a u =>
        rw [hcut, List.head?_cons, Option.mem_some_iff] at hb
        rw [hcut, List.cons_append] at hrest
        -- nothing is cut off in front of the first byte that stays
        have hhead := List.head_dropWhile_not space (List.ne_nil_of_length_pos
          (by rw [← hrest]; exact Nat.succ_pos _) : t.dropWhile space ≠ [])
        simp only [← hrest, List.head_cons] at hhead
        rw [← hb]
        exact hhead
  · intro b hb
    by_cases hnil : (t.dropWhile space).rdropWhile space = []
    · rw [hnil] at hb
      cases hb
    · rw [List.getLast?_eq_some_getLast hnil, Option.mem_some_iff] at hb
      rw [← hb]
      exact Bool.eq_false_iff.mpr (List.rdropWhile_last_not space _ hnil)

/-! ## Writing again -/

section

variable {float : Number → Option Binary64} {space : UInt8 → Bool} {kit : Toolkit}

/-- The text of a frame that was read. -/
def rewritten (kit : Toolkit) (frame : CommandFrame) : Except Fault Bytes := do
  let payloadJson ← kit.dump frame.payload
  return makeEnvelope kEnvelopeTypeCmd frame.topic (some frame.cid) payloadJson

theorem rewritten_eq {frame : CommandFrame} {payloadJson : Bytes}
    (h : kit.dump frame.payload = .ok payloadJson) : rewritten kit frame =
      .ok (makeEnvelope kEnvelopeTypeCmd frame.topic (some frame.cid) payloadJson) := by
  rw [rewritten, h]
  rfl

theorem bare_topic_of_parse (hkit : kit.Lawful float space) {text : Bytes} {frame : CommandFrame}
    (h : parseCommandFrame kit.parse kit.trimmed text = .ok (.ok frame)) :
    Bare space frame.topic := by
  obtain ⟨-, -, -, ⟨s, -, htrim, -⟩, -⟩ := members_of_accepted hkit h
  rw [← htrim]
  exact bare_trimmed hkit.trims s

/-- The written text is read with the same topic and payload, and with the `cid`
its double gives; and the frame that is read is written as the same text but for
the `cid`. -/
theorem parse_rewritten (hkit : kit.Lawful float space) {frame : CommandFrame}
    (h : Accepted float frame) (hbare : Bare space frame.topic) :
    ∃ payload : Value, payload.Same frame.payload ∧ ∀ cid, ∃ t,
      rewritten kit ⟨cid, frame.topic, frame.payload⟩ = .ok t ∧
      rewritten kit ⟨cid, frame.topic, payload⟩ = .ok t ∧
      parseCommandFrame kit.parse kit.trimmed t = (cidFromNumber (.ofUInt64 cid)).map fun
        | some cid => .ok ⟨cid, frame.topic, payload⟩
        | none => .error ⟨none, kErrorCodeMissingCid, kMessageMissingCid⟩ := by
  obtain ⟨payloadJson, js, vs, ms, hdump, htext, hvs, -, hsame⟩ := h.dump_payload hkit
  have hjson : ofJson float (.obj js) = some (.object (build vs)) := by
    rw [ofJson, hvs]
    rfl
  refine ⟨.object (build vs), hsame, fun cid => ⟨_, rewritten_eq hdump, rewritten_eq ?_, ?_⟩⟩
  · rw [hkit.writes.same _ _ hsame]
    exact hdump
  · exact parseCommandFrame_makeEnvelope hkit.reads hkit.trims h.topic_ne h.topic_utf8 hbare htext
      hjson cid

/-- The `cid` of a text was sent as a number. -/
def NumericCid (parse : Bytes → Value) (text : Bytes) : Prop :=
  ∃ ms it, parse text = .object ms ∧ ms.lookup (ascii "cid") = some it ∧ it.isNumber = true

theorem settledCid_of_numericCid (hkit : kit.Lawful float space) {text : Bytes}
    {frame : CommandFrame}
    (h : parseCommandFrame kit.parse kit.trimmed text = .ok (.ok frame))
    (hnumeric : NumericCid kit.parse text) : SettledCid frame.cid := by
  obtain ⟨ms, hms, ⟨it, hit, hread⟩, -, -⟩ := members_of_accepted hkit h
  obtain ⟨ms', it', hms', hit', hnumber⟩ := hnumeric
  rw [hms] at hms'
  cases hms'
  rw [hit] at hit'
  cases hit'
  rw [readCid, if_pos hnumber] at hread
  cases hd : it.getDouble with
  | error fault =>
      rw [hd] at hread
      cases hread
  | ok d =>
      rw [hd] at hread
      exact settledCid_of_number hread

/-- **A frame settles in one round.** Whatever text it was read from, it can be
written, and the writing is read as the frame again exactly when the `cid` is one
that a double holds, so always when it came as a number. Any other `cid` is
rounded once, to the nearest double, and from then on the frame is read as it is
written; or it is one of the last that are rounded to `2 ^ 64`, and has no defined
reading. -/
theorem frame_settles (hkit : kit.Lawful float space) {text : Bytes} {frame : CommandFrame}
    (h : parseCommandFrame kit.parse kit.trimmed text = .ok (.ok frame)) :
    ∃ t payload, rewritten kit frame = .ok t ∧ payload.Same frame.payload ∧
      (parseCommandFrame kit.parse kit.trimmed t = .ok (.ok { frame with payload }) ↔
        SettledCid frame.cid) ∧
      (NumericCid kit.parse text → SettledCid frame.cid) ∧
      (frame.cid.toNat < 2 ^ 64 - 1024 → ∃ cid t', Binary64.RoundsTo frame.cid.toNat cid.toNat ∧
        parseCommandFrame kit.parse kit.trimmed t = .ok (.ok { frame with cid, payload }) ∧
        rewritten kit { frame with cid, payload } = .ok t' ∧
        parseCommandFrame kit.parse kit.trimmed t' = .ok (.ok { frame with cid, payload })) ∧
      (¬frame.cid.toNat < 2 ^ 64 - 1024 →
        parseCommandFrame kit.parse kit.trimmed t = .error .undefined) := by
  obtain ⟨payload, hsame, hwrite⟩ :=
    parse_rewritten hkit (accepted_of_parse hkit h) (bare_topic_of_parse hkit h)
  obtain ⟨t, ht, -, hparse⟩ := hwrite frame.cid
  refine ⟨t, payload, ht, hsame, ?_, settledCid_of_numericCid hkit h, ?_, ?_⟩
  · rw [settledCid_iff, hparse]
    cases cidFromNumber (.ofUInt64 frame.cid) with
    | error fault => simp [Except.map]
    | ok read =>
        cases read with
        | none => simp [Except.map]
        | some cid => simp [Except.map]
  · intro hlt
    -- the id the double gives is one that a double holds
    have hround := (Binary64.roundNat_lt_iff frame.cid.toNat_lt).mpr hlt
    have hread := cidFromNumber_ofUInt64 frame.cid
    rw [if_pos hround] at hread
    have hsettled := settledCid_iff.mp (settledCid_of_number hread)
    obtain ⟨t', -, ht', hparse'⟩ := hwrite (UInt64.ofNat (Binary64.roundNat frame.cid.toNat))
    refine ⟨_, t', ?_, ?_, ht', ?_⟩
    · rw [UInt64.toNat_ofNat_of_lt' hround]
      exact Binary64.roundsTo_roundNat frame.cid.toNat_lt
    · rw [hparse, hread]
      rfl
    · rw [hparse', hsettled]
      rfl
  · intro hlt
    rw [hparse, cidFromNumber_ofUInt64,
      if_neg (mt (Binary64.roundNat_lt_iff frame.cid.toNat_lt).mp hlt)]
    rfl

end

/-- The sample frame is its own writing. -/
theorem frame_settles_sampleFrame :
    ∃ t payload, rewritten sampleKit ⟨7, ascii "cmd.x", .object []⟩ = .ok t ∧
      payload.Same (.object []) ∧
      parseCommandFrame sampleKit.parse sampleKit.trimmed t =
        .ok (.ok ⟨7, ascii "cmd.x", payload⟩) := by
  obtain ⟨t, payload, ht, hsame, hiff, -⟩ := frame_settles lawful_sampleKit
    parseCommandFrame_sampleKit
  exact ⟨t, payload, ht, hsame, hiff.mpr ⟨7, 0, by decide, rfl⟩⟩

end PhiTransport

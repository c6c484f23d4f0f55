import PhiTransport.Api.Scram
import PhiTransport.Base.Base64
import PhiTransport.Base.Sha256

/-!
# Keys and proofs

What the chain from a password to a proof does when the calls under it work,
and what it does when they fail. Each of the six calls of a login may fail on
its own, so the chain takes one library a call. The comparison of a proof never
loses a difference it has found, so it answers whether the two are equal.
-/

namespace PhiTransport.Scram

open Octets

/-! ## Byte by byte -/

theorem length_xorBytes {lhs rhs : Bytes} (h : lhs.length = rhs.length) :
    (xorBytes lhs rhs).length = lhs.length := by
  rw [xorBytes, if_neg (not_not.mpr h), List.length_zipWith, h, Nat.min_self]

theorem zipWith_xor_cancel {lhs rhs : Bytes} (h : lhs.length = rhs.length) :
    List.zipWith (fun a b => a ^^^ b) (List.zipWith (fun a b => a ^^^ b) lhs rhs) rhs = lhs := by
  induction lhs generalizing rhs with
  | nil => simp
  | cons a lhs ih =>
      cases rhs with
      | nil => simp at h
      | cons b rhs =>
          rw [List.zipWith_cons_cons, List.zipWith_cons_cons, ih (Nat.succ.inj h),
            UInt8.xor_assoc, UInt8.xor_self, UInt8.xor_zero]

/-- Applying the same mask twice gives the text back. -/
theorem xorBytes_cancel {lhs rhs : Bytes} (h : lhs.length = rhs.length) :
    xorBytes (xorBytes lhs rhs) rhs = lhs := by
  have hlen := length_xorBytes h
  rw [xorBytes, if_neg (not_not.mpr (hlen.trans h)), xorBytes, if_neg (not_not.mpr h),
    zipWith_xor_cancel h]

theorem xorBytes_right_inj {lhs lhs' rhs : Bytes} (h : lhs.length = rhs.length)
    (h' : lhs'.length = rhs.length) (heq : xorBytes lhs rhs = xorBytes lhs' rhs) : lhs = lhs' := by
  rw [← xorBytes_cancel h, heq, xorBytes_cancel h']

/-! ## The comparison -/

/-- The accumulator ends at zero only if it began there and no pair differs. -/
theorem foldl_diff_eq_zero_iff (ps : List (UInt8 × UInt8)) (diff : UInt8) :
    ps.foldl (fun diff p => diff ||| (p.1 ^^^ p.2)) diff = 0 ↔
      diff = 0 ∧ ∀ p ∈ ps, p.1 = p.2 := by
  induction ps generalizing diff with
  | nil => simp
  | cons p ps ih =>
      rw [List.foldl_cons, ih, UInt8.or_eq_zero_iff, UInt8.xor_eq_zero_iff]
      simp [and_assoc]

/-- The loop undoes nothing: the bits it starts with are in what it ends with. -/
theorem or_foldl_diff (ps : List (UInt8 × UInt8)) (diff : UInt8) :
    diff ||| ps.foldl (fun diff p => diff ||| (p.1 ^^^ p.2)) diff =
      ps.foldl (fun diff p => diff ||| (p.1 ^^^ p.2)) diff := by
  induction ps generalizing diff with
  | nil => exact UInt8.or_self
  | cons p ps ih =>
      rw [List.foldl_cons, ← ih, ← UInt8.or_assoc, ← UInt8.or_assoc, UInt8.or_self]

/-- The bits in which a pair differs stay to the end, wherever the pair stands. -/
theorem xor_or_foldl_diff {ps : List (UInt8 × UInt8)} {p : UInt8 × UInt8} (h : p ∈ ps)
    (diff : UInt8) :
    (p.1 ^^^ p.2) ||| ps.foldl (fun diff p => diff ||| (p.1 ^^^ p.2)) diff =
      ps.foldl (fun diff p => diff ||| (p.1 ^^^ p.2)) diff := by
  obtain ⟨before, rest, rfl⟩ := List.append_of_mem h
  rw [List.foldl_append, List.foldl_cons]
  generalize before.foldl (fun diff p => diff ||| (p.1 ^^^ p.2)) diff = reached
  have hset : (p.1 ^^^ p.2) ||| (reached ||| (p.1 ^^^ p.2)) = reached ||| (p.1 ^^^ p.2) := by
    rw [UInt8.or_comm reached, ← UInt8.or_assoc, UInt8.or_self]
  rw [← or_foldl_diff, ← UInt8.or_assoc, hset]

theorem eq_iff_forall_zip {lhs rhs : Bytes} (h : lhs.length = rhs.length) :
    lhs = rhs ↔ ∀ p ∈ lhs.zip rhs, p.1 = p.2 := by
  rw [← List.forall₂_eq_eq_eq, List.forall₂_iff_zip]
  simp [h]

theorem diffOf_eq_zero_iff {lhs rhs : Bytes} (h : lhs.length = rhs.length) :
    diffOf lhs rhs = 0 ↔ lhs = rhs := by
  rw [eq_iff_forall_zip h]
  exact (foldl_diff_eq_zero_iff _ _).trans (and_iff_right rfl)

theorem constantTimeEquals_self (t : Bytes) : constantTimeEquals t t = true := by
  rw [constantTimeEquals, if_neg (not_not.mpr rfl), (diffOf_eq_zero_iff rfl).mpr rfl]
  rfl

/-- The accumulator after `k` rounds is part of what it ends with. -/
theorem or_diffOf_take (lhs rhs : Bytes) (k : ℕ) :
    diffOf (lhs.take k) (rhs.take k) ||| diffOf lhs rhs = diffOf lhs rhs := by
  have hrounds : (lhs.take k).zip (rhs.take k) = (lhs.zip rhs).take k := List.take_zipWith.symm
  have hsplit : diffOf lhs rhs = ((lhs.zip rhs).drop k).foldl
      (fun diff p => diff ||| (p.1 ^^^ p.2)) (diffOf (lhs.take k) (rhs.take k)) := by
    show _ = List.foldl _ (List.foldl _ 0 ((lhs.take k).zip (rhs.take k))) _
    rw [hrounds, ← List.foldl_append, List.take_append_drop]
    rfl
  rw [hsplit]
  exact or_foldl_diff _ _

/-- **The comparison decides equality.** Behind the length check the accumulator
is zero exactly when no position differs; what has been found after any number
of rounds is still there at the end, and so is every bit of every difference. -/
theorem constantTimeEquals_decides (lhs rhs : Bytes) :
    (constantTimeEquals lhs rhs = true ↔ lhs.length = rhs.length ∧ ∀ i : ℕ, lhs[i]? = rhs[i]?) ∧
    (constantTimeEquals lhs rhs = true ↔ lhs = rhs) ∧
    (lhs.length = rhs.length → (diffOf lhs rhs = 0 ↔ ∀ i : ℕ, lhs[i]? = rhs[i]?)) ∧
    (∀ k, diffOf (lhs.take k) (rhs.take k) ||| diffOf lhs rhs = diffOf lhs rhs) ∧
    ∀ (i : ℕ) (a b : UInt8), lhs[i]? = some a → rhs[i]? = some b →
      (a ^^^ b) ||| diffOf lhs rhs = diffOf lhs rhs := by
  have hequal : constantTimeEquals lhs rhs = true ↔ lhs = rhs := by
    constructor
    · intro h
      by_cases hlen : lhs.length = rhs.length
      · rw [constantTimeEquals, if_neg (not_not.mpr hlen), beq_iff_eq] at h
        exact (diffOf_eq_zero_iff hlen).mp h
      · rw [constantTimeEquals, if_pos hlen] at h
        exact absurd h Bool.false_ne_true
    · rintro rfl
      exact constantTimeEquals_self lhs
  refine ⟨?_, hequal, ?_, or_diffOf_take lhs rhs, ?_⟩
  · rw [hequal, List.ext_getElem?_iff]
    constructor
    · intro h
      exact ⟨congrArg List.length (List.ext_getElem? h), h⟩
    · rintro ⟨-, h⟩
      exact h
  · intro hlen
    rw [diffOf_eq_zero_iff hlen, List.ext_getElem?_iff]
  · intro i a b ha hb
    have hpair : (lhs.zip rhs)[i]? = some (a, b) := by
      rw [List.getElem?_zip_eq_some]
      exact ⟨ha, hb⟩
    exact xor_or_foldl_diff (List.mem_of_getElem? hpair) 0

/-! ## Working and failing calls -/

/-- Every call goes through and writes 32 bytes; an empty key or input is no
failure, and PBKDF2 is asked for at least one round. -/
structure OpenSsl.Works (ssl : OpenSsl) : Prop where
  hmac : ∀ key keyLen message,
    ∃ out, ssl.hmac key keyLen message = some out ∧ out.length = sha256DigestLength
  evpDigest : ∀ data, ∃ out, ssl.evpDigest data = some out ∧ out.length = sha256DigestLength
  pkcs5Pbkdf2Hmac : ∀ pass passLen salt saltLen (iter : Int32), 0 < iter →
    ∃ out, ssl.pkcs5Pbkdf2Hmac pass passLen salt saltLen iter kKeyBytes = some out ∧
      out.length = sha256DigestLength

/-- libcrypto with the algorithms its functions are documented to compute. -/
def libcrypto : OpenSsl where
  hmac key keyLen message := some (Sha256.hmac (key.take keyLen.toNatClampNeg) message)
  evpDigest data := some (Sha256.hash data)
  pkcs5Pbkdf2Hmac pass passLen salt saltLen iter keyLen :=
    some ((Sha256.pbkdf2 (pass.take passLen.toNatClampNeg) (salt.take saltLen.toNatClampNeg)
      iter.toNatClampNeg).take keyLen.toNatClampNeg)

theorem works_libcrypto : libcrypto.Works where
  hmac _ _ _ := ⟨_, rfl, Sha256.length_hmac _ _⟩
  evpDigest _ := ⟨_, rfl, Sha256.length_hash _⟩
  pkcs5Pbkdf2Hmac pass passLen salt saltLen iter _ := by
    refine ⟨_, rfl, ?_⟩
    rw [List.length_take, Sha256.length_pbkdf2]
    decide

/-- The library during a call that may fail. -/
def OpenSsl.failingIf (ssl : OpenSsl) (fails : Bool) : OpenSsl :=
  if fails then ⟨fun _ _ _ => none, fun _ => none, fun _ _ _ _ _ _ => none⟩ else ssl

section

variable {ssl : OpenSsl}

theorem length_digestOrEmpty {out : Bytes} (h : out.length = sha256DigestLength) :
    (digestOrEmpty (some out)).length = sha256DigestLength := by
  rw [digestOrEmpty, if_neg (not_not.mpr h), h]

theorem length_hmac (h : ssl.Works) (key message : Bytes) :
    (hmac ssl key message).length = sha256DigestLength := by
  obtain ⟨out, hout, hlen⟩ := h.hmac key (intLength key) message
  rw [hmac, hout, length_digestOrEmpty hlen]

theorem length_storedKey (h : ssl.Works) (clientKey : Bytes) :
    (storedKey ssl clientKey).length = sha256DigestLength := by
  obtain ⟨out, hout, hlen⟩ := h.evpDigest clientKey
  rw [storedKey, hout, length_digestOrEmpty hlen]

theorem ne_nil_of_length {t : Bytes} (h : t.length = sha256DigestLength) : t ≠ [] := by
  rintro rfl
  exact absurd h (by decide)

/-- A keyed hash is empty only because its own call failed, whatever the key. -/
theorem hmac_failingIf_eq_nil_iff (h : ssl.Works) (fails : Bool) (key message : Bytes) :
    hmac (ssl.failingIf fails) key message = [] ↔ fails = true := by
  cases fails with
  | true => exact iff_of_true rfl rfl
  | false => exact iff_of_false (ne_nil_of_length (length_hmac h key message)) Bool.false_ne_true

theorem storedKey_failingIf_eq_nil_iff (h : ssl.Works) (fails : Bool) (clientKey : Bytes) :
    storedKey (ssl.failingIf fails) clientKey = [] ↔ fails = true := by
  cases fails with
  | true => exact iff_of_true rfl rfl
  | false => exact iff_of_false (ne_nil_of_length (length_storedKey h clientKey)) Bool.false_ne_true

theorem saltedPassword_failingIf_eq_nil_iff (h : ssl.Works) (fails : Bool)
    (password salt : Bytes) (iterations : Int32) :
    saltedPassword (ssl.failingIf fails) password salt iterations = [] ↔
      iterations ≤ 0 ∨ fails = true := by
  unfold saltedPassword
  by_cases hiter : iterations ≤ 0
  · rw [if_pos hiter]
    exact iff_of_true rfl (Or.inl hiter)
  · rw [if_neg hiter]
    cases fails with
    | true => exact iff_of_true rfl (Or.inr rfl)
    | false =>
        obtain ⟨out, hout, hlen⟩ := h.pkcs5Pbkdf2Hmac password (intLength password) salt
          (intLength salt) iterations (Int32.not_le.mp hiter)
        apply iff_of_false
        · show (ssl.pkcs5Pbkdf2Hmac _ _ _ _ _ _).getD [] ≠ []
          rw [hout]
          exact ne_nil_of_length hlen
        · simp [hiter]

end

/-! ## The chain -/

/-- The calls into libcrypto that a login makes, by the function that makes them. -/
inductive Call where
  | saltedPassword
  | clientKey
  | storedKey
  | serverKey
  | clientSignature
  | serverSignature
deriving DecidableEq

/-- Everything a login derives from a password. -/
structure Derived where
  (saltedPassword clientKey storedKey serverKey clientSignature serverSignature proof : Bytes)

def derive (ssl : Call → OpenSsl) (password salt : Bytes) (iterations : Int32)
    (authMessage : Bytes) : Derived :=
  let salted := saltedPassword (ssl .saltedPassword) password salt iterations
  let client := clientKey (ssl .clientKey) salted
  let stored := storedKey (ssl .storedKey) client
  let server := serverKey (ssl .serverKey) salted
  let signature := clientSignature (ssl .clientSignature) stored authMessage
  { saltedPassword := salted
    clientKey := client
    storedKey := stored
    serverKey := server
    clientSignature := signature
    serverSignature := serverSignature (ssl .serverSignature) server authMessage
    proof := xorBytes client signature }

/-- A failure is passed on: what is derived from an empty value is empty. -/
def Derived.FailsClosed (d : Derived) : Prop :=
  (d.saltedPassword = [] → d.clientKey = [] ∧ d.storedKey = [] ∧ d.serverKey = [] ∧
    d.clientSignature = [] ∧ d.serverSignature = [] ∧ d.proof = []) ∧
  (d.clientKey = [] → d.storedKey = []) ∧
  (d.storedKey = [] → d.clientSignature = []) ∧
  (d.serverKey = [] → d.serverSignature = [])

/-- **A failed derivation** stays failed only as long as every later call fails
too: no function looks at the value it is given. -/
theorem failsClosed_iff {ssl : OpenSsl} (h : ssl.Works) (fails : Call → Bool)
    (password salt : Bytes) (iterations : Int32) (authMessage : Bytes) :
    (derive (fun call => ssl.failingIf (fails call)) password salt iterations
      authMessage).FailsClosed ↔
    (iterations ≤ 0 ∨ fails .saltedPassword → fails .clientKey ∧ fails .serverKey) ∧
      (fails .clientKey → fails .storedKey) ∧
      (fails .storedKey → fails .clientSignature) ∧
      (fails .serverKey → fails .serverSignature) := by
  unfold derive Derived.FailsClosed
  simp only [clientKey, serverKey, clientSignature, serverSignature,
    hmac_failingIf_eq_nil_iff h, storedKey_failingIf_eq_nil_iff h,
    saltedPassword_failingIf_eq_nil_iff h]
  constructor
  · rintro ⟨hall, hstored, hsignature, hserver⟩
    exact ⟨fun hfailed => ⟨(hall hfailed).1, (hall hfailed).2.2.1⟩, hstored, hsignature, hserver⟩
  · rintro ⟨hkeys, hstored, hsignature, hserver⟩
    refine ⟨fun hfailed => ?_, hstored, hsignature, hserver⟩
    obtain ⟨hck, hsk⟩ := hkeys hfailed
    have hsig := hsignature (hstored hck)
    refine ⟨hck, hstored hck, hsk, hsig, hserver hsk, ?_⟩
    rw [(hmac_failingIf_eq_nil_iff h _ _ _).mpr hck, (hmac_failingIf_eq_nil_iff h _ _ _).mpr hsig]
    rfl

theorem failsClosed_iff_libcrypto :
    (derive (fun call => libcrypto.failingIf (call == .saltedPassword)) (ascii "pencil")
      (ascii "salt") 4096 (ascii "n=user")).FailsClosed ↔
    ((4096 : Int32) ≤ 0 ∨ (Call.saltedPassword == Call.saltedPassword) = true →
        (Call.clientKey == Call.saltedPassword) = true ∧
          (Call.serverKey == Call.saltedPassword) = true) ∧
      ((Call.clientKey == Call.saltedPassword) = true →
        (Call.storedKey == Call.saltedPassword) = true) ∧
      ((Call.storedKey == Call.saltedPassword) = true →
        (Call.clientSignature == Call.saltedPassword) = true) ∧
      ((Call.serverKey == Call.saltedPassword) = true →
        (Call.serverSignature == Call.saltedPassword) = true) :=
  failsClosed_iff works_libcrypto (fun call => call == .saltedPassword) (ascii "pencil")
    (ascii "salt") 4096 (ascii "n=user")

/-- With no rounds and no failing call, every password has the same keys. -/
theorem derive_without_rounds :
    let derived := fun password => derive (fun _ => libcrypto) password (ascii "salt") 0
      (ascii "n=user")
    (derived (ascii "pencil")).saltedPassword = [] ∧
      (derived (ascii "pencil")).clientKey = (derived (ascii "other")).clientKey ∧
      (derived (ascii "pencil")).serverSignature = (derived (ascii "other")).serverSignature ∧
      (derived (ascii "pencil")).clientKey ≠ [] ∧
      (derived (ascii "pencil")).serverSignature ≠ [] ∧
      ¬(derived (ascii "pencil")).FailsClosed := by
  have hsalted : ∀ password, saltedPassword libcrypto password (ascii "salt") 0 = [] :=
    fun _ => rfl
  have hclient : clientKey libcrypto [] ≠ [] :=
    ne_nil_of_length (length_hmac works_libcrypto _ _)
  have hserver : serverSignature libcrypto (serverKey libcrypto []) (ascii "n=user") ≠ [] :=
    ne_nil_of_length (length_hmac works_libcrypto _ _)
  simp only [derive, hsalted, Derived.FailsClosed]
  refine ⟨trivial, trivial, trivial, hclient, hserver, ?_⟩
  rintro ⟨hall, -⟩
  exact hclient (hall trivial).1

/-! ## Both halves -/

section

variable {ssl : OpenSsl} (toBase64 : Bytes → Bytes) (number : Int32 → Bytes)

/-- **The two halves agree.** The proof of a login gives the server back the
client key it belongs to, and no other proof of that length does. -/
theorem proof_recovers_clientKey (h : ssl.Works)
    (password salt username clientNonce serverNonce : Bytes) (iterations : Int32) :
    let ck := clientKey ssl (saltedPassword ssl password salt iterations)
    let sk := storedKey ssl ck
    let sig := clientSignature ssl sk
      (authMessage toBase64 number username clientNonce serverNonce salt iterations)
    let proof := xorBytes ck sig
    proof.length = 32 ∧ xorBytes proof sig = ck ∧
      constantTimeEquals (storedKey ssl (xorBytes proof sig)) sk = true ∧
      (∀ candidate candidate', candidate.length = 32 → candidate'.length = 32 →
        candidate ≠ candidate' → xorBytes candidate sig ≠ xorBytes candidate' sig) ∧
      ∀ candidate, candidate.length = 32 → (xorBytes candidate sig = ck ↔ candidate = proof) := by
  intro ck sk sig proof
  have hck : ck.length = 32 := length_hmac h _ _
  have hsig : sig.length = 32 := length_hmac h _ _
  have hlen : ck.length = sig.length := hck.trans hsig.symm
  have hproof : proof.length = 32 := (length_xorBytes hlen).trans hck
  have hrecover : xorBytes proof sig = ck := xorBytes_cancel hlen
  refine ⟨hproof, hrecover, ?_, ?_, ?_⟩
  · rw [hrecover]
    exact constantTimeEquals_self sk
  · intro candidate candidate' hc hc' hne heq
    exact hne (xorBytes_right_inj (hc.trans hsig.symm) (hc'.trans hsig.symm) heq)
  · intro candidate hc
    constructor
    · intro heq
      exact xorBytes_right_inj (hc.trans hsig.symm) (hproof.trans hsig.symm)
        (heq.trans hrecover.symm)
    · rintro rfl
      exact hrecover

end

theorem proof_recovers_clientKey_libcrypto :
    let ck := clientKey libcrypto (saltedPassword libcrypto (ascii "pencil") (ascii "salt") 4096)
    let sk := storedKey libcrypto ck
    let sig := clientSignature libcrypto sk (authMessage Base64.encode
      (fun i => decimalInt i.toInt) (ascii "user") (ascii "rOprNGfw") (ascii "0123abcd")
      (ascii "salt") 4096)
    libcrypto.Works ∧ (xorBytes ck sig).length = 32 ∧ xorBytes (xorBytes ck sig) sig = ck ∧
      constantTimeEquals (storedKey libcrypto (xorBytes (xorBytes ck sig) sig)) sk = true := by
  obtain ⟨hlen, hrecover, heq, -⟩ := proof_recovers_clientKey Base64.encode
    (fun i => decimalInt i.toInt) works_libcrypto (ascii "pencil") (ascii "salt") (ascii "user")
    (ascii "rOprNGfw") (ascii "0123abcd") 4096
  exact ⟨works_libcrypto, hlen, hrecover, heq⟩

end PhiTransport.Scram

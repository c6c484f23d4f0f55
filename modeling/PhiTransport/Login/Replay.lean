import PhiTransport.Login.Keys
import PhiTransport.Login.Transcript

/-!
# A recorded proof

A proof crosses the wire and may be recorded. It is checked against a transcript
that a fresh nonce goes into, so it opens the login it was made for and no
other, unless two inputs of one of the hashes meet. The two inputs are named in
every statement: of a function from all texts to 32 bytes some always do.
-/

namespace PhiTransport.Scram

open Octets

/-! ## The check -/

/-- What a login is about: what both sides put into the transcript. -/
structure Challenge where
  username : Bytes
  clientNonce : Bytes
  serverNonce : Bytes
  salt : Bytes
  iterations : Int32

/-- Two inputs of `f` that meet. -/
def Collision (f : Bytes → Bytes) (a b : Bytes) : Prop := a ≠ b ∧ f a = f b

section

variable (ssl : OpenSsl)

/-- The client key that a proof gives back under a transcript. -/
def recoveredKey (stored authMessage proof : Bytes) : Bytes :=
  xorBytes proof (clientSignature ssl stored authMessage)

/-- The server's check of a proof: hash what it gives back, compare. -/
def acceptsProof (stored authMessage proof : Bytes) : Bool :=
  constantTimeEquals (storedKey ssl (recoveredKey ssl stored authMessage proof)) stored

variable {ssl} {stored ck message message' proof : Bytes}

theorem acceptsProof_iff :
    acceptsProof ssl stored message proof = true ↔
      storedKey ssl (recoveredKey ssl stored message proof) = stored := by
  unfold acceptsProof
  constructor
  · intro h
    by_cases hlen : (storedKey ssl (recoveredKey ssl stored message proof)).length = stored.length
    · rw [constantTimeEquals, if_neg (not_not.mpr hlen), beq_iff_eq] at h
      exact (diffOf_eq_zero_iff hlen).mp h
    · rw [constantTimeEquals, if_pos hlen] at h
      exact absurd h Bool.false_ne_true
  · intro h
    rw [h]
    exact constantTimeEquals_self stored

/-- An accepted proof gives back the key, or another input with its hash. -/
theorem recoveredKey_of_accepts
    (h : acceptsProof ssl (storedKey ssl ck) message proof = true) :
    recoveredKey ssl (storedKey ssl ck) message proof = ck ∨
      Collision (storedKey ssl) (recoveredKey ssl (storedKey ssl ck) message proof) ck := by
  by_cases hkey : recoveredKey ssl (storedKey ssl ck) message proof = ck
  · exact Or.inl hkey
  · exact Or.inr ⟨hkey, acceptsProof_iff.mp h⟩

/-- Only the proof the client computes gives the client key back. -/
theorem recoveredKey_eq_iff (hssl : ssl.Works) (hck : ck.length = sha256DigestLength) :
    recoveredKey ssl stored message proof = ck ↔
      proof = xorBytes ck (clientSignature ssl stored message) := by
  have hsig : (clientSignature ssl stored message).length = sha256DigestLength :=
    length_hmac hssl _ _
  constructor
  · intro h
    have hlen : proof.length = (clientSignature ssl stored message).length := by
      by_contra hne
      rw [recoveredKey, xorBytes, if_pos hne] at h
      rw [← h] at hck
      exact absurd hck (by decide)
    rw [← h, recoveredKey, xorBytes_cancel hlen]
  · intro h
    rw [h, recoveredKey, xorBytes_cancel (hck.trans hsig.symm)]

end

theorem xorBytes_comm (lhs rhs : Bytes) : xorBytes lhs rhs = xorBytes rhs lhs := by
  have hbyte : ∀ a b : UInt8, a ^^^ b = b ^^^ a := UInt8.xor_comm
  unfold xorBytes
  by_cases h : lhs.length = rhs.length
  · rw [if_neg (not_not.mpr h), if_neg (not_not.mpr h.symm), List.zipWith_comm]
    simp only [hbyte]
  · rw [if_pos h, if_pos (Ne.symm h)]

/-! ## Fresh nonces -/

section

variable {toBase64 : Bytes → Bytes} {number : Int32 → Bytes}

variable (toBase64 number) in
/-- The transcript of a login. -/
def Challenge.authMessage (c : Challenge) : Bytes :=
  Scram.authMessage toBase64 number c.username c.clientNonce c.serverNonce c.salt c.iterations

/-- The transcript shows the server's nonce, whatever else is in it. -/
theorem serverNonce_of_authMessage (hsalt : ∀ t, comma ∉ toBase64 t) (hiter : ∀ i, comma ∉ number i)
    {c c' : Challenge} (hserver : comma ∉ c.serverNonce) (hserver' : comma ∉ c'.serverNonce)
    (h : c.authMessage toBase64 number = c'.authMessage toBase64 number) :
    c.serverNonce = c'.serverNonce := by
  unfold Challenge.authMessage at h
  rw [authMessage_eq, authMessage_eq] at h
  obtain ⟨-, h⟩ := append_cons_inj_of_notMem (comma_notMem_escapeUsername _)
    (comma_notMem_escapeUsername _) (List.append_cancel_left h)
  have h := List.append_cancel_left h
  have hcount : c.clientNonce.count comma = c'.clientNonce.count comma := by
    have hbiws : (ascii ",c=biws").count comma = 1 := by decide
    have hr : (ascii "r=").count comma = 0 := by decide
    have hall := congrArg (List.count comma) h
    simp only [List.count_append, List.count_cons_self,
      count_comma_signedFields hserver (hsalt _) (hiter _),
      count_comma_signedFields hserver' (hsalt _) (hiter _), hbiws, hr,
      List.count_eq_zero.mpr hserver, List.count_eq_zero.mpr hserver'] at hall
    omega
  obtain ⟨hfields, hlast⟩ := append_cons_inj_of_count h (by
    simp only [List.count_append, List.count_eq_zero.mpr hserver,
      List.count_eq_zero.mpr hserver', hcount])
  have hcombined := List.append_cancel_left hlast
  have hfields := List.append_cancel_right hfields
  rw [hcombined] at hfields
  have hclient := (signedFields_inj (hsalt _) (hsalt _) (hiter _) (hiter _) hfields).1
  rw [hclient] at hcombined
  exact List.append_cancel_left hcombined

variable {ssl : OpenSsl} {ck proof : Bytes}

/-- A proof accepted under two transcripts is the same one twice: then the
signatures under it are the same. -/
theorem signature_eq_of_accepts (hssl : ssl.Works) (hck : ck.length = sha256DigestLength)
    {stored message message' : Bytes} (h : recoveredKey ssl stored message proof = ck)
    (h' : recoveredKey ssl stored message' proof = ck) :
    clientSignature ssl stored message = clientSignature ssl stored message' := by
  have hsig : ∀ m, (clientSignature ssl stored m).length = sha256DigestLength :=
    fun m => length_hmac hssl _ _
  have hproof : proof.length = sha256DigestLength := by
    rw [(recoveredKey_eq_iff hssl hck).mp h, length_xorBytes (hck.trans (hsig _).symm), hck]
  have hsame : xorBytes (clientSignature ssl stored message) proof =
      xorBytes (clientSignature ssl stored message') proof := by
    rw [xorBytes_comm _ proof, xorBytes_comm _ proof]
    exact h.trans h'.symm
  exact xorBytes_right_inj ((hsig _).trans hproof.symm) ((hsig _).trans hproof.symm) hsame

theorem length_le_one_or_pair {α : Type} {R : α → α → Prop} {l : List α} (h : l.Pairwise R) :
    l.length ≤ 1 ∨ ∃ a ∈ l, ∃ b ∈ l, R a b := by
  match l with
  | [] => exact Or.inl (Nat.zero_le 1)
  | [a] => exact Or.inl (Nat.le_refl 1)
  | a :: b :: rest => exact Or.inr ⟨a, by simp, b, by simp, List.rel_of_pairwise_cons h (by simp)⟩

theorem collision_of_accepted_twice (hssl : ssl.Works) (hck : ck.length = sha256DigestLength)
    {message message' : Bytes} (hne : message ≠ message')
    (h : acceptsProof ssl (storedKey ssl ck) message proof = true)
    (h' : acceptsProof ssl (storedKey ssl ck) message' proof = true) :
    Collision (storedKey ssl) (recoveredKey ssl (storedKey ssl ck) message proof) ck ∨
      Collision (storedKey ssl) (recoveredKey ssl (storedKey ssl ck) message' proof) ck ∨
      Collision (clientSignature ssl (storedKey ssl ck)) message message' := by
  rcases recoveredKey_of_accepts h with hkey | hcollision
  · rcases recoveredKey_of_accepts h' with hkey' | hcollision
    · exact Or.inr (Or.inr ⟨hne, signature_eq_of_accepts hssl hck hkey hkey'⟩)
    · exact Or.inr (Or.inl hcollision)
  · exact Or.inl hcollision

/-- **A recorded proof is worthless** under a fresh nonce. Of any number of
challenges whose nonces are core's and all different, it is accepted for at most
one; or it hits a second input with the hash of the client key, or two of the
transcripts have one signature. An accepted proof is otherwise the client's own,
and the server's signature tells the challenges apart in the same way. -/
theorem recorded_proof_opens_one (hssl : ssl.Works)
    (hletters : ∀ t, ∀ b ∈ toBase64 t, Base64.isBase64 b = true)
    (hnumber : ∀ i, number i = decimalInt i.toInt) (hck : ck.length = sha256DigestLength)
    {challenges : List Challenge}
    (hnonces : ∀ c ∈ challenges, isPlausibleNonce c.serverNonce = true)
    (hfresh : challenges.Pairwise fun c c' => c.serverNonce ≠ c'.serverNonce) (proof : Bytes) :
    let stored := storedKey ssl ck
    let message := Challenge.authMessage toBase64 number
    ((challenges.filter fun c => acceptsProof ssl stored (message c) proof).length ≤ 1 ∨
      (∃ c ∈ challenges,
        Collision (storedKey ssl) (recoveredKey ssl stored (message c) proof) ck) ∨
      ∃ c ∈ challenges, ∃ c' ∈ challenges,
        Collision (clientSignature ssl stored) (message c) (message c')) ∧
    (∀ c, acceptsProof ssl stored (message c) proof = true →
      proof = xorBytes ck (clientSignature ssl stored (message c)) ∨
        Collision (storedKey ssl) (recoveredKey ssl stored (message c) proof) ck) ∧
    ∀ serverKey, (∃ c ∈ challenges, ∃ c' ∈ challenges,
        Collision (serverSignature ssl serverKey) (message c) (message c')) ∨
      (challenges.map fun c => serverSignature ssl serverKey (message c)).Nodup := by
  intro stored message
  have hsalt : ∀ t, comma ∉ toBase64 t := fun t hmem =>
    absurd (hletters t comma hmem) (by decide)
  have hiter : ∀ i, comma ∉ number i := by
    intro i hmem
    rw [hnumber] at hmem
    exact comma_notMem_decimalInt _ hmem
  have hapart : ∀ c ∈ challenges, ∀ c' ∈ challenges, c.serverNonce ≠ c'.serverNonce →
      message c ≠ message c' := by
    intro c hc c' hc' hne heq
    exact hne (serverNonce_of_authMessage hsalt hiter
      (comma_notMem_of_isPlausibleNonce (hnonces c hc))
      (comma_notMem_of_isPlausibleNonce (hnonces c' hc')) heq)
  refine ⟨?_, ?_, ?_⟩
  · rcases length_le_one_or_pair
        (hfresh.filter fun c => acceptsProof ssl stored (message c) proof) with
      hone | ⟨c, hc, c', hc', hne⟩
    · exact Or.inl hone
    · -- two challenges are opened by one proof
      right
      obtain ⟨hmem, haccept⟩ := List.mem_filter.mp hc
      obtain ⟨hmem', haccept'⟩ := List.mem_filter.mp hc'
      rcases collision_of_accepted_twice hssl hck (hapart c hmem c' hmem' hne) haccept haccept'
        with hcollision | hcollision | hcollision
      · exact Or.inl ⟨c, hmem, hcollision⟩
      · exact Or.inl ⟨c', hmem', hcollision⟩
      · exact Or.inr ⟨c, hmem, c', hmem', hcollision⟩
  · intro c haccept
    rcases recoveredKey_of_accepts haccept with hkey | hcollision
    · exact Or.inl ((recoveredKey_eq_iff hssl hck).mp hkey)
    · exact Or.inr hcollision
  · intro serverKey
    by_cases hmeet : ∃ c ∈ challenges, ∃ c' ∈ challenges,
        Collision (serverSignature ssl serverKey) (message c) (message c')
    · exact Or.inl hmeet
    · right
      refine List.pairwise_map.mpr (hfresh.imp_of_mem ?_)
      intro c c' hc hc' hne heq
      exact hmeet ⟨c, hc, c', hc', hapart c hc c' hc' hne, heq⟩

end

/-- A challenge for one user, under the nonce core picked. -/
def sampleChallenge (serverNonce : Bytes) : Challenge :=
  ⟨ascii "user", ascii "rOprNGfw", serverNonce, ascii "salt", 4096⟩

def sampleChallenges : List Challenge :=
  [sampleChallenge (ascii "0123456789abcdef0123456789abcdef"),
    sampleChallenge (ascii "fedcba9876543210fedcba9876543210")]

theorem recorded_proof_opens_one_libcrypto :
    let ck := clientKey libcrypto (saltedPassword libcrypto (ascii "pencil") (ascii "salt") 4096)
    let stored := storedKey libcrypto ck
    let message := Challenge.authMessage Base64.encode fun i => decimalInt i.toInt
    let proof := xorBytes ck (clientSignature libcrypto stored
      (message (sampleChallenge (ascii "0123456789abcdef0123456789abcdef"))))
    acceptsProof libcrypto stored
        (message (sampleChallenge (ascii "0123456789abcdef0123456789abcdef"))) proof = true ∧
      ((sampleChallenges.filter fun c =>
          acceptsProof libcrypto stored (message c) proof).length ≤ 1 ∨
        (∃ c ∈ sampleChallenges,
          Collision (storedKey libcrypto) (recoveredKey libcrypto stored (message c) proof) ck) ∨
        ∃ c ∈ sampleChallenges, ∃ c' ∈ sampleChallenges,
          Collision (clientSignature libcrypto stored) (message c) (message c')) := by
  intro ck stored message proof
  have hck : ck.length = sha256DigestLength := length_hmac works_libcrypto _ _
  refine ⟨?_, ?_⟩
  · rw [acceptsProof_iff, (recoveredKey_eq_iff works_libcrypto hck).mpr rfl]
  · refine (recorded_proof_opens_one works_libcrypto (fun _ _ => Base64.isBase64_of_mem_encode)
      (fun _ => rfl) hck ?_ ?_ proof).1
    · intro c hc
      rcases List.mem_pair.mp hc with rfl | rfl
      · decide
      · decide
    · exact List.pairwise_pair.mpr (by decide)

end PhiTransport.Scram

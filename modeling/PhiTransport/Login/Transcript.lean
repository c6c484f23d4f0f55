import PhiTransport.Api.Scram
import PhiTransport.Base.Base64

/-!
# The transcript identifies the login

The client nonce is neither escaped nor bounded and occurs three times, so the
transcript cannot be read from the left past the username. It is read from the
right: the number of commas fixes how many the client nonce has, that many
follow the last field boundary, and from there every field ends at a known
comma.
-/

namespace PhiTransport.Scram

open Octets

/-- The byte that ends a field. -/
def comma : UInt8 := 0x2C

/-! ## The username -/

theorem comma_notMem_escapedByte (c : UInt8) : comma ∉ escapedByte c := by
  unfold escapedByte
  by_cases hcomma : c = 0x2C
  · rw [if_pos hcomma]
    decide
  · by_cases hequals : c = 0x3D
    · rw [if_neg hcomma, if_pos hequals]
      decide
    · rw [if_neg hcomma, if_neg hequals, List.mem_singleton]
      exact Ne.symm hcomma

theorem comma_notMem_escapeUsername (username : Bytes) : comma ∉ escapeUsername username := by
  intro h
  obtain ⟨c, -, hc⟩ := List.mem_flatMap.mp h
  exact comma_notMem_escapedByte c hc

/-- The escape of a byte shows the byte, whatever follows. -/
theorem escapedByte_append_inj {c c' : UInt8} {s t : Bytes}
    (h : escapedByte c ++ s = escapedByte c' ++ t) : c = c' ∧ s = t := by
  unfold escapedByte at h
  split_ifs at h with h₁ h₂ h₃ h₄ h₅ <;> simp_all [ascii]

theorem escapedByte_ne_nil (c : UInt8) : escapedByte c ≠ [] := by
  unfold escapedByte
  split_ifs <;> simp [ascii]

theorem escapeUsername_inj {username username' : Bytes}
    (h : escapeUsername username = escapeUsername username') : username = username' := by
  have hnil : ∀ {c : UInt8} {t : Bytes}, escapeUsername (c :: t) ≠ [] := by
    intro c t hnil
    rw [escapeUsername, List.flatMap_cons, List.append_eq_nil_iff] at hnil
    exact escapedByte_ne_nil c hnil.1
  induction username generalizing username' with
  | nil =>
      cases username' with
      | nil => rfl
      | cons c t => exact absurd h.symm hnil
  | cons c s ih =>
      cases username' with
      | nil => exact absurd h hnil
      | cons c' t =>
          rw [escapeUsername, List.flatMap_cons, escapeUsername, List.flatMap_cons] at h
          obtain ⟨hc, ht⟩ := escapedByte_append_inj h
          rw [hc, ih ht]

/-! ## The fields -/

section

variable {toBase64 : Bytes → Bytes} {number : Int32 → Bytes}

theorem comma_notMem_decimalInt (i : ℤ) : comma ∉ decimalInt i := by
  have hdigit : ∀ n, comma ∉ decimal n := fun n hmem =>
    absurd (isDigit_of_mem_decimal hmem) (by decide)
  unfold decimalInt
  by_cases hi : i < 0
  · rw [if_pos hi, List.mem_cons, not_or]
    exact ⟨by decide, hdigit _⟩
  · rw [if_neg hi]
    exact hdigit _

/-- The transcript after the username, without the last field. -/
def signedFields (clientNonce combined salt iterations : Bytes) : Bytes :=
  clientNonce ++ ascii ",r=" ++ combined ++ ascii ",s=" ++ salt ++ ascii ",i=" ++ iterations

theorem authMessage_eq (username clientNonce serverNonce salt : Bytes) (iterations : Int32) :
    authMessage toBase64 number username clientNonce serverNonce salt iterations =
      ascii "n=" ++ (escapeUsername username ++ comma :: (ascii "r=" ++
        ((signedFields clientNonce (clientNonce ++ serverNonce) (toBase64 salt)
          (number iterations) ++ ascii ",c=biws") ++
          comma :: (ascii "r=" ++ (clientNonce ++ serverNonce))))) := by
  simp [authMessage, signedFields, ascii, comma]

theorem count_comma_signedFields {clientNonce serverNonce salt iterations : Bytes}
    (hserver : comma ∉ serverNonce) (hsalt : comma ∉ salt) (hiter : comma ∉ iterations) :
    (signedFields clientNonce (clientNonce ++ serverNonce) salt iterations).count comma =
      2 * clientNonce.count comma + 3 := by
  have hr : (ascii ",r=").count comma = 1 := by decide
  have hs : (ascii ",s=").count comma = 1 := by decide
  have hi : (ascii ",i=").count comma = 1 := by decide
  simp only [signedFields, List.count_append, hr, hs, hi, List.count_eq_zero.mpr hserver,
    List.count_eq_zero.mpr hsalt, List.count_eq_zero.mpr hiter]
  omega

/-- Fields before the last determine each other once the nonces agree. -/
theorem signedFields_inj {clientNonce clientNonce' combined salt salt' iterations iterations' : Bytes}
    (hsalt : comma ∉ salt) (hsalt' : comma ∉ salt')
    (hiter : comma ∉ iterations) (hiter' : comma ∉ iterations')
    (h : signedFields clientNonce combined salt iterations =
      signedFields clientNonce' combined salt' iterations') :
    clientNonce = clientNonce' ∧ salt = salt' ∧ iterations = iterations' := by
  have hzero : ∀ {key value : Bytes}, comma ∉ key → comma ∉ value →
      (key ++ value).count comma = 0 := by
    intro key value hkey hvalue
    rw [List.count_append, List.count_eq_zero.mpr hkey, List.count_eq_zero.mpr hvalue]
  have hi : comma ∉ ascii "i=" := by decide
  have hs : comma ∉ ascii "s=" := by decide
  have split : ∀ clientNonce salt iterations : Bytes,
      signedFields clientNonce combined salt iterations =
        (clientNonce ++ ascii ",r=" ++ combined ++ comma :: (ascii "s=" ++ salt)) ++
          comma :: (ascii "i=" ++ iterations) := by
    intro clientNonce salt iterations
    simp [signedFields, ascii, comma]
  rw [split, split] at h
  obtain ⟨h, hiterations⟩ := append_cons_inj_of_count h
    ((hzero hi hiter).trans (hzero hi hiter').symm)
  obtain ⟨h, hsalts⟩ := append_cons_inj_of_count h ((hzero hs hsalt).trans (hzero hs hsalt').symm)
  exact ⟨List.append_cancel_right (List.append_cancel_right h), List.append_cancel_left hsalts,
    List.append_cancel_left hiterations⟩

/-- Core's nonces hold no comma. -/
theorem comma_notMem_of_isPlausibleNonce {nonce : Bytes} (h : isPlausibleNonce nonce = true) :
    comma ∉ nonce := by
  intro hmem
  unfold isPlausibleNonce at h
  split at h
  · exact absurd h Bool.false_ne_true
  · rw [List.all_eq_true] at h
    exact absurd (h comma hmem) (by decide)

/-- **The transcript identifies the login.** With server nonces that hold no
comma, equal transcripts come from equal logins, whatever the other side put
into its nonce. -/
theorem authMessage_inj (hbase64 : Function.Injective toBase64)
    (hletters : ∀ t, ∀ b ∈ toBase64 t, Base64.isBase64 b = true)
    (hnumber : ∀ i, number i = decimalInt i.toInt)
    {username clientNonce serverNonce salt username' clientNonce' serverNonce' salt' : Bytes}
    {iterations iterations' : Int32} (hserver : comma ∉ serverNonce)
    (hserver' : comma ∉ serverNonce')
    (h : authMessage toBase64 number username clientNonce serverNonce salt iterations =
      authMessage toBase64 number username' clientNonce' serverNonce' salt' iterations') :
    username = username' ∧ clientNonce = clientNonce' ∧ serverNonce = serverNonce' ∧
      salt = salt' ∧ iterations = iterations' := by
  have hsalt : ∀ t, comma ∉ toBase64 t := fun t hmem => by
    have := hletters t comma hmem
    exact absurd this (by decide)
  have hiter : ∀ i, comma ∉ number i := by
    intro i hmem
    rw [hnumber] at hmem
    exact absurd hmem (comma_notMem_decimalInt _)
  rw [authMessage_eq, authMessage_eq] at h
  obtain ⟨huser, h⟩ := append_cons_inj_of_notMem (comma_notMem_escapeUsername _)
    (comma_notMem_escapeUsername _) (List.append_cancel_left h)
  have h := List.append_cancel_left h
  -- the commas of the whole give those of the client nonce
  have hcount : clientNonce.count comma = clientNonce'.count comma := by
    have hc : (ascii ",c=biws").count comma = 1 := by decide
    have hr : (ascii "r=").count comma = 0 := by decide
    have := congrArg (List.count comma) h
    simp only [List.count_append, List.count_cons_self,
      count_comma_signedFields hserver (hsalt _) (hiter _),
      count_comma_signedFields hserver' (hsalt _) (hiter _), hc, hr,
      List.count_eq_zero.mpr hserver, List.count_eq_zero.mpr hserver'] at this
    omega
  obtain ⟨hfields, hlast⟩ := append_cons_inj_of_count h (by
    simp only [List.count_append, List.count_eq_zero.mpr hserver,
      List.count_eq_zero.mpr hserver', hcount])
  have hcombined := List.append_cancel_left hlast
  have hfields := List.append_cancel_right hfields
  rw [hcombined] at hfields
  obtain ⟨hclient, hsalts, hnumbers⟩ :=
    signedFields_inj (hsalt _) (hsalt _) (hiter _) (hiter _) hfields
  rw [hclient] at hcombined
  rw [hnumber, hnumber] at hnumbers
  exact ⟨escapeUsername_inj huser, hclient, List.append_cancel_left hcombined, hbase64 hsalts,
    Int32.toInt_inj.mp (decimalInt_inj hnumbers)⟩

end

/-- A client nonce that imitates the fields around it is not mistaken for them. -/
theorem authMessage_ne_of_imitation :
    authMessage Base64.encode (fun i => decimalInt i.toInt) (ascii "user") (ascii "a,r=ab,s=")
        (ascii "0123456789abcdef0123456789abcdef") (ascii "W") 4096 ≠
      authMessage Base64.encode (fun i => decimalInt i.toInt) (ascii "user") (ascii "a")
        (ascii "0123456789abcdef0123456789abcdef") (ascii "W") 4096 := by
  intro h
  have hserver : comma ∉ ascii "0123456789abcdef0123456789abcdef" :=
    comma_notMem_of_isPlausibleNonce (by decide)
  have hclient := (authMessage_inj Base64.encode_injective
    (fun _ _ => Base64.isBase64_of_mem_encode) (fun _ => rfl) hserver hserver h).2.1
  exact absurd hclient (by decide)

end PhiTransport.Scram

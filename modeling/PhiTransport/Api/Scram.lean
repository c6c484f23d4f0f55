import PhiTransport.Base.Octets

/-!
# SCRAM-SHA-256

Both halves of the login. libcrypto is a parameter: each call writes a digest
or reports failure, and nothing more is known of it here. The two functions of
`phi::str` that the transcript uses are parameters as well.
-/

namespace PhiTransport.Scram

open Octets

/-- The calls into libcrypto: the bytes a call writes, `none` where it reports
failure. Lengths are passed the way the source passes them, as `int`. -/
structure OpenSsl where
  hmac (key : Bytes) (keyLen : Int32) (message : Bytes) : Option Bytes
  evpDigest (data : Bytes) : Option Bytes
  pkcs5Pbkdf2Hmac (pass : Bytes) (passLen : Int32) (salt : Bytes) (saltLen iter keyLen : Int32) :
    Option Bytes

def kKeyBytes : Int32 := 32
def sha256DigestLength : ℕ := 32

/-- `static_cast<int>` of a length. -/
def intLength (t : Bytes) : Int32 := Int32.ofNat t.length

/-! ## Keys -/

section

variable (ssl : OpenSsl)

/-- The digest a call wrote; empty when it failed or wrote another length. -/
def digestOrEmpty : Option Bytes → Bytes
  | none => []
  | some written => if written.length ≠ sha256DigestLength then [] else written

def hmac (key message : Bytes) : Bytes := digestOrEmpty (ssl.hmac key (intLength key) message)

/-- Empty when OpenSSL fails or the rounds are not positive. -/
def saltedPassword (password salt : Bytes) (iterations : Int32) : Bytes :=
  if iterations ≤ 0 then []
  else
    (ssl.pkcs5Pbkdf2Hmac password (intLength password) salt (intLength salt) iterations
      kKeyBytes).getD []

def clientKey (saltedPassword : Bytes) : Bytes := hmac ssl saltedPassword (ascii "Client Key")

def storedKey (clientKey : Bytes) : Bytes := digestOrEmpty (ssl.evpDigest clientKey)

def serverKey (saltedPassword : Bytes) : Bytes := hmac ssl saltedPassword (ascii "Server Key")

def clientSignature (storedKey authMessage : Bytes) : Bytes := hmac ssl storedKey authMessage

def serverSignature (serverKey authMessage : Bytes) : Bytes := hmac ssl serverKey authMessage

end

/-- Empty when the two differ in length. -/
def xorBytes (lhs rhs : Bytes) : Bytes :=
  if lhs.length ≠ rhs.length then [] else List.zipWith (fun a b => a ^^^ b) lhs rhs

/-! ## The transcript -/

/-- What one byte of a username contributes to the `n=` field. -/
def escapedByte (c : UInt8) : Bytes :=
  if c = 0x2C then ascii "=2C" else if c = 0x3D then ascii "=3D" else [c]

def escapeUsername (username : Bytes) : Bytes := username.flatMap escapedByte

/-- The transcript both sides sign, from the fields that crossed as JSON. -/
def authMessage (toBase64 : Bytes → Bytes) (number : Int32 → Bytes)
    (username clientNonce serverNonce salt : Bytes) (iterations : Int32) : Bytes :=
  let combined := clientNonce ++ serverNonce
  let clientFirstBare := ascii "n=" ++ escapeUsername username ++ ascii ",r=" ++ clientNonce
  let serverFirst :=
    ascii "r=" ++ combined ++ ascii ",s=" ++ toBase64 salt ++ ascii ",i=" ++ number iterations
  let clientFinalNoProof := ascii "c=biws,r=" ++ combined
  clientFirstBare ++ [0x2C] ++ serverFirst ++ [0x2C] ++ clientFinalNoProof

/-! ## Checks -/

/-- The accumulator of the comparison loop: every xor is or-ed into it. -/
def diffOf (lhs rhs : Bytes) : UInt8 :=
  (lhs.zip rhs).foldl (fun diff p => diff ||| (p.1 ^^^ p.2)) 0

def constantTimeEquals (lhs rhs : Bytes) : Bool :=
  if lhs.length ≠ rhs.length then false else diffOf lhs rhs == 0

/-- Lowercase hex, between 32 and 128 digits. -/
def isPlausibleNonce (nonce : Bytes) : Bool :=
  if nonce.length < 32 ∨ nonce.length > 128 then false
  else nonce.all fun c => (0x30 ≤ c && c ≤ 0x39) || (0x61 ≤ c && c ≤ 0x66)

end PhiTransport.Scram

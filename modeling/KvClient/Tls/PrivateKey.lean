import KvClient.Tls.Der
import KvClient.Tls.Pem

/-!
# Private keys

Whether a section holds a key that can sign: an RSA key, a key on an elliptic curve, or an Ed25519
key, either in the form of its own kind or wrapped with the name of its algorithm.
-/

namespace KvClient.Tls.PrivateKey

open Der

/-! ## Names of algorithms -/

/-- RSA. -/
def rsa : Bytes := [0x2A, 0x86, 0x48, 0x86, 0xF7, 0x0D, 0x01, 0x01, 0x01]

/-- Keys on elliptic curves. -/
def ellipticCurve : Bytes := [0x2A, 0x86, 0x48, 0xCE, 0x3D, 0x02, 0x01]

/-- Ed25519. -/
def ed25519 : Bytes := [0x2B, 0x65, 0x70]

/-- The curves, and the sizes of their keys. -/
def curves : List (Bytes × Nat) :=
  [([0x2A, 0x86, 0x48, 0xCE, 0x3D, 0x03, 0x01, 0x07], 32),
   ([0x2B, 0x81, 0x04, 0x00, 0x22], 48),
   ([0x2B, 0x81, 0x04, 0x00, 0x23], 66)]

/-! ## Forms -/

/-- Whether bytes are an RSA key. -/
def isRsaKey (bytes : Bytes) : Bool :=
  match sequence? bytes with
  | some (version :: rest) =>
    version == ⟨integer, [0]⟩ && haveTags (List.replicate 8 integer) rest
  | _ => false

/-- The curve of a key, if the key names it. -/
def namedCurve? (optional : List Element) : Option Bytes :=
  match optional.find? (·.tag == field 0) with
  | some e =>
    match elements? e.content with
    | some [name] => if name.tag = objectIdentifier then some name.content else none
    | _ => none
  | none => none

/-- Whether bytes are a key on a curve, which the key names itself unless `curve?` does. -/
def isCurveKey (curve? : Option Bytes) (bytes : Bytes) : Bool :=
  match sequence? bytes with
  | some (version :: secret :: optional) =>
    let curve? := curve?.or (namedCurve? optional)
    version == ⟨integer, [1]⟩ && secret.tag == octetString &&
    curves.any (fun (name, size) => curve? == some name && secret.content.length == size)
  | _ => false

/-- Whether bytes are an Ed25519 key. -/
def isEdwardsKey (bytes : Bytes) : Bool :=
  match elements? bytes with
  | some [e] => e.tag == octetString && e.content.length == 32
  | _ => false

/-- Whether bytes are a key wrapped with the name of its algorithm. -/
def isWrappedKey (bytes : Bytes) : Bool :=
  match sequence? bytes with
  | some (version :: algorithm :: key :: _) =>
    (version == ⟨integer, [0]⟩ || version == ⟨integer, [1]⟩) &&
    algorithm.tag == sequence && key.tag == octetString &&
    match elements? algorithm.content with
    | some (name :: parameters) =>
      if name.content = rsa then isRsaKey key.content
      else if name.content = ellipticCurve then
        match parameters with
        | [curve] => isCurveKey (some curve.content) key.content
        | _ => false
      else if name.content = ed25519 then isEdwardsKey key.content
      else false
    | _ => false
  | _ => false

/-- Whether a section holds a key in the form that its label announces. -/
def isWellFormed (s : Pem.Section) : Bool :=
  match s.kind with
  | .privateKey => isWrappedKey s.content
  | .ecKey => isCurveKey none s.content || isWrappedKey s.content
  | .rsaKey => isRsaKey s.content
  | _ => false

end KvClient.Tls.PrivateKey

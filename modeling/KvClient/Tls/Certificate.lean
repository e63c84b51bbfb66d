import KvClient.Tls.Der

/-!
# Certificates

Whether bytes have the outer form of a certificate of version three.  Neither the signature nor the
dates are checked.
-/

namespace KvClient.Tls.Certificate

open Der

/-- The version field of a certificate of version three. -/
def isVersion3 (e : Element) : Bool :=
  e.tag == field 0 && elements? e.content == some [⟨integer, [2]⟩]

/-- Whether a sequence holds a start and an end of validity. -/
def isValidity (e : Element) : Bool :=
  let isTime (t : Element) : Bool := t.tag == utcTime || t.tag == generalizedTime
  match elements? e.content with
  | some [start, stop] => isTime start && isTime stop
  | _ => false

/-- Whether a sequence holds an algorithm and a key. -/
def isPublicKey (e : Element) : Bool :=
  match elements? e.content with
  | some es => haveTags [sequence, bitString] es
  | none => false

/-- Whether a sequence holds the signed part of a certificate. -/
def isBody (e : Element) : Bool :=
  match elements? e.content with
  | some (version :: serial :: algorithm :: issuer :: validity :: subject :: key :: optional) =>
    isVersion3 version && haveTags [integer, sequence, sequence, sequence, sequence, sequence]
      [serial, algorithm, issuer, validity, subject, key] &&
    isValidity validity && isPublicKey key &&
    optional.all (fun e => e.tag == 0x81 || e.tag == 0x82 || e.tag == field 3)
  | _ => false

/-- Whether bytes are a certificate. -/
def isWellFormed (bytes : Bytes) : Bool :=
  match sequence? bytes with
  | some [body, algorithm, signature] =>
    haveTags [sequence, sequence, bitString] [body, algorithm, signature] && isBody body
  | _ => false

end KvClient.Tls.Certificate

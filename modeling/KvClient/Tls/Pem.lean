import KvClient.Text.Quoted
import KvClient.Text.Utf8
import KvClient.Tls.Base64

/-!
# PEM sections

A PEM text holds sections of base64 between a line `-----BEGIN label-----` and a line
`-----END label-----`.  Everything outside sections is ignored, and so is what a section with an
unknown label holds.

## How it works

The text is cut into lines, which are taken one at a time.  An opening line starts a new section
even inside one; what the old section held so far then belongs to the new one.
-/

namespace KvClient.Tls.Pem

/-! ## Sections -/

/-- What a section holds. -/
inductive Kind
  | certificate
  | publicKey
  | rsaKey
  | privateKey
  | ecKey
  | revocationList
  | certificateRequest
  deriving Repr, DecidableEq

/-- The label of a kind of section. -/
def Kind.label : Kind → Bytes
  | .certificate => Utf8.encode "CERTIFICATE"
  | .publicKey => Utf8.encode "PUBLIC KEY"
  | .rsaKey => Utf8.encode "RSA PRIVATE KEY"
  | .privateKey => Utf8.encode "PRIVATE KEY"
  | .ecKey => Utf8.encode "EC PRIVATE KEY"
  | .revocationList => Utf8.encode "X509 CRL"
  | .certificateRequest => Utf8.encode "CERTIFICATE REQUEST"

/-- The kind of section of a label. -/
def Kind.ofLabel? (label : Bytes) : Option Kind :=
  [certificate, publicKey, rsaKey, privateKey, ecKey, revocationList, certificateRequest].find?
    (·.label == label)

/-- A section, decoded. -/
structure Section where
  kind : Kind
  content : Bytes
  deriving Repr, DecidableEq

/-- Why a text holds no sections that can be read. -/
inductive Fault
  /-- The text ends inside a section. -/
  | endMissing (label : Bytes)
  /-- An opening line that does not end in five dashes. -/
  | illegalStart (line : Bytes)
  | badBase64 (fault : Base64.Fault)
  deriving Repr, DecidableEq

/-- The wording of a fault. -/
def Fault.message : Fault → String
  | .endMissing label => s!"section end {Text.quote (Utf8.decodeLossy label)} missing"
  | .illegalStart line => s!"illegal section start: {Text.quote (Utf8.decodeLossy line)}"
  | .badBase64 fault => fault.message

/-! ## Lines -/

/-- Whether a byte ends a line. -/
def endsLine (b : UInt8) : Bool := b == 0x0A || b == 0x0D

/-- The lines of a text, each with the byte that ends it. -/
def lines (text : Bytes) : List Bytes := cut [] text
where
  /-- The lines of `rest`, of which the first one starts with `line`, backwards. -/
  cut (line : Bytes) : Bytes → List Bytes
    | [] => if line.isEmpty then [] else [line.reverse]
    | b :: rest => if endsLine b then (b :: line).reverse :: cut [] rest else cut (b :: line) rest

/-- What opening lines start with. -/
def opening : Bytes := Utf8.encode "-----BEGIN "

/-- What the line that closes a section starts with. -/
def closing (label : Bytes) : Bytes := Utf8.encode "-----END " ++ label ++ Utf8.encode "-----"

/-- Takes dashes, spaces and line ends off the front of a line that is read backwards, up to and
including the last dash; returns how many dashes there were, and what is in front of them. -/
def takeDashes (count : Nat) (front : Bytes) : Bytes → Nat × Bytes
  | [] => (count, front)
  | b :: rest =>
    if b = 0x2D then takeDashes (count + 1) rest rest
    else if endsLine b ∨ b = 0x20 then takeDashes count front rest
    else (count, front)

/-- The label of an opening line. -/
def labelOf (line : Bytes) : Except Fault Bytes :=
  let (dashes, front) := takeDashes 0 line.reverse line.reverse
  if dashes = 5 then .ok (front.reverse.drop opening.length) else .error (.illegalStart line)

/-! ## Reading -/

/-- A section that is open. -/
structure Open where
  label : Bytes
  base64 : Bytes

/-- The sections of a list of lines, up to the first fault. -/
def sectionsOf (current : Option Open) : List Bytes → List (Except Fault Section)
  | [] =>
    match current with
    | some o => [.error (.endMissing o.label)]
    | none => []
  | line :: rest =>
    if opening.isPrefixOf line then
      match labelOf line with
      | .error fault => [.error fault]
      | .ok label => sectionsOf (some ⟨label, (current.map Open.base64).getD []⟩) rest
    else
      match current with
      | none => sectionsOf none rest
      | some o =>
        if (closing o.label).isPrefixOf line then
          match Kind.ofLabel? o.label with
          | none => sectionsOf none rest
          | some kind =>
            match Base64.decode o.base64 with
            | .error fault => [.error (.badBase64 fault)]
            | .ok content => .ok ⟨kind, content⟩ :: sectionsOf none rest
        else sectionsOf (some { o with base64 := o.base64 ++ line }) rest

/-- The sections of a text, up to the first fault. -/
def sections (text : Bytes) : List (Except Fault Section) := sectionsOf none (lines text)

/-- The contents of the certificates of a text. -/
def certificates (text : Bytes) : Except Fault (List Bytes) :=
  (sections text).foldr (fun s found =>
    match s with
    | .error fault => .error fault
    | .ok s => if s.kind = .certificate then found.map (s.content :: ·) else found) (.ok [])

/-- The first key of a text. -/
def firstKey? (text : Bytes) : Except Fault (Option Section) :=
  (sections text).foldr (fun s found =>
    match s with
    | .error fault => .error fault
    | .ok s =>
      if s.kind = .privateKey ∨ s.kind = .rsaKey ∨ s.kind = .ecKey then .ok (some s) else found)
    (.ok none)

end KvClient.Tls.Pem

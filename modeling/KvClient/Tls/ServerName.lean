import KvClient.Decimal.Digits
import KvClient.Text.Split

/-!
# Server names

The name that a server's certificate is checked against: an IP address, or a name of dot-separated
labels.
-/

namespace KvClient.Tls.ServerName

open Text (splitOn)

/-! ## Names -/

/-- Letters, digits and underscores. -/
def isLabelChar (c : Char) : Bool := c.isAlphanum || c == '_'

/-- One to 63 characters, of which the first and the last are no hyphens. -/
def isLabel (label : List Char) : Bool :=
  label.length ≤ 63 && label.all (fun c => isLabelChar c || c == '-') &&
  match label with
  | [] => false
  | c :: rest => c != '-' && (c :: rest).getLast? != some '-'

/-- Labels of at most 253 characters in all, of which the last is not a number.  A dot may stand at
the end. -/
def isDomain (name : List Char) : Bool :=
  let labels := splitOn '.' name
  let named := if labels.getLast? = some [] then labels.dropLast else labels
  !name.isEmpty && name.length ≤ 253 && !named.isEmpty && named.all isLabel &&
  !((named.getLastD []).all Char.isDigit)

/-! ## Addresses -/

/-- A number of at most three digits below 256, without leading zeros. -/
def isOctet (s : List Char) : Bool :=
  !s.isEmpty && s.length ≤ 3 && s.all Char.isDigit && Decimal.ofDigits s < 256 &&
  (s.length == 1 || s.head? != some '0')

/-- Four numbers with dots between them. -/
def isIPv4 (s : List Char) : Bool :=
  let parts := splitOn '.' s
  parts.length == 4 && parts.all isOctet

/-- One to four hexadecimal digits. -/
def isGroup (s : List Char) : Bool :=
  !s.isEmpty && s.length ≤ 4 &&
  s.all (fun c => c.isDigit || ('a' ≤ c && c ≤ 'f') || ('A' ≤ c && c ≤ 'F'))

/-- How many groups of 16 bits stand between colons; a group of 32 bits may stand at the end. -/
def groupCount? (s : List Char) : Option Nat :=
  if s.isEmpty then some 0
  else
    let parts := splitOn ':' s
    let last := parts.getLastD []
    if isIPv4 last then
      if parts.dropLast.all isGroup then some (parts.length + 1) else none
    else if parts.all isGroup then some parts.length else none

/-- What stands in front of the first pair of colons, and what stands behind it. -/
def splitPair? : List Char → Option (List Char × List Char)
  | ':' :: ':' :: rest => some ([], rest)
  | c :: rest => (splitPair? rest).map fun (before, behind) => (c :: before, behind)
  | [] => none

/-- Eight groups of 16 bits, of which a run of zeros may be left out. -/
def isIPv6 (s : List Char) : Bool :=
  match splitPair? s with
  | none => groupCount? s == some 8
  | some (before, behind) =>
    match groupCount? before, groupCount? behind with
    | some a, some b => !(before.contains '.') && a + b ≤ 7
    | _, _ => false

/-- Whether a name can be checked against a certificate. -/
def isValid (name : String) : Bool :=
  let s := name.toList
  isIPv4 s || isIPv6 s || isDomain s

end KvClient.Tls.ServerName

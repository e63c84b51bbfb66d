import KvClient.Bytes

/-!
# Base64

Decoding of base64 in which blanks are ignored and the padding at the end is optional.

## How it works

Symbols are gathered in blocks of eight.  A block may hold padding only if no symbol follows it,
and then only in its second half.
-/

namespace KvClient.Tls.Base64

/-- Why bytes are not base64. -/
inductive Fault
  | invalidCharacter (b : UInt8)
  /-- Padding where more symbols follow. -/
  | prematurePadding
  /-- A last group of symbols that stands for no whole number of bytes. -/
  | invalidTrailingPadding
  deriving Repr, DecidableEq

/-- The wording of a fault. -/
def Fault.message : Fault → String
  | .invalidCharacter b => s!"InvalidCharacter({b.toNat})"
  | .prematurePadding => "PrematurePadding"
  | .invalidTrailingPadding => "InvalidTrailingPadding"

/-- What a byte means. -/
inductive Symbol
  | digit (n : Nat)
  | pad
  | blank
  | invalid
  deriving Repr, DecidableEq

/-- The meaning of a byte. -/
def symbol (b : UInt8) : Symbol :=
  if 0x41 ≤ b ∧ b ≤ 0x5A then .digit (b.toNat - 0x41)
  else if 0x61 ≤ b ∧ b ≤ 0x7A then .digit (b.toNat - 0x61 + 26)
  else if 0x30 ≤ b ∧ b ≤ 0x39 then .digit (b.toNat - 0x30 + 52)
  else if b = 0x2B then .digit 62
  else if b = 0x2F then .digit 63
  else if b = 0x3D then .pad
  else if (0x09 ≤ b ∧ b ≤ 0x0D) ∨ b = 0x20 then .blank
  else .invalid

/-- The bytes of a last group of at most four symbols, in which `none` is padding. -/
def decodeGroup : List (Option Nat) → Except Fault Bytes
  | [] => .ok []
  | [some a, some b, some c, some d] =>
    .ok [UInt8.ofNat (a * 4 + b / 16), UInt8.ofNat (b % 16 * 16 + c / 4),
      UInt8.ofNat (c % 4 * 64 + d)]
  | [some a, some b, some c, none] | [some a, some b, some c] =>
    .ok [UInt8.ofNat (a * 4 + b / 16), UInt8.ofNat (b % 16 * 16 + c / 4)]
  | [some a, some b, none, none] | [some a, some b, none] | [some a, some b] =>
    .ok [UInt8.ofNat (a * 4 + b / 16)]
  | _ => .error .invalidTrailingPadding

/-- The bytes of a block of at most eight symbols, of which the first four hold no padding. -/
def decodeBlock (block : List (Option Nat)) : Except Fault Bytes :=
  if block.length ≤ 4 then decodeGroup block
  else if (block.take 4).any Option.isNone then .error .prematurePadding
  else
    match decodeGroup (block.take 4), decodeGroup (block.drop 4) with
    | .ok first, .ok last => .ok (first ++ last)
    | .error fault, _ => .error fault
    | _, .error fault => .error fault

/-- Decodes what follows the symbols of `block`. -/
def decodeFrom (block : List (Option Nat)) : Bytes → Except Fault Bytes
  | [] => decodeBlock block
  | b :: rest =>
    match symbol b with
    | .blank => decodeFrom block rest
    | .invalid => .error (.invalidCharacter b)
    | .digit n => push block (some n) rest
    | .pad => push block none rest
where
  /-- Adds a symbol to a block, or starts the next block with it. -/
  push (block : List (Option Nat)) (x : Option Nat) (rest : Bytes) : Except Fault Bytes :=
    if block.length < 8 then decodeFrom (block ++ [x]) rest
    else if block.any Option.isNone then .error .prematurePadding
    else
      match decodeBlock block, decodeFrom [x] rest with
      | .ok first, .ok last => .ok (first ++ last)
      | .error fault, _ => .error fault
      | _, .error fault => .error fault

/-- The bytes that base64 stands for. -/
def decode (text : Bytes) : Except Fault Bytes := decodeFrom [] text

end KvClient.Tls.Base64

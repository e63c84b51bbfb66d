import KvClient.Text.Unprintable

/-!
# Quoted text

Text as it is shown inside a message: between double quotes, with quotes and backslashes behind a
backslash, and with a character that cannot be seen spelled out by its code point.

* **Every character becomes at least one**: `escape_ne_nil`.
-/

namespace KvClient.Text

/-! ## Hexadecimal digits -/

/-- The lower-case hexadecimal digit of a number below sixteen. -/
def hexDigit (d : Nat) : Char :=
  if d < 10 then Char.ofNat (0x30 + d) else Char.ofNat (0x61 + (d - 10))

/-- The hexadecimal digits of a number, the lowest first. -/
def hexDigitsRev (n : Nat) : List Char :=
  if n < 16 then [hexDigit n] else hexDigit (n % 16) :: hexDigitsRev (n / 16)

/-- A number in hexadecimal, without leading zeros. -/
def hex (n : Nat) : List Char := (hexDigitsRev n).reverse

/-- A byte as two hexadecimal digits. -/
def hexByte (b : UInt8) : List Char := [hexDigit (b.toNat / 16), hexDigit (b.toNat % 16)]

/-! ## Quoting -/

/-- How a character is shown inside double quotes. -/
def escape (c : Char) : List Char :=
  if c = Char.ofNat 0 then ['\\', '0']
  else if c = '\t' then ['\\', 't']
  else if c = '\r' then ['\\', 'r']
  else if c = '\n' then ['\\', 'n']
  else if c = '"' then ['\\', '"']
  else if c = '\\' then ['\\', '\\']
  else if isUnprintable c then '\\' :: 'u' :: '\x7b' :: (hex c.toNat ++ ['\x7d'])
  else [c]

/-- A text between double quotes. -/
def quote (s : String) : String := String.ofList ('"' :: (s.toList.flatMap escape ++ ['"']))

theorem escape_ne_nil (c : Char) : escape c ≠ [] := by
  unfold escape
  repeat' split
  all_goals simp

end KvClient.Text

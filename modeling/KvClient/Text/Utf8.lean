import KvClient.Bytes

/-!
# UTF-8

Text and its bytes.  Decoding cuts the input into pieces: a character, an ill-formed sequence, or a
sequence that the end of the input cuts short.  An ill-formed piece is as long as it could have been
the beginning of a character, which is the recommended practice for replacement.

## How it ends

`pieces` drops at least the first byte in each round (`length_next_le`).

## Main statements

* **Each piece takes at least one byte**: `length_next_le`.
* **Text encodes piece by piece**: `encode_append`.
-/

namespace KvClient.Utf8

/-! ## Code points -/

theorem toNat_cases (c : Char) : c.toNat < 0xD800 ∨ 0xDFFF < c.toNat ∧ c.toNat < 0x110000 := c.valid

theorem toNat_ofNat {n : Nat} (h : n < 0xD800 ∨ 0xDFFF < n ∧ n < 0x110000) :
    (Char.ofNat n).toNat = n := by
  rw [Char.ofNat, dif_pos h]
  rfl

/-! ## Encoding -/

/-- The bytes of a list of characters. -/
def encodeChars (cs : List Char) : Bytes := cs.flatMap String.utf8EncodeChar

/-- The bytes of a text. -/
def encode (s : String) : Bytes := encodeChars s.toList

theorem encode_append (a b : String) : encode (a ++ b) = encode a ++ encode b := by
  simp [encode, encodeChars]

/-- The number of bytes of a list of characters. -/
def size (cs : List Char) : Nat := cs.foldr (fun c n => c.utf8Size + n) 0

/-! ## Cutting bytes into pieces -/

/-- What stands at some place of a byte string. -/
inductive Piece
  /-- A well-formed character. -/
  | char (c : Char)
  /-- `size` bytes that begin no character. -/
  | invalid (size : Nat)
  /-- The last `size` bytes, which more bytes could have completed. -/
  | cut (size : Nat)
  deriving Repr, DecidableEq

/-- The number of bytes that a piece takes. -/
def Piece.size : Piece → Nat
  | .char c => c.utf8Size
  | .invalid n => n
  | .cut n => n

/-- A byte that continues a character. -/
def isContinuation (b : UInt8) : Bool := 0x80 ≤ b && b ≤ 0xBF

/-- The bytes that may follow a first byte: how many in all, and the range of the next one. -/
inductive Lead
  | ascii
  | two
  | three (low high : UInt8)
  | four (low high : UInt8)
  | none
  deriving Repr, DecidableEq

/-- The class of a first byte.  The ranges leave out overlong forms, surrogates and values above the
last code point. -/
def lead (b : UInt8) : Lead :=
  if b < 0x80 then .ascii
  else if b < 0xC2 then .none
  else if b < 0xE0 then .two
  else if b = 0xE0 then .three 0xA0 0xBF
  else if b = 0xED then .three 0x80 0x9F
  else if b < 0xF0 then .three 0x80 0xBF
  else if b = 0xF0 then .four 0x90 0xBF
  else if b < 0xF4 then .four 0x80 0xBF
  else if b = 0xF4 then .four 0x80 0x8F
  else .none

/-- The six bits that a continuation byte carries. -/
def payload (b : UInt8) : Nat := b.toNat % 64

/-- The piece that starts with `b`, and the bytes behind it. -/
def next (b : UInt8) (rest : Bytes) : Piece × Bytes :=
  match lead b with
  | .ascii => (.char (Char.ofNat b.toNat), rest)
  | .none => (.invalid 1, rest)
  | .two =>
    match rest with
    | [] => (.cut 1, [])
    | b₁ :: r₁ =>
      if isContinuation b₁ then
        (.char (Char.ofNat (b.toNat % 32 * 64 + payload b₁)), r₁)
      else (.invalid 1, rest)
  | .three low high =>
    match rest with
    | [] => (.cut 1, [])
    | b₁ :: r₁ =>
      if low ≤ b₁ ∧ b₁ ≤ high then
        match r₁ with
        | [] => (.cut 2, [])
        | b₂ :: r₂ =>
          if isContinuation b₂ then
            (.char (Char.ofNat ((b.toNat % 16 * 64 + payload b₁) * 64 + payload b₂)), r₂)
          else (.invalid 2, r₁)
      else (.invalid 1, rest)
  | .four low high =>
    match rest with
    | [] => (.cut 1, [])
    | b₁ :: r₁ =>
      if low ≤ b₁ ∧ b₁ ≤ high then
        match r₁ with
        | [] => (.cut 2, [])
        | b₂ :: r₂ =>
          if isContinuation b₂ then
            match r₂ with
            | [] => (.cut 3, [])
            | b₃ :: r₃ =>
              if isContinuation b₃ then
                (.char (Char.ofNat
                  (((b.toNat % 8 * 64 + payload b₁) * 64 + payload b₂) * 64 + payload b₃)), r₃)
              else (.invalid 3, r₂)
          else (.invalid 2, r₁)
      else (.invalid 1, rest)

/-- What stands behind a piece is no longer than what stands behind its first byte. -/
theorem length_next_le (b : UInt8) (rest : Bytes) : (next b rest).2.length ≤ rest.length := by
  unfold next
  repeat' split
  all_goals simp
  all_goals omega

/-- A byte string, cut into its pieces. -/
def pieces : Bytes → List Piece
  | [] => []
  | b :: rest => (next b rest).1 :: pieces (next b rest).2
termination_by bytes => bytes.length
decreasing_by
  have := length_next_le b rest
  simp only [List.length_cons]; omega

/-! ## Decoding -/

/-- Why bytes are not text: where the first bad piece starts, and its size unless the input ends in
it. -/
structure Fault where
  index : Nat
  size? : Option Nat
  deriving Repr, DecidableEq

/-- The wording of a fault. -/
def Fault.message (fault : Fault) : String :=
  match fault.size? with
  | some n => s!"invalid utf-8 sequence of {n} bytes from index {fault.index}"
  | none => s!"incomplete utf-8 byte sequence from index {fault.index}"

/-- The characters of the pieces, if all are characters; `index` is where the first one starts. -/
def collect (index : Nat) : List Piece → Except Fault (List Char)
  | [] => .ok []
  | .char c :: rest =>
    match collect (index + c.utf8Size) rest with
    | .ok cs => .ok (c :: cs)
    | .error fault => .error fault
  | .invalid n :: _ => .error ⟨index, some n⟩
  | .cut _ :: _ => .error ⟨index, none⟩

/-- The text of well-formed bytes. -/
def decode (bytes : Bytes) : Except Fault String :=
  match collect 0 (pieces bytes) with
  | .ok cs => .ok (String.ofList cs)
  | .error fault => .error fault

/-- The text of any bytes, with a replacement character for each bad piece. -/
def decodeLossy (bytes : Bytes) : String :=
  String.ofList ((pieces bytes).map fun
    | .char c => c
    | _ => Char.ofNat 0xFFFD)

end KvClient.Utf8

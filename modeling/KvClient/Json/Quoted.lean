import KvClient.Json.Reader

/-!
# String literals

Writing escapes quotes, backslashes and control characters, and nothing else.  Reading undoes every
escape; a character outside the basic plane may be spelled as a surrogate pair, whose halves must
stand together.  A string may also be passed over, without a look at surrogates.

* **Reading consumes something**: `length_readText_lt`, `length_passText_lt`.
-/

namespace KvClient.Json

/-! ## Writing -/

/-- The control characters, which a string literal cannot hold as they are. -/
def isControl (c : Char) : Bool := c.toNat < 0x20

/-- A character inside a string literal. -/
def escape (c : Char) : List Char :=
  if c = '"' then ['\\', '"']
  else if c = '\\' then ['\\', '\\']
  else if c = '\x08' then ['\\', 'b']
  else if c = '\t' then ['\\', 't']
  else if c = '\n' then ['\\', 'n']
  else if c = '\x0c' then ['\\', 'f']
  else if c = '\r' then ['\\', 'r']
  else if isControl c then
    ['\\', 'u', '0', '0', Text.hexDigit (c.toNat / 16), Text.hexDigit (c.toNat % 16)]
  else [c]

/-- The string literal of a text. -/
def quote (s : String) : List Char := '"' :: (s.toList.flatMap escape ++ ['"'])

/-! ## Escapes -/

/-- What one letter behind a backslash stands for. -/
def letterEscape? (c : Char) : Option Char :=
  if c = '"' then some '"'
  else if c = '\\' then some '\\'
  else if c = '/' then some '/'
  else if c = 'b' then some '\x08'
  else if c = 'f' then some '\x0c'
  else if c = 'n' then some '\n'
  else if c = 'r' then some '\r'
  else if c = 't' then some '\t'
  else none

/-- The value of a hexadecimal digit. -/
def hexValue? (c : Char) : Option Nat :=
  if '0' ≤ c ∧ c ≤ '9' then some (c.toNat - 0x30)
  else if 'a' ≤ c ∧ c ≤ 'f' then some (c.toNat - 0x61 + 10)
  else if 'A' ≤ c ∧ c ≤ 'F' then some (c.toNat - 0x41 + 10)
  else none

/-- The value of four hexadecimal digits. -/
def hexUnit? (a b c d : Char) : Option Nat :=
  match hexValue? a, hexValue? b, hexValue? c, hexValue? d with
  | some a, some b, some c, some d => some (((a * 16 + b) * 16 + c) * 16 + d)
  | _, _, _, _ => none

/-- The four hexadecimal digits in front of a text. -/
def readUnit (s : List Char) : Reading Nat :=
  if Utf8.size (s.take 4) < 4 then stopBefore [] .endInString
  else
    match s with
    | a :: b :: c :: d :: r =>
      match hexUnit? a b c d with
      | some n => .ok (n, r)
      | none => .error ⟨.invalidEscape, Utf8.size s - 4⟩
    | _ => .error ⟨.invalidEscape, Utf8.size s - 4⟩

/-- Whether a unit is the first half of a surrogate pair. -/
def isLeading (n : Nat) : Bool := 0xD800 ≤ n && n ≤ 0xDBFF

/-- Whether a unit is the second half of a surrogate pair. -/
def isTrailing (n : Nat) : Bool := 0xDC00 ≤ n && n ≤ 0xDFFF

/-- The code point of a surrogate pair. -/
def pairValue (leading trailing : Nat) : Nat :=
  (leading - 0xD800) * 0x400 + (trailing - 0xDC00) + 0x10000

/-- The second half of a surrogate pair, which must follow at once. -/
def readTrailing (leading : Nat) (s : List Char) : Reading Char :=
  match s with
  | '\\' :: 'u' :: r =>
    match readUnit r with
    | .error stop => .error stop
    | .ok (n, rest) =>
      if isTrailing n then .ok (Char.ofNat (pairValue leading n), rest)
      else stopBefore rest .loneSurrogate
  | [] | ['\\'] => stopBefore [] .endInString
  | '\\' :: r => stopAt r .cutSurrogatePair
  | _ => stopAt s .cutSurrogatePair

/-- The character of an escape, behind the backslash. -/
def readEscape (s : List Char) : Reading Char :=
  match s with
  | [] => stopBefore [] .endInString
  | 'u' :: r =>
    match readUnit r with
    | .error stop => .error stop
    | .ok (n, rest) =>
      if isTrailing n then stopBefore rest .loneSurrogate
      else if isLeading n then readTrailing n rest
      else .ok (Char.ofNat n, rest)
  | c :: r =>
    match letterEscape? c with
    | some x => .ok (x, r)
    | none => stopAt s .invalidEscape

theorem length_readUnit_lt {s r : List Char} {n : Nat} (h : readUnit s = .ok (n, r)) :
    r.length < s.length := by
  unfold readUnit at h
  split at h
  · simp [stopBefore] at h
  · split at h
    · split at h
      · obtain ⟨-, rfl⟩ := by simpa using h
        simp only [List.length_cons]
        omega
      · simp at h
    · simp at h

theorem length_readTrailing_lt {leading : Nat} {s r : List Char} {c : Char}
    (h : readTrailing leading s = .ok (c, r)) : r.length < s.length := by
  unfold readTrailing at h
  split at h
  · split at h
    · simp at h
    · rename_i hu
      split at h
      · obtain ⟨-, rfl⟩ := by simpa using h
        have := length_readUnit_lt hu
        simp only [List.length_cons]
        omega
      · simp [stopBefore] at h
  all_goals simp [stopBefore, stopAt] at h

theorem length_readEscape_lt {s r : List Char} {c : Char} (h : readEscape s = .ok (c, r)) :
    r.length < s.length := by
  unfold readEscape at h
  split at h
  · simp [stopBefore] at h
  · split at h
    · simp at h
    · rename_i hu
      have := length_readUnit_lt hu
      simp only [List.length_cons]
      split at h
      · simp [stopBefore] at h
      · split at h
        · have := length_readTrailing_lt h
          omega
        · obtain ⟨-, rfl⟩ := by simpa using h
          omega
  · split at h
    · obtain ⟨-, rfl⟩ := by simpa using h
      simp
    · simp [stopAt] at h

/-! ## Reading -/

/-- The text of a string literal behind its opening quote; `done` holds the characters read so far,
the last one first. -/
def readText (done : List Char) (s : List Char) : Reading String :=
  match s with
  | [] => stopBefore [] .endInString
  | '"' :: r => .ok (String.ofList done.reverse, r)
  | '\\' :: r =>
    match _he : readEscape r with
    | .error stop => .error stop
    | .ok (c, rest) => readText (c :: done) rest
  | c :: r => if isControl c then stopBefore r .controlCharacter else readText (c :: done) r
termination_by s.length
decreasing_by
  · have := length_readEscape_lt _he
    simp only [List.length_cons]
    omega
  · simp

theorem length_readText_lt {done s r : List Char} {t : String}
    (h : readText done s = .ok (t, r)) : r.length < s.length := by
  fun_induction readText done s with
  | case1 => simp [stopBefore] at h
  | case2 =>
    obtain ⟨-, rfl⟩ := by simpa using h
    simp
  | case3 => simp at h
  | case4 done r' c rest he ih =>
    have := length_readEscape_lt he
    have := ih h
    simp only [List.length_cons]
    omega
  | case5 => simp [stopBefore] at h
  | case6 done c r' _ _ _ ih =>
    have := ih h
    simp only [List.length_cons]
    omega

/-! ## Passing over -/

/-- The rest behind an escape, which stands behind its backslash. -/
def passEscape (s : List Char) : Except Stop (List Char) :=
  match s with
  | [] => stopBefore [] .endInString
  | 'u' :: r =>
    match readUnit r with
    | .error stop => .error stop
    | .ok (_, rest) => .ok rest
  | c :: r => if (letterEscape? c).isSome then .ok r else stopAt s .invalidEscape

theorem length_passEscape_lt {s r : List Char} (h : passEscape s = .ok r) :
    r.length < s.length := by
  unfold passEscape at h
  split at h
  · simp [stopBefore] at h
  · split at h
    · simp at h
    · rename_i hu
      have := length_readUnit_lt hu
      obtain rfl := by simpa using h
      simp only [List.length_cons]
      omega
  · split at h
    · obtain rfl := by simpa using h
      simp
    · simp [stopAt] at h

/-- The rest behind a string literal, which stands behind its opening quote. -/
def passText (s : List Char) : Except Stop (List Char) :=
  match s with
  | [] => stopBefore [] .endInString
  | '"' :: r => .ok r
  | '\\' :: r =>
    match _he : passEscape r with
    | .error stop => .error stop
    | .ok rest => passText rest
  | c :: r => if isControl c then stopBefore s .controlCharacter else passText r
termination_by s.length
decreasing_by
  · have := length_passEscape_lt _he
    simp only [List.length_cons]
    omega
  · simp

theorem length_passText_lt {s r : List Char} (h : passText s = .ok r) : r.length < s.length := by
  fun_induction passText s with
  | case1 => simp [stopBefore] at h
  | case2 =>
    obtain rfl := by simpa using h
    simp
  | case3 => simp at h
  | case4 r' rest he ih =>
    have := length_passEscape_lt he
    have := ih h
    simp only [List.length_cons]
    omega
  | case5 => simp [stopBefore] at h
  | case6 c r' _ _ _ ih =>
    have := ih h
    simp only [List.length_cons]
    omega

end KvClient.Json

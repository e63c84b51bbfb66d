import KvClient.Json.Reader

/-!
# Number literals

A literal is cut into its parts first and given a value afterwards, so that a literal can also be
passed over without a value.

## Its value

A literal without point and exponent is an integer if the integer can be kept.  For any other, as
many digits as fit below `2^64` make a significand; it is converted to floating point, and scaled by
one power of ten.  Two roundings may make the result differ from the closest number.

* **A literal is never empty**: `length_readLiteral_lt`.
-/

namespace KvClient.Json

/-- The parts of a number literal. -/
structure Literal where
  negative : Bool
  whole : List Char
  /-- The digits behind the point; none if there is no point. -/
  fraction : List Char
  /-- Whether the exponent is negative, and its digits. -/
  exponent? : Option (Bool × List Char)
  deriving Repr, DecidableEq

/-! ## Cutting -/

/-- The digits in front, and the rest. -/
def spanDigits (s : List Char) : List Char × List Char :=
  (s.takeWhile Char.isDigit, s.dropWhile Char.isDigit)

theorem length_spanDigits (s : List Char) :
    (spanDigits s).1.length + (spanDigits s).2.length = s.length := by
  rw [← List.length_append, spanDigits, List.takeWhile_append_dropWhile]

/-- The digits in front of the point.  A zero stands alone. -/
def readWhole (atEnd : Cause) (s : List Char) : Reading (List Char) :=
  match s with
  | [] => stopBefore [] atEnd
  | c :: r =>
    if c = '0' then
      if (spanDigits r).1.isEmpty then .ok (['0'], r) else stopAt r .invalidNumber
    else if c.isDigit then .ok (spanDigits s)
    else stopAt s .invalidNumber

/-- The point and the digits behind it, if there is a point. -/
def readFraction (atEnd : Cause) (s : List Char) : Reading (List Char) :=
  match s with
  | '.' :: r =>
    if (spanDigits r).1.isEmpty then stopAt r (if r.isEmpty then atEnd else .invalidNumber)
    else .ok (spanDigits r)
  | _ => .ok ([], s)

/-- The digits of an exponent behind its sign. -/
def readExponentDigits (atEnd : Cause) (negative : Bool) (s : List Char) :
    Reading (Option (Bool × List Char)) :=
  if (spanDigits s).1.isEmpty then stopAt s (if s.isEmpty then atEnd else .invalidNumber)
  else .ok (some (negative, (spanDigits s).1), (spanDigits s).2)

/-- The exponent, if there is one. -/
def readExponent (atEnd : Cause) (s : List Char) : Reading (Option (Bool × List Char)) :=
  match s with
  | c :: r =>
    if c = 'e' ∨ c = 'E' then
      match r with
      | '-' :: r' => readExponentDigits atEnd true r'
      | '+' :: r' => readExponentDigits atEnd false r'
      | _ => readExponentDigits atEnd false r
    else .ok (none, s)
  | [] => .ok (none, s)

/-- A literal behind its sign. -/
def readUnsigned (atEnd : Cause) (negative : Bool) (s : List Char) : Reading Literal :=
  match readWhole atEnd s with
  | .error stop => .error stop
  | .ok (whole, r₁) =>
    match readFraction atEnd r₁ with
    | .error stop => .error stop
    | .ok (fraction, r₂) =>
      match readExponent atEnd r₂ with
      | .error stop => .error stop
      | .ok (exponent?, r₃) => .ok (⟨negative, whole, fraction, exponent?⟩, r₃)

/-- The literal in front of a text; `atEnd` is the cause if the text ends in the middle of it. -/
def readLiteral (atEnd : Cause) (s : List Char) : Reading Literal :=
  match s with
  | '-' :: r => readUnsigned atEnd true r
  | _ => readUnsigned atEnd false s

/-! ## A literal consumes something -/

theorem length_readWhole_lt {atEnd : Cause} {s r digits : List Char}
    (h : readWhole atEnd s = .ok (digits, r)) : r.length < s.length := by
  unfold readWhole at h
  split at h
  · simp [stopBefore] at h
  · rename_i c r'
    split at h
    · split at h
      · obtain ⟨-, rfl⟩ : ['0'] = digits ∧ r' = r := by simpa using h
        simp
      · simp [stopAt] at h
    · split at h
      · rename_i hc
        have hspan : spanDigits (c :: r') = (digits, r) := by simpa using h
        have hlen := length_spanDigits (c :: r')
        have hne : 0 < (spanDigits (c :: r')).1.length := by simp [spanDigits, hc]
        rw [hspan] at hlen hne
        simp only at hlen hne
        omega
      · simp [stopAt] at h

theorem length_readFraction_le {atEnd : Cause} {s r digits : List Char}
    (h : readFraction atEnd s = .ok (digits, r)) : r.length ≤ s.length := by
  unfold readFraction at h
  split at h
  · rename_i r'
    split at h
    · simp [stopAt] at h
    · have hspan : spanDigits r' = (digits, r) := by simpa using h
      have hlen := length_spanDigits r'
      rw [hspan] at hlen
      simp only [List.length_cons] at hlen ⊢
      omega
  · obtain ⟨-, rfl⟩ : [] = digits ∧ s = r := by simpa using h
    exact Nat.le_refl _

theorem length_readExponentDigits_le {atEnd : Cause} {negative : Bool} {s r : List Char}
    {e : Option (Bool × List Char)} (h : readExponentDigits atEnd negative s = .ok (e, r)) :
    r.length ≤ s.length := by
  unfold readExponentDigits at h
  split at h
  · simp [stopAt] at h
  · obtain ⟨-, rfl⟩ : some (negative, (spanDigits s).1) = e ∧ (spanDigits s).2 = r := by
      simpa using h
    have := length_spanDigits s
    omega

theorem length_readExponent_le {atEnd : Cause} {s r : List Char} {e : Option (Bool × List Char)}
    (h : readExponent atEnd s = .ok (e, r)) : r.length ≤ s.length := by
  unfold readExponent at h
  split at h
  · split at h
    · split at h
      all_goals
        have := length_readExponentDigits_le h
        simp only [List.length_cons] at this ⊢
        omega
    · obtain ⟨-, rfl⟩ := by simpa using h
      exact Nat.le_refl _
  · obtain ⟨-, rfl⟩ := by simpa using h
    exact Nat.le_refl _

theorem length_readUnsigned_lt {atEnd : Cause} {negative : Bool} {s r : List Char} {l : Literal}
    (h : readUnsigned atEnd negative s = .ok (l, r)) : r.length < s.length := by
  unfold readUnsigned at h
  split at h
  · simp at h
  · rename_i h₁
    split at h
    · simp at h
    · rename_i h₂
      split at h
      · simp at h
      · rename_i h₃
        have := length_readWhole_lt h₁
        have := length_readFraction_le h₂
        have := length_readExponent_le h₃
        simp only [Except.ok.injEq, Prod.mk.injEq] at h
        have := congrArg List.length h.2
        omega

theorem length_readLiteral_lt {atEnd : Cause} {s r : List Char} {l : Literal}
    (h : readLiteral atEnd s = .ok (l, r)) : r.length < s.length := by
  unfold readLiteral at h
  split at h
  · have := length_readUnsigned_lt h
    simp only [List.length_cons]
    omega
  · exact length_readUnsigned_lt h

/-! ## Its value -/

/-- Appends digits to `n` while the result is at most `limit`, and returns the digits left over. -/
def takeDigits (limit n : Nat) : List Char → Nat × List Char
  | [] => (n, [])
  | c :: cs =>
    let n' := n * 10 + Decimal.digitValue c
    if n' ≤ limit then takeDigits limit n' cs else (n, c :: cs)

/-- Divides by `10 ^ n`, at most `10 ^ 308` at a time. -/
def scaleDown (x : Float) (n : Nat) : Float :=
  if n ≤ 308 then x / Float.ofScientific 1 false n
  else if x == 0 then x
  else scaleDown (x / Float.ofScientific 1 false 308) (n - 308)
termination_by n
decreasing_by
  rename_i h _
  exact Nat.sub_lt (Nat.lt_of_lt_of_le (Nat.succ_pos 308) (Nat.not_le.mp h)) (Nat.succ_pos 307)

/-- `significand · 10 ^ exponent`, unless it is too large. -/
def scale? (significand : Nat) (exponent : Int) : Option Float :=
  let x := significand.toUInt64.toFloat
  if exponent < 0 then some (scaleDown x exponent.natAbs)
  else if exponent ≤ 308 then
    let y := x * Float.ofScientific 1 false exponent.natAbs
    if y.isInf then none else some y
  else if x == 0 then some x
  else none

/-- The floating-point number with a sign. -/
def signed (negative : Bool) (x : Float) : Float := if negative then -x else x

/-- The largest significand. -/
def maxSignificand : Nat := 0xffffffffffffffff

/-- The largest exponent that is read to its end. -/
def maxExponent : Nat := 0x7fffffff

/-- The significand of a literal, and the power of ten that its digits leave to be scaled by. -/
def Literal.significand (l : Literal) : Nat × Int :=
  let (n, left) := takeDigits maxSignificand 0 l.whole
  let (n', left') := takeDigits maxSignificand n l.fraction
  (n', Int.ofNat left.length - (Int.ofNat l.fraction.length - Int.ofNat left'.length))

/-- The value of a literal that has a point or an exponent, or is too large for an integer.  An
error says how many characters of the literal had not been consumed when it was found. -/
def Literal.real (l : Literal) : Except Nat Number :=
  let (n, e) := l.significand
  let scaled (e : Int) : Except Nat Number :=
    match scale? n e with
    | some x => .ok (.real (signed l.negative x))
    | none => .error 0
  match l.exponent? with
  | none => scaled e
  | some (negative, digits) =>
    match takeDigits maxExponent 0 digits with
    | (k, []) => scaled (if negative then e - k else e + k)
    | (_, _ :: unread) =>
      if n = 0 ∨ negative then .ok (.real (signed l.negative 0)) else .error unread.length

/-- The value of a literal without point and exponent, if it can be kept exactly.  There is no
integer for a zero with a sign. -/
def Literal.integer? (l : Literal) : Option Number :=
  let n := Decimal.ofDigits l.whole
  if l.negative then
    if n = 0 then none else Number.ofInt? (-n)
  else Number.ofInt? n

/-- The value of a literal. -/
def Literal.value (l : Literal) : Except Nat Number :=
  if l.fraction.isEmpty && l.exponent?.isNone then
    match l.integer? with
    | some n => .ok n
    | none => l.real
  else l.real

/-- The number in front of a text. -/
def readNumber (s : List Char) : Reading Number :=
  match readLiteral .endInValue s with
  | .error stop => .error stop
  | .ok (l, rest) =>
    match l.value with
    | .ok n => .ok (n, rest)
    | .error unread => .error ⟨.numberOutOfRange, Utf8.size rest + unread⟩

theorem length_readNumber_lt {s r : List Char} {n : Number} (h : readNumber s = .ok (n, r)) :
    r.length < s.length := by
  unfold readNumber at h
  split at h
  · simp at h
  · rename_i hl
    split at h
    · obtain ⟨-, rfl⟩ := by simpa using h
      exact length_readLiteral_lt hl
    · simp at h

end KvClient.Json

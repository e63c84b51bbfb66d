import KvClient.Json.Error

/-!
# Reading without ever standing still

A reader takes characters off the front of a text.  It either stops with a cause, or returns what
it read and the rest of the text, together with a proof that the rest is shorter.  Loops over
readers therefore end, and need no other bound.

## Where it stopped

A stop counts the bytes of the text that were not consumed.  An offending character may have been
consumed (`stopBefore` what follows it), or its first byte only looked at or consumed (`stopAt`).
-/

namespace KvClient.Json

/-! ## Stopping -/

/-- Why reading stopped, and how many bytes of the text were left. -/
structure Stop where
  cause : Cause
  unread : Nat

/-- What a reading returns: a result and the rest of the text, or a stop. -/
abbrev Reading (α : Type) := Except Stop (α × List Char)

/-- Stops with `rest` left. -/
def stopBefore {α : Type} (rest : List Char) (cause : Cause) : Except Stop α :=
  .error ⟨cause, Utf8.size rest⟩

/-- Stops behind the first byte of `rest`, if there is one. -/
def stopAt {α : Type} (rest : List Char) (cause : Cause) : Except Stop α :=
  .error ⟨cause, Utf8.size rest - 1⟩

/-- The error of a stop while reading `text`. -/
def Stop.toError (text : String) (stop : Stop) : Error :=
  let bytes := Utf8.encode text
  ⟨stop.cause, some (Position.atIndex bytes (bytes.length - stop.unread))⟩

/-- A way of reading that consumes at least one character. -/
structure Reader (α : Type) where
  read : List Char → Reading α
  shorter : ∀ {s r : List Char} {a : α}, read s = .ok (a, r) → r.length < s.length

/-! ## Blanks -/

/-- Spaces, tabulators and line ends. -/
def isBlank (c : Char) : Bool := c == ' ' || c == '\n' || c == '\t' || c == '\r'

/-- The text without the blanks in front. -/
def skipBlanks (s : List Char) : List Char := s.dropWhile isBlank

theorem length_skipBlanks_le (s : List Char) : (skipBlanks s).length ≤ s.length :=
  (List.dropWhile_sublist isBlank).length_le

/-! ## Lists -/

/-- The rest of a list, behind an item: a comma and an item, as often as there are any, and the
closing bracket. -/
def readMoreItems {α : Type} (item : Reader α) (done : List α) (s : List Char) :
    Reading (List α) :=
  match _hs : skipBlanks s with
  | [] => stopAt [] .endInList
  | ']' :: r => .ok (done.reverse, r)
  | ',' :: r =>
    match skipBlanks r with
    | [] => stopAt [] .endInValue
    | ']' :: r' => stopAt (']' :: r') .trailingComma
    | _ =>
      match _hi : item.read r with
      | .error stop => .error stop
      | .ok (a, rest) => readMoreItems item (a :: done) rest
  | r => stopAt r .expectedCommaOrBracket
termination_by s.length
decreasing_by
  have h₁ := item.shorter _hi
  have h₂ := length_skipBlanks_le s
  rw [_hs] at h₂
  simp only [List.length_cons] at h₂
  omega

/-- The items of a list behind the opening bracket, and the closing bracket. -/
def readItems {α : Type} (item : Reader α) (s : List Char) : Reading (List α) :=
  match skipBlanks s with
  | [] => stopAt [] .endInList
  | ']' :: r => .ok ([], r)
  | _ =>
    match item.read s with
    | .error stop => .error stop
    | .ok (a, rest) => readMoreItems item [a] rest

theorem length_readMoreItems_lt {α : Type} {item : Reader α} {done : List α} {s r : List Char}
    {items : List α} (h : readMoreItems item done s = .ok (items, r)) : r.length < s.length := by
  fun_induction readMoreItems item done s with
  | case1 => simp [stopAt] at h
  | case2 done s r' hs =>
    obtain ⟨rfl, rfl⟩ : done.reverse = items ∧ r' = r := by simpa using h
    have := length_skipBlanks_le s
    rw [hs] at this
    simp only [List.length_cons] at this
    omega
  | case3 => simp [stopAt] at h
  | case4 => simp [stopAt] at h
  | case5 => simp at h
  | case6 done s r' hs a rest hi _ _ ih =>
    have h₁ := item.shorter hi
    have h₂ := length_skipBlanks_le s
    rw [hs] at h₂
    simp only [List.length_cons] at h₂
    have := ih h
    omega
  | case7 => simp [stopAt] at h

theorem length_readItems_lt {α : Type} {item : Reader α} {s r : List Char} {items : List α}
    (h : readItems item s = .ok (items, r)) : r.length < s.length := by
  have hs := length_skipBlanks_le s
  unfold readItems at h
  split at h
  · simp [stopAt] at h
  · rename_i r' heq
    obtain ⟨-, rfl⟩ : [] = items ∧ r' = r := by simpa using h
    rw [heq] at hs
    simp only [List.length_cons] at hs
    omega
  · split at h
    · simp at h
    · rename_i hi
      have h₁ := item.shorter hi
      have h₂ := length_readMoreItems_lt h
      omega

end KvClient.Json

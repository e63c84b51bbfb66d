import KvClient.Json.Value

/-!
# Passing over values

A value that nobody asked for is passed over: its grammar is checked, but not the size of its
numbers, the pairing of its surrogates or the depth of its nesting.

## How it works

The containers that are open are kept in a list, the innermost first.  `passValue` stands in front
of a value, `passAfter` behind one; the value is over when no container is open any more.
-/

namespace KvClient.Json

/-- A container that is open. -/
inductive Container
  | list
  | object
  deriving Repr, DecidableEq

/-- The cause of a text that ends inside a container. -/
def Container.ended : Container → Cause
  | .list => .endInList
  | .object => .endInObject

/-- The cause of something else where a comma or the end of a container should stand. -/
def Container.unclosed : Container → Cause
  | .list => .expectedCommaOrBracket
  | .object => .expectedCommaOrBrace

/-- The character that closes a container. -/
def Container.closer : Container → Char
  | .list => ']'
  | .object => '\x7d'

/-! ## Scalars and names -/

/-- The rest behind a value that is neither an array nor an object. -/
def passScalar (s : List Char) : Except Stop (List Char) :=
  match s with
  | [] => stopAt [] .endInValue
  | 'n' :: r => readWord ['u', 'l', 'l'] r
  | 't' :: r => readWord ['r', 'u', 'e'] r
  | 'f' :: r => readWord ['a', 'l', 's', 'e'] r
  | '"' :: r => passText r
  | c :: _ =>
    if c = '-' ∨ c.isDigit then
      match readLiteral .invalidNumber s with
      | .error stop => .error stop
      | .ok (_, rest) => .ok rest
    else stopAt s .expectedValue

/-- The rest behind a name and its colon. -/
def passName (s : List Char) : Except Stop (List Char) :=
  match skipBlanks s with
  | [] => stopAt [] .endInObject
  | '"' :: r =>
    match passText r with
    | .error stop => .error stop
    | .ok rest => readColon rest
  | r => stopAt r .keyNotString

/-- The rest in front of the next value of a container: what a name needs is passed over. -/
def enter (container : Container) (s : List Char) : Except Stop (List Char) :=
  match container with
  | .list => .ok s
  | .object => passName s

theorem length_passScalar_lt {s r : List Char} (h : passScalar s = .ok r) :
    r.length < s.length := by
  unfold passScalar at h
  split at h
  · simp [stopAt] at h
  · exact Nat.lt_succ_of_le (length_readWord_le h)
  · exact Nat.lt_succ_of_le (length_readWord_le h)
  · exact Nat.lt_succ_of_le (length_readWord_le h)
  · exact Nat.lt_succ_of_lt (length_passText_lt h)
  · split at h
    · split at h
      · simp at h
      · rename_i hl
        obtain rfl := by simpa using h
        exact length_readLiteral_lt hl
    · simp [stopAt] at h

theorem length_passName_lt {s r : List Char} (h : passName s = .ok r) : r.length < s.length := by
  have hs := length_skipBlanks_le s
  unfold passName at h
  split at h
  · simp [stopAt] at h
  · rename_i heq
    rw [heq] at hs
    simp only [List.length_cons] at hs
    split at h
    · simp at h
    · rename_i ht
      have := length_passText_lt ht
      have := length_readColon_lt h
      omega
  · simp [stopAt] at h

theorem length_enter_le {container : Container} {s r : List Char}
    (h : enter container s = .ok r) : r.length ≤ s.length := by
  cases container with
  | list =>
    obtain rfl := by simpa [enter] using h
    exact Nat.le_refl _
  | object => exact Nat.le_of_lt (length_passName_lt h)

/-! ## Values -/

mutual

/-- The rest behind the value in front of `s` and behind all containers of `stack`. -/
def passValue (stack : List Container) (s : List Char) : Except Stop (List Char) :=
  match _hs : skipBlanks s with
  | '[' :: r => passFirst .list stack r
  | '\x7b' :: r => passFirst .object stack r
  | _ =>
    match _hr : passScalar (skipBlanks s) with
    | .error stop => .error stop
    | .ok r => passAfter stack r
termination_by (s.length, 0)
decreasing_by
  all_goals
    have h := length_skipBlanks_le s
    left
  · rw [_hs] at h
    simp only [List.length_cons] at h
    omega
  · rw [_hs] at h
    simp only [List.length_cons] at h
    omega
  · have := length_passScalar_lt _hr
    omega

/-- Behind the opening of a container: its end, or its first value. -/
def passFirst (container : Container) (stack : List Container) (s : List Char) :
    Except Stop (List Char) :=
  match _hs : skipBlanks s with
  | [] => stopAt [] container.ended
  | c :: r =>
    if c = container.closer then passAfter stack r
    else
      match _hr : enter container s with
      | .error stop => .error stop
      | .ok r => passValue (container :: stack) r
termination_by (s.length, 1)
decreasing_by
  all_goals
    have h := length_skipBlanks_le s
  · rw [_hs] at h
    simp only [List.length_cons] at h
    omega
  · have := length_enter_le _hr
    omega

/-- Behind a value: the end of the innermost container, or a comma and its next value. -/
def passAfter (stack : List Container) (s : List Char) : Except Stop (List Char) :=
  match stack with
  | [] => .ok s
  | container :: outer =>
    match _hs : skipBlanks s with
    | [] => stopAt [] container.ended
    | c :: r =>
      if c = ',' then
        match _hr : enter container r with
        | .error stop => .error stop
        | .ok r' => passValue (container :: outer) r'
      else if c = container.closer then passAfter outer r
      else stopAt (c :: r) container.unclosed
termination_by (s.length, 0)
decreasing_by
  all_goals
    have h := length_skipBlanks_le s
    rw [_hs] at h
    simp only [List.length_cons] at h
    left
  · have := length_enter_le _hr
    omega
  · omega

end

/-! ## Passing over consumes something -/

theorem length_pass_aux (n : Nat) :
    (∀ {stack s r}, s.length ≤ n → passValue stack s = .ok r → r.length < s.length) ∧
    (∀ {container stack s r}, s.length ≤ n → passFirst container stack s = .ok r →
      r.length < s.length) ∧
    (∀ {stack s r}, s.length ≤ n → passAfter stack s = .ok r → r.length ≤ s.length) := by
  induction n using Nat.strongRecOn with
  | ind n ih =>
  have hvalue : ∀ {stack s r}, s.length ≤ n → passValue stack s = .ok r →
      r.length < s.length := by
    intro stack s r hn h
    have hs := length_skipBlanks_le s
    rw [passValue] at h
    split at h
    · rename_i r' heq
      rw [heq] at hs
      simp only [List.length_cons] at hs
      have := (ih r'.length (by omega)).2.1 (Nat.le_refl _) h
      omega
    · rename_i r' heq
      rw [heq] at hs
      simp only [List.length_cons] at hs
      have := (ih r'.length (by omega)).2.1 (Nat.le_refl _) h
      omega
    · split at h
      · simp at h
      · rename_i r' hr
        have := length_passScalar_lt hr
        have := (ih r'.length (by omega)).2.2 (Nat.le_refl _) h
        omega
  refine ⟨hvalue, ?_, ?_⟩
  · intro container stack s r hn h
    have hs := length_skipBlanks_le s
    rw [passFirst] at h
    split at h
    · simp [stopAt] at h
    · rename_i c r' heq
      rw [heq] at hs
      simp only [List.length_cons] at hs
      split at h
      · have := (ih r'.length (by omega)).2.2 (Nat.le_refl _) h
        omega
      · split at h
        · simp at h
        · rename_i hr
          have := length_enter_le hr
          have := hvalue (by omega) h
          omega
  · intro stack s r hn h
    have hs := length_skipBlanks_le s
    unfold passAfter at h
    split at h
    · obtain rfl := by simpa using h
      exact Nat.le_refl _
    · split at h
      · simp [stopAt] at h
      · rename_i c r' heq
        rw [heq] at hs
        simp only [List.length_cons] at hs
        split at h
        · split at h
          · simp at h
          · rename_i hr
            have := length_enter_le hr
            have := hvalue (by omega) h
            omega
        · split at h
          · have := (ih r'.length (by omega)).2.2 (Nat.le_refl _) h
            omega
          · simp [stopAt] at h

/-- The rest behind the value in front of a text. -/
def pass (s : List Char) : Except Stop (List Char) := passValue [] s

theorem length_pass_lt {s r : List Char} (h : pass s = .ok r) : r.length < s.length :=
  (length_pass_aux s.length).1 (Nat.le_refl _) h

end KvClient.Json

import KvClient.Json.Literal
import KvClient.Json.Quoted

/-!
# Reading values

A value is read from a text in one pass.  Arrays and objects may be nested to a fixed depth, so
reading recurses on the number of containers that may still be entered; what stands inside a
container is read by a loop over the text.

## Members

The members of an object are folded into a state.  For a value the state is a table, in which a
later member replaces an earlier one of the same name; other objects bring their own state.
-/

namespace KvClient.Json

/-! ## Words and scalars -/

/-- The rest behind a word. -/
def readWord : List Char → List Char → Except Stop (List Char)
  | [], s => .ok s
  | _ :: _, [] => stopBefore [] .endInValue
  | w :: ws, c :: s => if c = w then readWord ws s else stopAt (c :: s) .expectedLiteral

theorem length_readWord_le {word s r : List Char} (h : readWord word s = .ok r) :
    r.length ≤ s.length := by
  induction word generalizing s with
  | nil =>
    obtain rfl := by simpa [readWord] using h
    exact Nat.le_refl _
  | cons w ws ih =>
    cases s with
    | nil => simp [readWord, stopBefore] at h
    | cons c s =>
      simp only [readWord] at h
      split at h
      · have := ih h
        simp only [List.length_cons]
        omega
      · simp [stopAt] at h

/-- The value of a word, behind its first letter. -/
def readConstant (value : Json) (word s : List Char) : Reading Json :=
  match readWord word s with
  | .error stop => .error stop
  | .ok r => .ok (value, r)

/-- A value that is neither an array nor an object. -/
def readScalar (s : List Char) : Reading Json :=
  match s with
  | [] => stopAt [] .endInValue
  | 'n' :: r => readConstant .null ['u', 'l', 'l'] r
  | 't' :: r => readConstant (.bool true) ['r', 'u', 'e'] r
  | 'f' :: r => readConstant (.bool false) ['a', 'l', 's', 'e'] r
  | '"' :: r =>
    match readText [] r with
    | .error stop => .error stop
    | .ok (t, rest) => .ok (.string t, rest)
  | c :: _ =>
    if c = '-' ∨ c.isDigit then
      match readNumber s with
      | .error stop => .error stop
      | .ok (n, rest) => .ok (.number n, rest)
    else stopAt s .expectedValue

theorem length_readConstant_lt {value v : Json} {word s r : List Char} (c : Char)
    (h : readConstant value word s = .ok (v, r)) : r.length < (c :: s).length := by
  unfold readConstant at h
  split at h
  · simp at h
  · rename_i hw
    obtain ⟨-, rfl⟩ := by simpa using h
    have := length_readWord_le hw
    simp only [List.length_cons]
    omega

theorem length_readScalar_lt {s r : List Char} {v : Json} (h : readScalar s = .ok (v, r)) :
    r.length < s.length := by
  unfold readScalar at h
  split at h
  · simp [stopAt] at h
  · exact length_readConstant_lt _ h
  · exact length_readConstant_lt _ h
  · exact length_readConstant_lt _ h
  · split at h
    · simp at h
    · rename_i ht
      obtain ⟨-, rfl⟩ := by simpa using h
      have := length_readText_lt ht
      simp only [List.length_cons]
      omega
  · split at h
    · split at h
      · simp at h
      · rename_i hn
        obtain ⟨-, rfl⟩ := by simpa using h
        exact length_readNumber_lt hn
    · simp [stopAt] at h

/-! ## Members of an object -/

/-- The rest behind the colon of a member. -/
def readColon (s : List Char) : Except Stop (List Char) :=
  match skipBlanks s with
  | [] => stopAt [] .endInObject
  | ':' :: r => .ok r
  | r => stopAt r .expectedColon

/-- A member behind the opening quote of its name. -/
def readMember {σ : Type} (member : σ → String → Reader σ) (state : σ) (s : List Char) :
    Reading σ :=
  match readText [] s with
  | .error stop => .error stop
  | .ok (name, r) => (member state name).read r

theorem length_readColon_lt {s r : List Char} (h : readColon s = .ok r) :
    r.length < s.length := by
  have hs := length_skipBlanks_le s
  unfold readColon at h
  split at h
  · simp [stopAt] at h
  · rename_i heq
    obtain rfl := by simpa using h
    rw [heq] at hs
    simp only [List.length_cons] at hs
    omega
  · simp [stopAt] at h

theorem length_readMember_lt {σ : Type} {member : σ → String → Reader σ} {state state' : σ}
    {s r : List Char} (h : readMember member state s = .ok (state', r)) :
    r.length < s.length := by
  unfold readMember at h
  split at h
  · simp at h
  · rename_i name _ ht
    have := length_readText_lt ht
    have := (member state name).shorter h
    omega

/-- The rest of an object, behind a member. -/
def readMoreMembers {σ : Type} (member : σ → String → Reader σ) (state : σ) (s : List Char) :
    Reading σ :=
  match _hs : skipBlanks s with
  | [] => stopAt [] .endInObject
  | '\x7d' :: r => .ok (state, r)
  | ',' :: r =>
    match _hr : skipBlanks r with
    | [] => stopAt [] .endInValue
    | '\x7d' :: r' => stopAt ('\x7d' :: r') .trailingComma
    | '"' :: r' =>
      match _hm : readMember member state r' with
      | .error stop => .error stop
      | .ok (state', rest) => readMoreMembers member state' rest
    | r' => stopAt r' .keyNotString
  | r => stopAt r .expectedCommaOrBrace
termination_by s.length
decreasing_by
  have h₁ := length_skipBlanks_le s
  have h₂ := length_skipBlanks_le r
  have h₃ := length_readMember_lt _hm
  rw [_hs] at h₁
  rw [_hr] at h₂
  simp only [List.length_cons] at h₁ h₂
  omega

/-- The members of an object behind the opening brace, and the closing brace. -/
def readMembers {σ : Type} (member : σ → String → Reader σ) (state : σ) (s : List Char) :
    Reading σ :=
  match skipBlanks s with
  | [] => stopAt [] .endInObject
  | '\x7d' :: r => .ok (state, r)
  | '"' :: r =>
    match readMember member state r with
    | .error stop => .error stop
    | .ok (state', rest) => readMoreMembers member state' rest
  | r => stopAt r .keyNotString

theorem length_readMoreMembers_lt {σ : Type} {member : σ → String → Reader σ} {state state' : σ}
    {s r : List Char} (h : readMoreMembers member state s = .ok (state', r)) :
    r.length < s.length := by
  fun_induction readMoreMembers member state s with
  | case1 => simp [stopAt] at h
  | case2 state s r' hs =>
    obtain ⟨-, rfl⟩ := by simpa using h
    have := length_skipBlanks_le s
    rw [hs] at this
    simp only [List.length_cons] at this
    omega
  | case3 => simp [stopAt] at h
  | case4 => simp [stopAt] at h
  | case5 => simp at h
  | case6 state s r₁ hs r₂ hr state₂ rest hm ih =>
    have h₁ := length_skipBlanks_le s
    have h₂ := length_skipBlanks_le r₁
    have h₃ := length_readMember_lt hm
    rw [hs] at h₁
    rw [hr] at h₂
    simp only [List.length_cons] at h₁ h₂
    have := ih h
    omega
  | case7 => simp [stopAt] at h
  | case8 => simp [stopAt] at h

theorem length_readMembers_lt {σ : Type} {member : σ → String → Reader σ} {state state' : σ}
    {s r : List Char} (h : readMembers member state s = .ok (state', r)) :
    r.length < s.length := by
  have hs := length_skipBlanks_le s
  unfold readMembers at h
  split at h
  · simp [stopAt] at h
  · rename_i heq
    obtain ⟨-, rfl⟩ := by simpa using h
    rw [heq] at hs
    simp only [List.length_cons] at hs
    omega
  · rename_i heq
    rw [heq] at hs
    simp only [List.length_cons] at hs
    split at h
    · simp at h
    · rename_i hm
      have := length_readMember_lt hm
      have := length_readMoreMembers_lt h
      omega
  · simp [stopAt] at h

/-! ## Values -/

/-- How many containers may be nested. -/
def maxDepth : Nat := 127

/-- A member of an ordinary object, behind its name. -/
def tableMember (value : Reader Json) (table : Assoc Json) (name : String) :
    Reader (Assoc Json) where
  read s :=
    match readColon s with
    | .error stop => .error stop
    | .ok r =>
      match value.read r with
      | .error stop => .error stop
      | .ok (v, rest) => .ok (table.insert name v, rest)
  shorter := by
    intro s r table' h
    split at h
    · simp at h
    · rename_i hc
      split at h
      · simp at h
      · rename_i hv
        obtain ⟨-, rfl⟩ := by simpa using h
        have := length_readColon_lt hc
        have := value.shorter hv
        omega

/-- A value; `inner?` reads the values inside it, if it may be a container. -/
def readNode (inner? : Option (Reader Json)) (s : List Char) : Reading Json :=
  match skipBlanks s with
  | '[' :: r =>
    match inner? with
    | none => stopAt ('[' :: r) .tooDeep
    | some inner =>
      match readItems inner r with
      | .error stop => .error stop
      | .ok (items, rest) => .ok (.array items, rest)
  | '\x7b' :: r =>
    match inner? with
    | none => stopAt ('\x7b' :: r) .tooDeep
    | some inner =>
      match readMembers (tableMember inner) [] r with
      | .error stop => .error stop
      | .ok (members, rest) => .ok (.object members, rest)
  | r => readScalar r

theorem length_readNode_lt {inner? : Option (Reader Json)} {s r : List Char} {v : Json}
    (h : readNode inner? s = .ok (v, r)) : r.length < s.length := by
  have hs := length_skipBlanks_le s
  unfold readNode at h
  split at h
  · rename_i heq
    rw [heq] at hs
    simp only [List.length_cons] at hs
    split at h
    · simp [stopAt] at h
    · split at h
      · simp at h
      · rename_i hi
        obtain ⟨-, rfl⟩ := by simpa using h
        have := length_readItems_lt hi
        omega
  · rename_i heq
    rw [heq] at hs
    simp only [List.length_cons] at hs
    split at h
    · simp [stopAt] at h
    · split at h
      · simp at h
      · rename_i hi
        obtain ⟨-, rfl⟩ := by simpa using h
        have := length_readMembers_lt hi
        omega
  · have := length_readScalar_lt h
    omega

/-- A value in which at most `depth` containers are nested. -/
def readValue : Nat → Reader Json
  | 0 => ⟨readNode none, length_readNode_lt⟩
  | depth + 1 => ⟨readNode (some (readValue depth)), length_readNode_lt⟩

/-! ## Documents -/

/-- A whole text: what `reader` reads, and blanks behind it. -/
def readDocument {α : Type} (reader : Reader α) (text : String) : Except Error α :=
  match reader.read text.toList with
  | .error stop => .error (stop.toError text)
  | .ok (a, rest) =>
    match skipBlanks rest with
    | [] => .ok a
    | r => .error (Stop.toError text ⟨.trailingCharacters, Utf8.size r - 1⟩)

/-- The value of a text. -/
def parse (text : String) : Except Error Json := readDocument (readValue maxDepth) text

end KvClient.Json

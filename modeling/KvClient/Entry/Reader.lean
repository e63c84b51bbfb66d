import KvClient.Entry.Basic
import KvClient.Json.Skip

/-!
# Reading entries

A document is an array of entries.  An entry is an object with the fields `key` and `value`, in
either order and among any others, or an array of exactly the two.

## Where an error is reported

An error about the entry as a whole is reported behind the entry if the entry ends right there,
otherwise behind the blanks that follow (`behindObject`).
-/

namespace KvClient.Entry

open Json

/-- Stops in front of a value that is not what was expected, or behind it if it is a scalar. -/
def stopMismatch {α : Type} (expected : Expected) (s : List Char) : Except Stop α :=
  match s with
  | '[' :: _ => stopBefore s (.invalidType .array expected)
  | '\x7b' :: _ => stopBefore s (.invalidType .object expected)
  | _ =>
    match readScalar s with
    | .error stop => .error stop
    | .ok (v, rest) => stopBefore rest (.invalidType (.ofJson v) expected)

/-- How deep the value of an entry may be nested: the document and the entry count too. -/
def maxValueDepth : Nat := maxDepth - 2

/-- The value of an entry. -/
def readEntryValue : Reader Json := readValue maxValueDepth

/-- The key of an entry. -/
def readKey (s : List Char) : Reading String :=
  match skipBlanks s with
  | '"' :: r => readText [] r
  | r => stopMismatch .text r

theorem stopMismatch_ne_ok {α : Type} (expected : Expected) (s : List Char) (a : α) :
    stopMismatch expected s ≠ .ok a := by
  unfold stopMismatch
  split
  · simp [stopBefore]
  · simp [stopBefore]
  · split <;> simp [stopBefore]

theorem length_readKey_lt {s r : List Char} {k : String} (h : readKey s = .ok (k, r)) :
    r.length < s.length := by
  have hs := length_skipBlanks_le s
  unfold readKey at h
  split at h
  · rename_i heq
    rw [heq] at hs
    have := length_readText_lt h
    simp only [List.length_cons] at hs
    omega
  · exact absurd h (stopMismatch_ne_ok _ _ _)

/-! ## Entries written as objects -/

/-- What is known of an entry so far. -/
structure Draft where
  key? : Option String
  value? : Option Json

/-- The rest behind blanks and the end of the object, if it ends there. -/
def behindObject (s : List Char) : List Char :=
  match skipBlanks s with
  | '\x7d' :: r => r
  | r => r

/-- The key of an entry, behind the name of the field. -/
def readKeyField (draft : Draft) (s : List Char) : Reading Draft :=
  if draft.key?.isSome then stopBefore (behindObject s) (.duplicateField .key)
  else
    match readColon s with
    | .error stop => .error stop
    | .ok r =>
      match readKey r with
      | .error stop => .error stop
      | .ok (key, rest) => .ok (⟨some key, draft.value?⟩, rest)

/-- The value of an entry, behind the name of the field. -/
def readValueField (draft : Draft) (s : List Char) : Reading Draft :=
  if draft.value?.isSome then stopBefore (behindObject s) (.duplicateField .value)
  else
    match readColon s with
    | .error stop => .error stop
    | .ok r =>
      match readEntryValue.read r with
      | .error stop => .error stop
      | .ok (value, rest) => .ok (⟨draft.key?, some value⟩, rest)

/-- A field that does not belong to an entry, behind its name. -/
def passField (draft : Draft) (s : List Char) : Reading Draft :=
  match readColon s with
  | .error stop => .error stop
  | .ok r =>
    match pass r with
    | .error stop => .error stop
    | .ok rest => .ok (draft, rest)

/-- A field of an entry, behind its name. -/
def readField (draft : Draft) (name : String) (s : List Char) : Reading Draft :=
  if name = Field.key.name then readKeyField draft s
  else if name = Field.value.name then readValueField draft s
  else passField draft s

theorem length_readKeyField_lt {draft draft' : Draft} {s r : List Char}
    (h : readKeyField draft s = .ok (draft', r)) : r.length < s.length := by
  unfold readKeyField at h
  split at h
  · simp [stopBefore] at h
  · split at h
    · simp at h
    · rename_i hc
      split at h
      · simp at h
      · rename_i hv
        have h := congrArg List.length (Prod.mk.inj (Except.ok.inj h)).2
        have := length_readColon_lt hc
        have := length_readKey_lt hv
        omega

theorem length_readValueField_lt {draft draft' : Draft} {s r : List Char}
    (h : readValueField draft s = .ok (draft', r)) : r.length < s.length := by
  unfold readValueField at h
  split at h
  · simp [stopBefore] at h
  · split at h
    · simp at h
    · rename_i hc
      split at h
      · simp at h
      · rename_i hv
        have h := congrArg List.length (Prod.mk.inj (Except.ok.inj h)).2
        have := length_readColon_lt hc
        have := readEntryValue.shorter hv
        omega

theorem length_passField_lt {draft draft' : Draft} {s r : List Char}
    (h : passField draft s = .ok (draft', r)) : r.length < s.length := by
  unfold passField at h
  split at h
  · simp at h
  · rename_i hc
    split at h
    · simp at h
    · rename_i hv
      have h := congrArg List.length (Prod.mk.inj (Except.ok.inj h)).2
      have := length_readColon_lt hc
      have := length_pass_lt hv
      omega

theorem length_readField_lt {draft draft' : Draft} {name : String} {s r : List Char}
    (h : readField draft name s = .ok (draft', r)) : r.length < s.length := by
  unfold readField at h
  split at h
  · exact length_readKeyField_lt h
  · split at h
    · exact length_readValueField_lt h
    · exact length_passField_lt h

/-- An entry behind the brace that opens it. -/
def readObject (s : List Char) : Reading Entry :=
  match readMembers (fun draft name => ⟨readField draft name, length_readField_lt⟩) ⟨none, none⟩ s
  with
  | .error stop => .error stop
  | .ok (⟨some key, some value⟩, rest) => .ok (⟨key, value⟩, rest)
  | .ok (⟨none, _⟩, rest) => stopBefore rest (.missingField .key)
  | .ok (⟨some _, none⟩, rest) => stopBefore rest (.missingField .value)

/-! ## Entries written as arrays -/

/-- The end of an array behind its two items. -/
def readPairEnd (entry : Entry) (s : List Char) : Reading Entry :=
  match skipBlanks s with
  | [] => stopAt [] .endInList
  | ']' :: r => .ok (entry, r)
  | ',' :: r =>
    match skipBlanks r with
    | ']' :: r' => stopAt (']' :: r') .trailingComma
    | r' => stopAt r' .trailingCharacters
  | r => stopAt r .trailingCharacters

/-- The second item of an array and its end. -/
def readPairValue (key : String) (s : List Char) : Reading Entry :=
  match skipBlanks s with
  | [] => stopAt [] .endInList
  | ']' :: r => stopBefore r (.invalidLength 1 .pair)
  | ',' :: r =>
    match skipBlanks r with
    | [] => stopAt [] .endInValue
    | ']' :: r' => stopAt (']' :: r') .trailingComma
    | _ =>
      match readEntryValue.read r with
      | .error stop => .error stop
      | .ok (value, rest) => readPairEnd ⟨key, value⟩ rest
  | r => stopAt r .expectedCommaOrBracket

/-- An entry behind the bracket that opens it. -/
def readPair (s : List Char) : Reading Entry :=
  match skipBlanks s with
  | [] => stopAt [] .endInList
  | ']' :: r => stopBefore r (.invalidLength 0 .pair)
  | _ =>
    match readKey s with
    | .error stop => .error stop
    | .ok (key, rest) => readPairValue key rest

theorem length_readPairEnd_lt {entry e : Entry} {s r : List Char}
    (h : readPairEnd entry s = .ok (e, r)) : r.length < s.length := by
  have hs := length_skipBlanks_le s
  unfold readPairEnd at h
  split at h
  · simp [stopAt] at h
  · rename_i heq
    obtain ⟨-, rfl⟩ := by simpa using h
    rw [heq] at hs
    simp only [List.length_cons] at hs
    omega
  · split at h <;> simp [stopAt] at h
  · simp [stopAt] at h

theorem length_readPairValue_lt {key : String} {e : Entry} {s r : List Char}
    (h : readPairValue key s = .ok (e, r)) : r.length < s.length := by
  have hs := length_skipBlanks_le s
  unfold readPairValue at h
  split at h
  · simp [stopAt] at h
  · simp [stopBefore] at h
  · rename_i heq
    rw [heq] at hs
    simp only [List.length_cons] at hs
    split at h
    · simp [stopAt] at h
    · simp [stopAt] at h
    · split at h
      · simp at h
      · rename_i hv
        have := readEntryValue.shorter hv
        have := length_readPairEnd_lt h
        omega
  · simp [stopAt] at h

theorem length_readPair_lt {e : Entry} {s r : List Char} (h : readPair s = .ok (e, r)) :
    r.length < s.length := by
  unfold readPair at h
  split at h
  · simp [stopAt] at h
  · simp [stopBefore] at h
  · split at h
    · simp at h
    · rename_i hk
      have := length_readKey_lt hk
      have := length_readPairValue_lt h
      omega

theorem length_readObject_lt {e : Entry} {s r : List Char} (h : readObject s = .ok (e, r)) :
    r.length < s.length := by
  unfold readObject at h
  split at h
  · simp at h
  · rename_i hm
    obtain ⟨-, rfl⟩ := by simpa using h
    exact length_readMembers_lt hm
  · simp [stopBefore] at h
  · simp [stopBefore] at h

/-! ## Entries and documents -/

/-- An entry in either form. -/
def readEntry (s : List Char) : Reading Entry :=
  match skipBlanks s with
  | '\x7b' :: r => readObject r
  | '[' :: r => readPair r
  | r => stopMismatch .entry r

/-- A list of entries. -/
def readList (s : List Char) : Reading (List Entry) :=
  match skipBlanks s with
  | '[' :: r =>
    readItems
      { read := readEntry
        shorter := by
          intro s r e h
          have hs := length_skipBlanks_le s
          unfold readEntry at h
          split at h
          · rename_i heq
            rw [heq] at hs
            have := length_readObject_lt h
            simp only [List.length_cons] at hs
            omega
          · rename_i heq
            rw [heq] at hs
            have := length_readPair_lt h
            simp only [List.length_cons] at hs
            omega
          · exact absurd h (stopMismatch_ne_ok _ _ _) }
      r
  | r => stopMismatch .list r

theorem length_readList_lt {s r : List Char} {es : List Entry} (h : readList s = .ok (es, r)) :
    r.length < s.length := by
  have hs := length_skipBlanks_le s
  unfold readList at h
  split at h
  · rename_i heq
    rw [heq] at hs
    have := length_readItems_lt h
    simp only [List.length_cons] at hs
    omega
  · exact absurd h (stopMismatch_ne_ok _ _ _)

/-- The entries of a document. -/
def parse (text : String) : Except Json.Error (List Entry) :=
  readDocument ⟨readList, length_readList_lt⟩ text

end KvClient.Entry

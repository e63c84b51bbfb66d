/-!
# Cutting text

* **The first separator cuts a text in one way**: `splitFirst?_eq_some`, `splitFirst?_append`.
-/

namespace KvClient.Text

/-- The pieces of a text between separators; a text without separators is one piece. -/
def splitOn (separator : Char) : List Char → List (List Char)
  | [] => [[]]
  | c :: rest =>
    if c = separator then [] :: splitOn separator rest
    else
      match splitOn separator rest with
      | [] => [[c]]
      | piece :: pieces => (c :: piece) :: pieces

theorem splitOn_ne_nil (separator : Char) (s : List Char) : splitOn separator s ≠ [] := by
  cases s with
  | nil => simp [splitOn]
  | cons c rest =>
    simp only [splitOn]
    split
    · simp
    · split <;> simp

/-- What stands in front of the first separator and behind it, if there is one. -/
def splitFirst? (separator : Char) : List Char → Option (List Char × List Char)
  | [] => none
  | c :: rest =>
    if c = separator then some ([], rest)
    else
      match splitFirst? separator rest with
      | none => none
      | some (before, behind) => some (c :: before, behind)

theorem splitFirst?_eq_some {separator : Char} {s before behind : List Char}
    (h : splitFirst? separator s = some (before, behind)) :
    s = before ++ separator :: behind ∧ separator ∉ before := by
  induction s generalizing before with
  | nil => simp [splitFirst?] at h
  | cons c rest ih =>
    simp only [splitFirst?] at h
    split at h
    · rename_i hc
      obtain ⟨rfl, rfl⟩ := by simpa using h
      simp [hc]
    · rename_i hc
      split at h
      · simp at h
      · rename_i b r hr
        obtain ⟨rfl, rfl⟩ := by simpa using h
        obtain ⟨hs, hm⟩ := ih hr
        exact ⟨by rw [hs]; rfl, by simp [hm]; exact fun h => hc h.symm⟩

theorem splitFirst?_append {separator : Char} {before : List Char} (behind : List Char)
    (h : separator ∉ before) :
    splitFirst? separator (before ++ separator :: behind) = some (before, behind) := by
  induction before with
  | nil => simp [splitFirst?]
  | cons c rest ih =>
    have hc : ¬c = separator := fun hc => h (by simp [hc])
    have hr : separator ∉ rest := fun hr => h (by simp [hr])
    simp [splitFirst?, hc, ih hr]

end KvClient.Text

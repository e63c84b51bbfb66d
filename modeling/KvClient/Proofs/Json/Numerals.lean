import KvClient.Proofs.Json.Grammar

/-!
# Numbers are cut into their parts

A number literal is taken off the front of a text and cut into its parts, as long as the text does
not go on with what could belong to it.  And whatever is taken off as a number is a number literal.

## How it works

* **What may follow a number**: `EndsNumber`; for its parts, `EndsDigits`.
* **Each part is taken off in its turn**: `readWhole_append`, `readFraction_append` and
  `readExponent_append`, hence `readLiteral_numeral`.
* **What is taken off is a number literal**: `exists_of_readLiteral`.
-/

namespace KvClient.Json

variable {s r rest : List Char}

/-! ## What follows a number -/

/-- A text that does not go on with what could belong to a number. -/
def EndsNumber (rest : List Char) : Prop :=
  ∀ c r, rest = c :: r → c.isDigit = false ∧ c ≠ '.' ∧ c ≠ 'e' ∧ c ≠ 'E'

/-- A text that does not go on with a digit. -/
def EndsDigits (rest : List Char) : Prop := ∀ c r, rest = c :: r → c.isDigit = false

theorem EndsNumber.endsDigits (h : EndsNumber rest) : EndsDigits rest := fun c r hr => (h c r hr).1

theorem endsNumber_cons {c : Char} (h : c.isDigit = false ∧ c ≠ '.' ∧ c ≠ 'e' ∧ c ≠ 'E') :
    EndsNumber (c :: rest) := by
  rintro c' r ⟨⟩
  exact h

/-! ## What a number begins with -/

/-- No other character begins a number. -/
theorem ne_of_beginsNumber {c d : Char} (hc : c = '-' ∨ c.isDigit = true)
    (hd : d ≠ '-' ∧ d.isDigit = false) : c ≠ d := by
  rintro rfl
  rcases hc with rfl | hc
  · exact hd.1 rfl
  · simp [hd.2] at hc

theorem isBlank_of_beginsNumber {c : Char} (hc : c = '-' ∨ c.isDigit = true) :
    isBlank c = false := by
  have hne : ∀ x : Char, x ≠ '-' ∧ x.isDigit = false → c ≠ x := fun _ => ne_of_beginsNumber hc
  simp [isBlank, hne ' ' (by decide), hne '\n' (by decide), hne '\t' (by decide),
    hne '\r' (by decide)]

theorem Numeral.text_eq_cons (n : Numeral) :
    ∃ c r, n.text = c :: r ∧ (c = '-' ∨ c.isDigit = true) := by
  unfold Numeral.text
  cases n.negative with
  | true => exact ⟨'-', _, rfl, .inl rfl⟩
  | false =>
    cases hw : n.whole with
    | nil => exact absurd hw n.whole_ne_nil
    | cons c r => exact ⟨c, _, rfl, .inr (n.isDigit_whole c (hw ▸ List.mem_cons_self ..))⟩

/-! ## Number literals -/

theorem spanDigits_append {ds : List Char} (hds : ∀ c ∈ ds, c.isDigit = true)
    (hrest : EndsDigits rest) : spanDigits (ds ++ rest) = (ds, rest) := by
  have hstop : rest.takeWhile Char.isDigit = [] ∧ rest.dropWhile Char.isDigit = rest := by
    cases rest with
    | nil => exact ⟨rfl, rfl⟩
    | cons c r =>
      have hdigit := hrest c r rfl
      exact ⟨List.takeWhile_cons_of_neg (by simp [hdigit]),
        List.dropWhile_cons_of_neg (by simp [hdigit])⟩
  rw [spanDigits, List.takeWhile_append_of_pos hds, List.dropWhile_append_of_pos hds, hstop.1,
    hstop.2, List.append_nil]

theorem readWhole_append (atEnd : Cause) {whole : List Char} (hne : whole ≠ [])
    (hdigits : ∀ c ∈ whole, c.isDigit = true) (hzero : ∀ r, whole = '0' :: r → r = [])
    (hrest : EndsDigits rest) : readWhole atEnd (whole ++ rest) = .ok (whole, rest) := by
  cases whole with
  | nil => exact absurd rfl hne
  | cons c r =>
    rw [List.cons_append, readWhole]
    by_cases hc : c = '0'
    · subst hc
      obtain rfl := hzero r rfl
      have hnone : spanDigits ([] ++ rest) = ([], rest) := spanDigits_append (by simp) hrest
      rw [if_pos rfl, hnone]
      rfl
    · rw [if_neg hc, if_pos (hdigits c (List.mem_cons_self ..)), ← List.cons_append,
        spanDigits_append hdigits hrest]

theorem readFraction_append (atEnd : Cause) {fraction : List Char}
    (hdigits : ∀ c ∈ fraction, c.isDigit = true) (hrest : EndsDigits rest)
    (hpoint : ∀ r, rest ≠ '.' :: r) :
    readFraction atEnd (fractionText fraction ++ rest) = .ok (fraction, rest) := by
  unfold fractionText
  split
  · next h =>
    subst h
    rw [List.nil_append, readFraction]
    exact hpoint
  · next h =>
    rw [List.cons_append, readFraction, spanDigits_append hdigits hrest]
    simp [h]

theorem readExponentDigits_append (atEnd : Cause) (negative : Bool) {digits : List Char}
    (hne : digits ≠ []) (hdigits : ∀ c ∈ digits, c.isDigit = true) (hrest : EndsDigits rest) :
    readExponentDigits atEnd negative (digits ++ rest) = .ok (some (negative, digits), rest) := by
  rw [readExponentDigits, spanDigits_append hdigits hrest]
  simp [hne]

/-- What begins with a digit does not begin with another character. -/
theorem append_ne_cons_of_isDigit {digits : List Char} (hne : digits ≠ [])
    (hdigits : ∀ c ∈ digits, c.isDigit = true) {x : Char} (hx : x.isDigit = false)
    (r : List Char) : digits ++ rest ≠ x :: r := by
  intro hr
  cases digits with
  | nil => exact hne rfl
  | cons d ds =>
    obtain ⟨rfl, -⟩ := List.cons.inj hr
    simp [hdigits d (List.mem_cons_self ..)] at hx

theorem readExponent_append (atEnd : Cause) (exponent? : Option Exponent)
    (hrest : EndsNumber rest) :
    readExponent atEnd (exponentText exponent? ++ rest) =
      .ok (exponent?.map fun e => (decide (e.sign = ['-']), e.digits), rest) := by
  cases exponent? with
  | none =>
    rw [exponentText, List.nil_append]
    unfold readExponent
    split
    · next c r =>
      obtain ⟨-, -, he, hE⟩ := hrest c r rfl
      rw [if_neg (not_or.mpr ⟨he, hE⟩)]
      rfl
    · rfl
  | some e =>
    obtain ⟨mark, sign, digits, hmark, hsign, hne, hdigits⟩ := e
    have hread := fun negative =>
      readExponentDigits_append atEnd negative hne hdigits hrest.endsDigits
    have hmark : mark = 'e' ∨ mark = 'E' := by simpa using hmark
    have hsign : sign = [] ∨ sign = ['+'] ∨ sign = ['-'] := by simpa using hsign
    show readExponent atEnd (mark :: (sign ++ digits) ++ rest) =
      .ok (some (decide (sign = ['-']), digits), rest)
    rw [List.cons_append, List.append_assoc, readExponent.eq_def]
    refine (if_pos hmark).trans ?_
    obtain rfl | rfl | rfl := hsign
    · -- Without a sign the digits follow at once.
      have hsign := @append_ne_cons_of_isDigit rest digits hne hdigits
      split
      · next hr => exact absurd hr (hsign (by decide) _)
      · next hr => exact absurd hr (hsign (by decide) _)
      · exact hread false
    · exact hread false
    · exact hread true

/-- An exponent begins with a letter. -/
theorem exponentText_append_cons {exponent? : Option Exponent} (hrest : EndsNumber rest) {c : Char}
    (h : exponentText exponent? ++ rest = c :: r) : c.isDigit = false ∧ c ≠ '.' := by
  cases exponent? with
  | none =>
    obtain ⟨hdigit, hpoint, -⟩ := hrest c r h
    exact ⟨hdigit, hpoint⟩
  | some e =>
    obtain ⟨rfl, -⟩ := List.cons.inj h
    obtain hmark | hmark : e.mark = 'e' ∨ e.mark = 'E' := by simpa using e.mark_mem
    · rw [hmark]
      decide
    · rw [hmark]
      decide

theorem endsDigits_fractionText (fraction : List Char) {more : List Char}
    (hmore : EndsDigits more) : EndsDigits (fractionText fraction ++ more) := by
  intro c r h
  unfold fractionText at h
  split at h
  · exact hmore c r h
  · obtain ⟨rfl, -⟩ := List.cons.inj h
    rfl

theorem readUnsigned_numeral (atEnd : Cause) (negative : Bool) (n : Numeral)
    (hrest : EndsNumber rest) :
    readUnsigned atEnd negative
        (n.whole ++ (fractionText n.fraction ++ (exponentText n.exponent? ++ rest))) =
      .ok ({ n.literal with negative }, rest) := by
  have hexponent := readExponent_append atEnd n.exponent? hrest
  have hends : EndsDigits (exponentText n.exponent? ++ rest) := fun c r h =>
    (exponentText_append_cons hrest h).1
  have hfraction := readFraction_append atEnd n.isDigit_fraction hends fun r h =>
    (exponentText_append_cons hrest h).2 rfl
  have hwhole := readWhole_append atEnd n.whole_ne_nil n.isDigit_whole n.whole_of_zero
    (endsDigits_fractionText n.fraction hends)
  simp only [readUnsigned, hwhole, hfraction, hexponent]
  rfl

/-- **A number literal is cut into its parts.** -/
theorem readLiteral_numeral (atEnd : Cause) (n : Numeral) (hrest : EndsNumber rest) :
    readLiteral atEnd (n.text ++ rest) = .ok (n.literal, rest) := by
  have hunsigned := fun negative => readUnsigned_numeral atEnd negative n hrest
  rw [Numeral.text, List.append_assoc, List.append_assoc, List.append_assoc]
  cases hn : n.negative with
  | true =>
    have hliteral : n.literal = { n.literal with negative := true } := by
      rw [← hn]
      rfl
    rw [hliteral, ← hunsigned true]
    rfl
  | false =>
    have hliteral : n.literal = { n.literal with negative := false } := by
      rw [← hn]
      rfl
    rw [hliteral, ← hunsigned false]
    -- There is no sign in front of the digits.
    exact readLiteral.eq_2 atEnd _
      (append_ne_cons_of_isDigit n.whole_ne_nil n.isDigit_whole (by decide))

/-! ## What is read as a number -/

theorem eq_append_spanDigits (s : List Char) :
    s = (spanDigits s).1 ++ (spanDigits s).2 ∧ ∀ c ∈ (spanDigits s).1, c.isDigit = true :=
  ⟨List.takeWhile_append_dropWhile.symm, fun c hc => List.all_eq_true.mp List.all_takeWhile c hc⟩

theorem eq_append_of_readWhole {atEnd : Cause} {whole : List Char}
    (h : readWhole atEnd s = .ok (whole, r)) :
    s = whole ++ r ∧ whole ≠ [] ∧ (∀ c ∈ whole, c.isDigit = true) ∧
      ∀ r', whole = '0' :: r' → r' = [] := by
  unfold readWhole at h
  split at h
  · simp [stopBefore] at h
  · next c s =>
    split at h
    · next hc =>
      subst hc
      split at h
      · obtain ⟨rfl, rfl⟩ : ['0'] = whole ∧ s = r := by simpa using h
        simp
      · simp [stopAt] at h
    · next hc =>
      split at h
      · next hdigit =>
        obtain ⟨hs, hdigits⟩ := eq_append_spanDigits (c :: s)
        have hfirst : whole = c :: s.takeWhile Char.isDigit := by
          rw [← List.takeWhile_cons_of_pos hdigit]
          exact (congrArg Prod.fst (Except.ok.inj h)).symm
        rw [Except.ok.inj h] at hs hdigits
        refine ⟨hs, by simp [hfirst], hdigits, fun r' hr' => ?_⟩
        rw [hfirst] at hr'
        exact absurd (List.cons.inj hr').1 hc
      · simp [stopAt] at h

theorem eq_append_of_readFraction {atEnd : Cause} {fraction : List Char}
    (h : readFraction atEnd s = .ok (fraction, r)) :
    s = fractionText fraction ++ r ∧ ∀ c ∈ fraction, c.isDigit = true := by
  unfold readFraction at h
  split at h
  · next s =>
    split at h
    · simp [stopAt] at h
    · next hne =>
      obtain ⟨hs, hdigits⟩ := eq_append_spanDigits s
      rw [Except.ok.inj h] at hs hdigits hne
      have hne : fraction ≠ [] := by simpa using hne
      rw [fractionText, if_neg hne]
      exact ⟨congrArg ('.' :: ·) hs, hdigits⟩
  · obtain ⟨rfl, rfl⟩ : [] = fraction ∧ s = r := by simpa using h
    exact ⟨rfl, by simp⟩

theorem eq_append_of_readExponentDigits {atEnd : Cause} {negative : Bool}
    {e : Option (Bool × List Char)} (h : readExponentDigits atEnd negative s = .ok (e, r)) :
    ∃ digits, s = digits ++ r ∧ digits ≠ [] ∧ ∀ c ∈ digits, c.isDigit = true := by
  unfold readExponentDigits at h
  split at h
  · simp [stopAt] at h
  · next hne =>
    obtain ⟨hs, hdigits⟩ := eq_append_spanDigits s
    obtain ⟨-, rfl⟩ := by simpa using h
    exact ⟨_, hs, by simpa using hne, hdigits⟩

theorem exists_of_readExponent {atEnd : Cause} {e : Option (Bool × List Char)}
    (h : readExponent atEnd s = .ok (e, r)) : ∃ exponent?, s = exponentText exponent? ++ r := by
  unfold readExponent at h
  split at h
  · next c s =>
    split at h
    · next hc =>
      have hmark : c ∈ ['e', 'E'] := by simpa using hc
      split at h
      all_goals
        obtain ⟨digits, rfl, hne, hdigits⟩ := eq_append_of_readExponentDigits h
      · exact ⟨some ⟨c, ['-'], digits, hmark, by decide, hne, hdigits⟩, rfl⟩
      · exact ⟨some ⟨c, ['+'], digits, hmark, by decide, hne, hdigits⟩, rfl⟩
      · exact ⟨some ⟨c, [], digits, hmark, by decide, hne, hdigits⟩, rfl⟩
    · obtain ⟨-, rfl⟩ := by simpa using h
      exact ⟨none, rfl⟩
  · obtain ⟨-, rfl⟩ := by simpa using h
    exact ⟨none, rfl⟩

theorem exists_of_readUnsigned {atEnd : Cause} {negative : Bool} {l : Literal}
    (h : readUnsigned atEnd negative s = .ok (l, r)) :
    ∃ n : Numeral, (if negative then ['-'] else []) ++ s = n.text ++ r := by
  unfold readUnsigned at h
  split at h
  · simp at h
  · next hwhole =>
    split at h
    · simp at h
    · next hfraction =>
      split at h
      · simp at h
      · next hexponent =>
        obtain ⟨-, rfl⟩ := Prod.mk.inj (Except.ok.inj h)
        obtain ⟨rfl, hne, hdigits, hzero⟩ := eq_append_of_readWhole hwhole
        obtain ⟨rfl, hdigits'⟩ := eq_append_of_readFraction hfraction
        obtain ⟨exponent?, rfl⟩ := exists_of_readExponent hexponent
        exact ⟨⟨negative, _, _, exponent?, hne, hdigits, hzero, hdigits'⟩, by
          simp [Numeral.text]⟩

/-- **What is read as a number is a number literal.** -/
theorem exists_of_readLiteral {atEnd : Cause} {l : Literal}
    (h : readLiteral atEnd s = .ok (l, r)) : ∃ n : Numeral, s = n.text ++ r := by
  unfold readLiteral at h
  split at h
  · exact exists_of_readUnsigned h
  · exact exists_of_readUnsigned h

end KvClient.Json

import KvClient.Json.Skip
import KvClient.Proofs.Json.Scalars

/-!
# Strings are read as they are spelled

A string literal is taken off the front of a text whatever its spelling.  It is read as the text
that it stands for, and refused if it stands for none; who passes it over does not care.  And
whatever is taken off as a string is a string literal.

## How it works

* **A string literal is read or passed over piece by piece**: `readText_pieces`, `passText_pieces`.
* **What is read or passed over is a string literal**: `pieced_of_readText`, `pieced_of_passText`.
-/

namespace KvClient.Json

variable {done s r rest : List Char} {stop : Stop}

/-! ## Escapes -/

theorem letterEscape?_eq_some_iff {l c : Char} : letterEscape? l = some c ↔ (l, c) ∈ letters := by
  have hall : ∀ p ∈ letters, letterEscape? p.1 = some p.2 := by decide
  refine ⟨fun h => ?_, hall (l, c)⟩
  unfold letterEscape? at h
  repeat' split at h
  case isFalse => simp at h
  all_goals
    obtain rfl := Option.some.inj h
    simp [letters, *]

theorem ne_u_of_mem_letters {l c : Char} (h : (l, c) ∈ letters) : l ≠ 'u' := by
  have hall : ∀ p ∈ letters, p.1 ≠ 'u' := by decide
  exact hall (l, c) h

theorem hexValue?_char (d : HexDigit) : hexValue? d.char = some d.value := by
  have hall : ∀ n : Fin 16, ∀ upper, hexValue? (HexDigit.char ⟨n, upper⟩) = some n.val := by decide
  exact hall d.value d.upper

theorem exists_of_hexValue? {c : Char} {n : Nat} (h : hexValue? c = some n) :
    ∃ d : HexDigit, d.char = c := by
  -- A digit is told by its code point, which is an offset in one of three ranges.
  have hcode : ∀ n : Fin 16, ∀ upper, (HexDigit.char ⟨n, upper⟩).toNat =
      if n.val < 10 then n.val + 0x30 else if upper then n.val + 0x37 else n.val + 0x57 := by decide
  suffices ∃ m : Nat, ∃ hm : m < 16, ∃ upper, (HexDigit.char ⟨⟨m, hm⟩, upper⟩).toNat = c.toNat by
    obtain ⟨m, hm, upper, hd⟩ := this
    exact ⟨⟨⟨m, hm⟩, upper⟩, Char.toNat_inj.mp hd⟩
  simp only [hcode]
  unfold hexValue? at h
  repeat' split at h
  · next hc =>
    have hlow : 0x30 ≤ c.toNat := hc.1
    have hhigh : c.toNat ≤ 0x39 := hc.2
    exact ⟨c.toNat - 0x30, by omega, false, by rw [if_pos] <;> omega⟩
  · next hc =>
    have hlow : 0x61 ≤ c.toNat := hc.1
    have hhigh : c.toNat ≤ 0x66 := hc.2
    exact ⟨c.toNat - 0x57, by omega, false, by rw [if_neg, if_neg] <;> first | omega | decide⟩
  · next hc =>
    have hlow : 0x41 ≤ c.toNat := hc.1
    have hhigh : c.toNat ≤ 0x46 := hc.2
    exact ⟨c.toNat - 0x37, by omega, true, by rw [if_neg, if_pos] <;> first | omega | rfl⟩
  · simp at h

theorem readUnit_char (a b c d : HexDigit) (rest : List Char) :
    readUnit (a.char :: b.char :: c.char :: d.char :: rest) = .ok (unitValue a b c d, rest) := by
  have hsize : ¬ Utf8.size [a.char, b.char, c.char, d.char] < 4 := by
    have ha := a.char.utf8Size_pos
    have hb := b.char.utf8Size_pos
    have hc := c.char.utf8Size_pos
    have hd := d.char.utf8Size_pos
    simp only [Utf8.size, List.foldr_cons, List.foldr_nil]
    omega
  rw [readUnit]
  refine (if_neg hsize).trans ?_
  simp only [hexUnit?, hexValue?_char]
  rfl

theorem exists_of_readUnit {n : Nat} (h : readUnit s = .ok (n, r)) :
    ∃ a b c d : HexDigit, s = a.char :: b.char :: c.char :: d.char :: r := by
  unfold readUnit at h
  split at h
  · simp [stopBefore] at h
  · split at h
    · split at h
      · next hunit =>
        unfold hexUnit? at hunit
        split at hunit
        · next ha hb hc hd =>
          obtain ⟨a, rfl⟩ := exists_of_hexValue? ha
          obtain ⟨b, rfl⟩ := exists_of_hexValue? hb
          obtain ⟨c, rfl⟩ := exists_of_hexValue? hc
          obtain ⟨d, rfl⟩ := exists_of_hexValue? hd
          obtain ⟨-, rfl⟩ := by simpa using h
          exact ⟨a, b, c, d, rfl⟩
        · simp at hunit
      · simp at h
    · simp at h

theorem readEscape_letter {l c : Char} (h : (l, c) ∈ letters) (rest : List Char) :
    readEscape (l :: rest) = .ok (c, rest) := by
  rw [readEscape]
  · rw [letterEscape?_eq_some_iff.mpr h]
  · exact ne_u_of_mem_letters h

theorem readEscape_unit (a b c d : HexDigit) (rest : List Char) :
    readEscape ('u' :: a.char :: b.char :: c.char :: d.char :: rest) =
      if isTrailing (unitValue a b c d) then stopBefore rest .loneSurrogate
      else if isLeading (unitValue a b c d) then readTrailing (unitValue a b c d) rest
      else .ok (Char.ofNat (unitValue a b c d), rest) := by
  simp only [readEscape, readUnit_char]

theorem readTrailing_unit (leading : Nat) (a b c d : HexDigit) (rest : List Char) :
    readTrailing leading ('\\' :: 'u' :: a.char :: b.char :: c.char :: d.char :: rest) =
      if isTrailing (unitValue a b c d) then
        .ok (Char.ofNat (pairValue leading (unitValue a b c d)), rest)
      else stopBefore rest .loneSurrogate := by
  simp only [readTrailing, readUnit_char]

/-! ## String literals -/

theorem readText_backslash_error (h : readEscape s = .error stop) (done : List Char) :
    readText done ('\\' :: s) = .error stop := by
  rw [readText]
  split
  · next stop' hstop =>
    obtain rfl : stop = stop' := by simpa [h] using hstop
    rfl
  · next hok => simp [h] at hok

/-- The first half of a surrogate pair needs the second one behind it. -/
theorem ofUnits?_leading_utf16 {n : Nat} (h : isLeading n = true) (c : Char) (us : List Nat) :
    ofUnits? (n :: (utf16 c ++ us)) = none := by
  have hc := Utf8.toNat_cases c
  have hfirst : ∃ m us', utf16 c ++ us = m :: us' ∧ isTrailing m = false := by
    unfold utf16
    split
    · exact ⟨_, _, rfl, by simp [isTrailing]; omega⟩
    · exact ⟨_, _, rfl, by simp [isTrailing]; omega⟩
  obtain ⟨m, us', hus, hm⟩ := hfirst
  rw [hus, ofUnits?_leading h]
  simp [hm]

theorem readText_plain_piece {c : Char} (h : c ≠ '"' ∧ c ≠ '\\' ∧ ¬isControl c = true) :
    readText done ((Piece.plain c h).text ++ rest) = readText (c :: done) rest :=
  readText_plain h.1 h.2.1 h.2.2

theorem readText_letter_piece {l c : Char} (h : (l, c) ∈ letters) :
    readText done ((Piece.letter l c h).text ++ rest) = readText (c :: done) rest :=
  readText_backslash (readEscape_letter h rest)

/-- What is no escape of a unit is no second half. -/
theorem exists_readTrailing_error (leading : Nat) (h : ∀ r, s ≠ '\\' :: 'u' :: r) :
    ∃ stop, readTrailing leading s = .error stop := by
  unfold readTrailing
  split
  · next r => exact absurd rfl (h r)
  all_goals exact ⟨_, rfl⟩

section

variable {a b c d a' b' c' d' : HexDigit}

/-- A unit that is no surrogate is read as a character. -/
theorem readText_single (htrailing : ¬isTrailing (unitValue a b c d) = true)
    (hleading : ¬isLeading (unitValue a b c d) = true) :
    readText done ((Piece.unit a b c d).text ++ s) =
      readText (Char.ofNat (unitValue a b c d) :: done) s := by
  have hescape := readEscape_unit a b c d s
  rw [if_neg htrailing, if_neg hleading] at hescape
  exact readText_backslash hescape

theorem readText_trailing (h : isTrailing (unitValue a b c d) = true) :
    (readText done ((Piece.unit a b c d).text ++ s)).toOption = none := by
  have hescape := readEscape_unit a b c d s
  rw [if_pos h] at hescape
  exact congrArg Except.toOption (readText_backslash_error hescape done)

/-- The first half of a surrogate pair is refused with whatever is no unit behind it. -/
theorem readText_lone (hleading : isLeading (unitValue a b c d) = true)
    (h : ∀ r, s ≠ '\\' :: 'u' :: r) :
    (readText done ((Piece.unit a b c d).text ++ s)).toOption = none := by
  obtain ⟨stop, hstop⟩ := exists_readTrailing_error (unitValue a b c d) h
  have hescape := readEscape_unit a b c d s
  simp only [isTrailing_of_isLeading hleading, hleading, hstop, if_true] at hescape
  exact congrArg Except.toOption (readText_backslash_error hescape done)

/-- The first half of a surrogate pair and a unit are read as the pair, if they are one. -/
theorem readText_pair (hleading : isLeading (unitValue a b c d) = true) :
    (readText done ((Piece.unit a b c d).text ++ ((Piece.unit a' b' c' d').text ++ s))).toOption =
      if isTrailing (unitValue a' b' c' d') then
        (readText (Char.ofNat (pairValue (unitValue a b c d) (unitValue a' b' c' d')) :: done)
          s).toOption
      else none := by
  have htext : (Piece.unit a' b' c' d').text ++ s =
    '\\' :: 'u' :: a'.char :: b'.char :: c'.char :: d'.char :: s := rfl
  have hescape := readEscape_unit a b c d ((Piece.unit a' b' c' d').text ++ s)
  rw [htext, readTrailing_unit] at hescape
  simp only [isTrailing_of_isLeading hleading, hleading, if_true] at hescape
  by_cases htrailing : isTrailing (unitValue a' b' c' d') = true
  · simp only [htrailing, if_true] at hescape ⊢
    exact congrArg Except.toOption (readText_backslash hescape)
  · simp only [htrailing] at hescape ⊢
    exact congrArg Except.toOption (readText_backslash_error hescape done)

end

/-- These pieces are read as the characters of their units, if they have them. -/
def ReadsPieces (pieces : List Piece) : Prop :=
  ∀ done rest, (readText done (pieces.flatMap Piece.text ++ '"' :: rest)).toOption =
    (ofUnits? (pieces.flatMap Piece.units)).map fun cs => (String.ofList (done.reverse ++ cs), rest)

namespace ReadsPieces

variable {pieces : List Piece}

theorem nil : ReadsPieces [] := by
  intro done rest
  rw [List.flatMap_nil, List.nil_append, readText_end]
  simp [ofUnits?, Except.toOption]

theorem plain {c : Char} (h : c ≠ '"' ∧ c ≠ '\\' ∧ ¬isControl c = true)
    (hpieces : ReadsPieces pieces) : ReadsPieces (.plain c h :: pieces) := by
  intro done rest
  rw [List.flatMap_cons, List.append_assoc, readText_plain_piece, hpieces, List.flatMap_cons,
    Piece.units, ofUnits?_utf16, Option.map_map]
  simp [Function.comp_def]

theorem letter {l c : Char} (h : (l, c) ∈ letters) (hpieces : ReadsPieces pieces) :
    ReadsPieces (.letter l c h :: pieces) := by
  intro done rest
  rw [List.flatMap_cons, List.append_assoc, readText_letter_piece, hpieces, List.flatMap_cons,
    Piece.units, ofUnits?_utf16, Option.map_map]
  simp [Function.comp_def]

variable {a b c d : HexDigit}

theorem single (htrailing : ¬isTrailing (unitValue a b c d) = true)
    (hleading : ¬isLeading (unitValue a b c d) = true) (hpieces : ReadsPieces pieces) :
    ReadsPieces (.unit a b c d :: pieces) := by
  intro done rest
  rw [List.flatMap_cons, List.append_assoc, List.flatMap_cons, Piece.units, List.singleton_append,
    readText_single htrailing hleading, hpieces,
    ofUnits?_single (by simpa using htrailing) (by simpa using hleading), Option.map_map]
  simp [Function.comp_def]

/-- A leading surrogate needs its other half right behind it. -/
theorem leading (hleading : isLeading (unitValue a b c d) = true)
    (htail : ReadsPieces pieces.tail) : ReadsPieces (.unit a b c d :: pieces) := by
  intro done rest
  rw [List.flatMap_cons, List.append_assoc, List.flatMap_cons, Piece.units, List.singleton_append]
  cases pieces with
  | nil =>
    rw [readText_lone hleading (by simp), ofUnits?_leading hleading]
    rfl
  | cons next pieces =>
    cases next with
    | plain c' h =>
      have hlone := @readText_lone done ((Piece.plain c' h :: pieces).flatMap Piece.text ++
        '"' :: rest) a b c d hleading fun r hr => h.2.1 (List.cons.inj hr).1
      rw [hlone, List.flatMap_cons, Piece.units, ofUnits?_leading_utf16 hleading, Option.map_none]
    | letter l c' h =>
      have hlone := @readText_lone done ((Piece.letter l c' h :: pieces).flatMap Piece.text ++
        '"' :: rest) a b c d hleading fun r hr =>
          ne_u_of_mem_letters h (List.cons.inj (List.cons.inj hr).2).1
      rw [hlone, List.flatMap_cons, Piece.units, ofUnits?_leading_utf16 hleading, Option.map_none]
    | unit a' b' c' d' =>
      have hpieces : ReadsPieces pieces := htail
      rw [List.flatMap_cons, List.append_assoc, readText_pair hleading, hpieces,
        List.flatMap_cons, Piece.units, List.singleton_append, ofUnits?_leading hleading]
      by_cases hpair : isTrailing (unitValue a' b' c' d') = true
      · simp [hpair, Function.comp_def]
      · simp [hpair]

theorem unit (hpieces : ReadsPieces pieces) (htail : ReadsPieces pieces.tail) :
    ReadsPieces (.unit a b c d :: pieces) := by
  by_cases htrailing : isTrailing (unitValue a b c d) = true
  · intro done rest
    rw [List.flatMap_cons, List.append_assoc, List.flatMap_cons, Piece.units,
      List.singleton_append, readText_trailing htrailing, ofUnits?_trailing htrailing,
      Option.map_none]
  by_cases hleading : isLeading (unitValue a b c d) = true
  · exact leading hleading htail
  · exact single htrailing hleading hpieces

end ReadsPieces

/-- **A string literal is read as the text that it stands for**, and refused if there is none. -/
theorem readText_pieces (pieces : List Piece) : ReadsPieces pieces := by
  -- A pair of surrogates takes two pieces at once.
  suffices ReadsPieces pieces ∧ ReadsPieces pieces.tail from this.1
  induction pieces with
  | nil => exact ⟨.nil, .nil⟩
  | cons piece pieces ih =>
    refine ⟨?_, ih.1⟩
    cases piece with
    | plain c h => exact .plain h ih.1
    | letter l c h => exact .letter h ih.1
    | unit a b c d => exact .unit ih.1 ih.2

theorem passEscape_letter {l c : Char} (h : (l, c) ∈ letters) (rest : List Char) :
    passEscape (l :: rest) = .ok rest := by
  have hletter := letterEscape?_eq_some_iff.mpr h
  rw [passEscape]
  · rw [hletter]
    rfl
  · exact ne_u_of_mem_letters h

theorem passEscape_unit (a b c d : HexDigit) (rest : List Char) :
    passEscape ('u' :: a.char :: b.char :: c.char :: d.char :: rest) = .ok rest := by
  simp only [passEscape, readUnit_char]

theorem passText_backslash (h : passEscape s = .ok rest) :
    passText ('\\' :: s) = passText rest := by
  rw [passText]
  split
  · next stop hstop => simp [h] at hstop
  · next rest' hok =>
    obtain rfl : rest = rest' := by simpa [h] using hok
    rfl

theorem passText_plain {c : Char} (hquote : c ≠ '"') (hslash : c ≠ '\\')
    (hcontrol : ¬isControl c = true) : passText (c :: s) = passText s := by
  rw [passText]
  · rw [if_neg hcontrol]
  · exact hquote
  · exact hslash

/-- **A string literal is passed over**, whatever it stands for. -/
theorem passText_pieces (pieces : List Piece) (rest : List Char) :
    passText (pieces.flatMap Piece.text ++ '"' :: rest) = .ok rest := by
  induction pieces with
  | nil => rw [List.flatMap_nil, List.nil_append, passText]
  | cons p pieces ih =>
    rw [List.flatMap_cons, List.append_assoc, ← ih]
    cases p with
    | plain c h => exact passText_plain h.1 h.2.1 h.2.2
    | letter l c h => exact passText_backslash (passEscape_letter h _)
    | unit a b c d => exact passText_backslash (passEscape_unit a b c d _)

/-! ## What is read as a string literal -/

/-- A text begins with pieces of a string literal, and goes on with `r`. -/
def Pieced (s r : List Char) : Prop := ∃ pieces : List Piece, s = pieces.flatMap Piece.text ++ r

theorem Pieced.refl (s : List Char) : Pieced s s := ⟨[], rfl⟩

theorem Pieced.cons (p : Piece) (h : Pieced s r) : Pieced (p.text ++ s) r := by
  obtain ⟨pieces, rfl⟩ := h
  exact ⟨p :: pieces, by rw [List.flatMap_cons, List.append_assoc]⟩

theorem Pieced.trans (h : Pieced s r) (h' : Pieced r rest) : Pieced s rest := by
  obtain ⟨pieces, rfl⟩ := h
  obtain ⟨pieces', rfl⟩ := h'
  exact ⟨pieces ++ pieces', by rw [List.flatMap_append, List.append_assoc]⟩

theorem pieced_of_readTrailing {leading : Nat} {c : Char}
    (h : readTrailing leading s = .ok (c, r)) : Pieced s r := by
  unfold readTrailing at h
  split at h
  · split at h
    · simp at h
    · next hunit =>
      obtain ⟨a, b, c, d, rfl⟩ := exists_of_readUnit hunit
      split at h
      · obtain ⟨-, rfl⟩ := by simpa using h
        exact .cons (.unit a b c d) (.refl _)
      · simp [stopBefore] at h
  all_goals simp [stopBefore, stopAt] at h

theorem pieced_of_readEscape {c : Char} (h : readEscape s = .ok (c, r)) :
    Pieced ('\\' :: s) r := by
  unfold readEscape at h
  split at h
  · simp [stopBefore] at h
  · split at h
    · simp at h
    · next hunit =>
      obtain ⟨a, b, c, d, rfl⟩ := exists_of_readUnit hunit
      refine .cons (.unit a b c d) ?_
      split at h
      · simp [stopBefore] at h
      · split at h
        · exact pieced_of_readTrailing h
        · obtain ⟨-, rfl⟩ := by simpa using h
          exact .refl _
  · split at h
    · next hletter =>
      obtain ⟨-, rfl⟩ := by simpa using h
      exact .cons (.letter _ _ (letterEscape?_eq_some_iff.mp hletter)) (.refl _)
    · simp [stopAt] at h

/-- **What is read as a string is a string literal.** -/
theorem pieced_of_readText {t : String} (h : readText done s = .ok (t, r)) :
    Pieced s ('"' :: r) := by
  fun_induction readText done s with
  | case1 => simp [stopBefore] at h
  | case2 =>
    obtain ⟨-, rfl⟩ := by simpa using h
    exact .refl _
  | case3 => simp at h
  | case4 done s c rest hescape ih => exact (pieced_of_readEscape hescape).trans (ih h)
  | case5 => simp [stopBefore] at h
  | case6 done c s hquote hslash hcontrol ih =>
    exact .cons (.plain c ⟨hquote, hslash, hcontrol⟩) (ih h)

theorem pieced_of_passEscape (h : passEscape s = .ok r) : Pieced ('\\' :: s) r := by
  unfold passEscape at h
  split at h
  · simp [stopBefore] at h
  · split at h
    · simp at h
    · next hunit =>
      obtain ⟨a, b, c, d, rfl⟩ := exists_of_readUnit hunit
      obtain rfl := by simpa using h
      exact .cons (.unit a b c d) (.refl _)
  · split at h
    · next hletter =>
      obtain ⟨c, hletter⟩ := Option.isSome_iff_exists.mp hletter
      obtain rfl := by simpa using h
      exact .cons (.letter _ _ (letterEscape?_eq_some_iff.mp hletter)) (.refl _)
    · simp [stopAt] at h

/-- **What is passed over as a string is a string literal.** -/
theorem pieced_of_passText (h : passText s = .ok r) : Pieced s ('"' :: r) := by
  fun_induction passText s with
  | case1 => simp [stopBefore] at h
  | case2 =>
    obtain rfl := by simpa using h
    exact .refl _
  | case3 => simp at h
  | case4 s rest hescape ih => exact (pieced_of_passEscape hescape).trans (ih h)
  | case5 => simp [stopBefore] at h
  | case6 c s hquote hslash hcontrol ih =>
    exact .cons (.plain c ⟨hquote, hslash, hcontrol⟩) (ih h)

end KvClient.Json

import KvClient.Json.Printer
import KvClient.Proofs.Json.Numerals

/-!
# Scalars are read back

What is written for a string, an integer, a truth value or nothing at all is taken off the front of
a text as a whole, and gives back what it was written for.  Behind a number the text must not go on
with what could belong to it.

## How it works

* **Each character of a string is read as itself**: `readText_escape`, hence `readText_quote`.
* **An integer is written as a number literal**: `Numeral.text_ofInt`, so that one that can be kept
  is read as itself: `readNumber_intText`.
* **A scalar is read as itself**: `readScalar_quote`, `readScalar_intText`, `readScalar_bool` and
  `readScalar_null`.
-/

namespace KvClient.Json

variable {rest : List Char}

/-! ## Strings -/

theorem readText_end (done : List Char) (rest : List Char) :
    readText done ('"' :: rest) = .ok (String.ofList done.reverse, rest) := by
  rw [readText]

theorem readText_backslash {done s : List Char} {c : Char} (h : readEscape s = .ok (c, rest)) :
    readText done ('\\' :: s) = readText (c :: done) rest := by
  rw [readText]
  split
  · next stop hstop => simp [h] at hstop
  · next c' rest' hok =>
    obtain ⟨rfl, rfl⟩ := by simpa [h] using hok
    rfl

theorem readText_plain {done s : List Char} {c : Char} (hquote : c ≠ '"') (hslash : c ≠ '\\')
    (hcontrol : ¬ isControl c = true) : readText done (c :: s) = readText (c :: done) s := by
  rw [readText]
  · rw [if_neg hcontrol]
  · exact hquote
  · exact hslash

/-- A control character is spelled by its code point. -/
theorem readEscape_control {c : Char} (h : isControl c = true) (rest : List Char) :
    readEscape ('u' :: '0' :: '0' :: Text.hexDigit (c.toNat / 16) ::
      Text.hexDigit (c.toNat % 16) :: rest) = .ok (c, rest) := by
  have hall : ∀ n ∈ List.range 32, hexUnit? '0' '0' (Text.hexDigit (n / 16))
      (Text.hexDigit (n % 16)) = some n ∧ isTrailing n = false ∧ isLeading n = false ∧
      ¬ Utf8.size ['0', '0', Text.hexDigit (n / 16), Text.hexDigit (n % 16)] < 4 := by decide
  obtain ⟨hunit, htrailing, hleading, hsize⟩ :=
    hall c.toNat (List.mem_range.mpr (by simpa [isControl] using h))
  have hread : readUnit ('0' :: '0' :: Text.hexDigit (c.toNat / 16) ::
      Text.hexDigit (c.toNat % 16) :: rest) = .ok (c.toNat, rest) := by
    rw [readUnit]
    refine (if_neg hsize).trans ?_
    rw [hunit]
  rw [readEscape, hread]
  simp [htrailing, hleading]

/-- **A character of a string is read as itself.** -/
theorem readText_escape (done : List Char) (c : Char) (rest : List Char) :
    readText done (escape c ++ rest) = readText (c :: done) rest := by
  by_cases hquote : c = '"'
  · subst hquote
    exact readText_backslash rfl
  by_cases hslash : c = '\\'
  · subst hslash
    exact readText_backslash rfl
  by_cases hb : c = '\x08'
  · subst hb
    exact readText_backslash rfl
  by_cases ht : c = '\t'
  · subst ht
    exact readText_backslash rfl
  by_cases hn : c = '\n'
  · subst hn
    exact readText_backslash rfl
  by_cases hf : c = '\x0c'
  · subst hf
    exact readText_backslash rfl
  by_cases hr : c = '\r'
  · subst hr
    exact readText_backslash rfl
  rw [escape, if_neg hquote, if_neg hslash, if_neg hb, if_neg ht, if_neg hn, if_neg hf, if_neg hr]
  by_cases hcontrol : isControl c = true
  · rw [if_pos hcontrol]
    exact readText_backslash (readEscape_control hcontrol rest)
  · rw [if_neg hcontrol]
    exact readText_plain hquote hslash hcontrol

theorem readText_escapes (done cs : List Char) (rest : List Char) :
    readText done (cs.flatMap escape ++ '"' :: rest) =
      .ok (String.ofList (done.reverse ++ cs), rest) := by
  induction cs generalizing done with
  | nil =>
    rw [List.append_nil]
    exact readText_end done rest
  | cons c cs ih =>
    rw [List.flatMap_cons, List.append_assoc, readText_escape, ih, List.reverse_cons,
      List.append_assoc]
    rfl

/-- **A string literal is read as its text.** -/
theorem readText_quote (s : String) (rest : List Char) :
    readText [] (s.toList.flatMap escape ++ '"' :: rest) = .ok (s, rest) := by
  rw [readText_escapes, List.reverse_nil, List.nil_append, String.ofList_toList]

/-! ## Integers -/

/-- The literal that an integer is written as. -/
def Number.intLiteral (n : Int) : Literal := ⟨decide (n < 0), Decimal.digits n.natAbs, [], none⟩

/-- An integer as a number literal. -/
def Numeral.ofInt (n : Int) : Numeral where
  negative := decide (n < 0)
  whole := Decimal.digits n.natAbs
  fraction := []
  exponent? := none
  whole_ne_nil := Decimal.digits_ne_nil _
  isDigit_whole _ := Decimal.isDigit_of_mem_digits
  whole_of_zero r hr := by
    by_cases hn : n.natAbs = 0
    · rw [hn, Decimal.digits] at hr
      exact (List.cons.inj hr).2.symm
    · exact absurd rfl (Decimal.head_digits_ne_zero hn hr)
  isDigit_fraction _ hc := absurd hc List.not_mem_nil

theorem Numeral.text_ofInt (n : Int) : (ofInt n).text = Number.intText n := by
  have hplain : fractionText [] ++ exponentText none = [] := rfl
  rw [text, Number.intText, ofInt, hplain, List.append_nil]
  by_cases hn : n < 0
  · rw [if_pos (decide_eq_true hn), if_pos hn]
    rfl
  · rw [if_neg (by simpa using hn), if_neg hn]
    rfl

theorem readLiteral_intText (atEnd : Cause) (n : Int) (hrest : EndsNumber rest) :
    readLiteral atEnd (Number.intText n ++ rest) = .ok (Number.intLiteral n, rest) := by
  rw [← Numeral.text_ofInt]
  exact readLiteral_numeral atEnd (Numeral.ofInt n) hrest

theorem value_intLiteral (n : Int) (fits : FitsInteger n) :
    (Number.intLiteral n).value = .ok (.integer n fits) := by
  have hkept : Number.ofInt? n = some (.integer n fits) := dif_pos fits
  have hinteger : (Number.intLiteral n).integer? = some (.integer n fits) := by
    simp only [Literal.integer?, Number.intLiteral, Decimal.ofDigits_digits]
    by_cases hn : n < 0
    · have hne : n.natAbs ≠ 0 := by omega
      have hneg : -(n.natAbs : Int) = n := by omega
      rw [if_pos (decide_eq_true hn), if_neg hne, hneg, hkept]
    · have hpos : (n.natAbs : Int) = n := by omega
      rw [if_neg (by simpa using hn), hpos, hkept]
  rw [Literal.value, hinteger]
  rfl

/-- **An integer that can be kept is read as itself.** -/
theorem readNumber_intText (n : Int) (fits : FitsInteger n) (hrest : EndsNumber rest) :
    readNumber (Number.intText n ++ rest) = .ok (.integer n fits, rest) := by
  rw [readNumber, readLiteral_intText .endInValue n hrest]
  simp only [value_intLiteral n fits]

/-! ## Scalars -/

theorem intText_eq_cons (n : Int) :
    ∃ c r, Number.intText n = c :: r ∧ (c = '-' ∨ c.isDigit = true) := by
  rw [← Numeral.text_ofInt]
  exact (Numeral.ofInt n).text_eq_cons

theorem quote_append (s : String) (rest : List Char) :
    quote s ++ rest = '"' :: (s.toList.flatMap escape ++ '"' :: rest) := by
  simp [quote]

theorem readScalar_quote (s : String) (rest : List Char) :
    readScalar (quote s ++ rest) = .ok (.string s, rest) := by
  rw [quote_append, readScalar, readText_quote]

theorem readScalar_number {c : Char} {r : List Char} (hc : c = '-' ∨ c.isDigit = true) :
    readScalar (c :: r) =
      match readNumber (c :: r) with
      | .error stop => .error stop
      | .ok (n, rest) => .ok (.number n, rest) := by
  rw [readScalar]
  · exact if_pos hc
  -- A letter or a quote begins no number.
  · exact ne_of_beginsNumber hc (by decide)
  · exact ne_of_beginsNumber hc (by decide)
  · exact ne_of_beginsNumber hc (by decide)
  · exact ne_of_beginsNumber hc (by decide)

theorem readScalar_intText (n : Int) (fits : FitsInteger n) (hrest : EndsNumber rest) :
    readScalar (Number.intText n ++ rest) = .ok (.number (.integer n fits), rest) := by
  have hnumber := readNumber_intText n fits hrest
  obtain ⟨c, r, htext, hc⟩ := intText_eq_cons n
  rw [htext, List.cons_append] at hnumber ⊢
  rw [readScalar_number hc, hnumber]

theorem readScalar_null (rest : List Char) :
    readScalar (print .null ++ rest) = .ok (.null, rest) := by
  simp [print, readScalar, readConstant, readWord]

theorem readScalar_bool (b : Bool) (rest : List Char) :
    readScalar (print (.bool b) ++ rest) = .ok (.bool b, rest) := by
  cases b <;> simp [print, readScalar, readConstant, readWord]

end KvClient.Json

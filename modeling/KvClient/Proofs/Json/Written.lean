import KvClient.Json.Printer

/-!
# What is written into a document

A value is written without control characters: numbers consist of digits and a few signs, and
inside a string literal every control character is spelled out.

* **Numbers**: `visible_writeFloat`, `visible_text`.
* **String literals**: `visible_quote`.
* **Values**: `visible_print`.
-/

namespace KvClient.Json

/-- No control character stands in a text. -/
def Visible (cs : List Char) : Prop := ∀ c ∈ cs, isControl c = false

instance (cs : List Char) : Decidable (Visible cs) :=
  decidable_of_iff (cs.all (!isControl ·) = true) (by simp [Visible])

namespace Visible

theorem nil : Visible [] := by simp [Visible]

theorem cons {c : Char} {cs : List Char} (hc : isControl c = false) (h : Visible cs) :
    Visible (c :: cs) := List.forall_mem_cons.mpr ⟨hc, h⟩

theorem append {a b : List Char} (ha : Visible a) (hb : Visible b) : Visible (a ++ b) :=
  List.forall_mem_append.mpr ⟨ha, hb⟩

theorem of_subset {a b : List Char} (h : Visible b) (hab : a ⊆ b) : Visible a :=
  fun c hc => h c (hab hc)

theorem replicate {c : Char} (n : Nat) (hc : isControl c = false) :
    Visible (List.replicate n c) := by
  intro x hx
  rw [List.eq_of_mem_replicate hx]
  exact hc

end Visible

/-! ## Numbers -/

theorem visible_digits (n : Nat) : Visible (Decimal.digits n) := by
  intro c hc
  have hdigit := Decimal.isDigit_of_mem_digits hc
  simp only [Char.isDigit, Bool.and_eq_true, decide_eq_true_eq] at hdigit
  have hle : (0x30 : Nat) ≤ c.toNat := hdigit.1
  simp only [isControl, decide_eq_false_iff_not]
  omega

theorem visible_plain (n : Decimal.Numeral) : Visible (Decimal.plain n) := by
  have hdigits := visible_digits n.significand
  unfold Decimal.plain
  dsimp only
  split
  · exact (hdigits.append (.replicate _ (by decide))).append (by decide)
  · split
    · refine (hdigits.of_subset (List.take_subset _ _)).append (.cons (by decide) ?_)
      exact hdigits.of_subset (List.drop_subset _ _)
    · refine .cons (by decide) (.cons (by decide) ?_)
      exact (Visible.replicate _ (by decide)).append hdigits

theorem visible_scientific (n : Decimal.Numeral) (leading : Int) :
    Visible (Decimal.scientific n leading) := by
  have hdigits := visible_digits n.significand
  unfold Decimal.scientific
  dsimp only
  refine Visible.append ?_ (.cons (by decide) (.cons ?_ (visible_digits _)))
  · split
    · exact .nil
    · next d hd => exact hd ▸ hdigits
    · next d ds _ hd =>
      rw [hd] at hdigits
      obtain ⟨hhead, htail⟩ := List.forall_mem_cons.mp hdigits
      exact .cons hhead (.cons (by decide) htail)
  · split <;> decide

theorem visible_write (layout : Decimal.Layout) (n : Decimal.Numeral) :
    Visible (layout.write n) := by
  unfold Decimal.Layout.write
  dsimp only
  split
  · exact visible_plain n
  · exact visible_scientific n _

theorem visible_writeFloat (layout : Decimal.Layout) (x : Float) :
    Visible (layout.writeFloat x) := by
  have hunsigned : Visible (if (Decimal.magnitude x).mantissa = 0 then ['0', '.', '0']
      else layout.write (Decimal.magnitude x).shortest) := by
    split
    · decide
    · exact visible_write layout _
  unfold Decimal.Layout.writeFloat
  dsimp only
  split
  · exact .cons (by decide) hunsigned
  · exact hunsigned

/-- A number is written without control characters. -/
theorem visible_text (n : Number) : Visible n.text := by
  cases n with
  | integer n fits =>
    rw [Number.text_integer]
    unfold Number.intText
    split
    · exact .cons (by decide) (visible_digits _)
    · exact visible_digits _
  | real x => exact visible_writeFloat _ x

/-! ## String literals -/

theorem isControl_hexDigit {d : Nat} (h : d < 16) : isControl (Text.hexDigit d) = false := by
  have hall : ∀ e ∈ List.range 16, isControl (Text.hexDigit e) = false := by decide
  exact hall d (List.mem_range.mpr h)

theorem visible_escape (c : Char) : Visible (escape c) := by
  unfold escape
  repeat' split
  · decide
  · decide
  · decide
  · decide
  · decide
  · decide
  · decide
  · next hc =>
    -- The two digits of a control character.
    have hlt : c.toNat < 0x20 := by simpa [isControl] using hc
    refine .append (a := ['\\', 'u', '0', '0']) (by decide) ?_
    refine .cons (isControl_hexDigit (by omega)) (.cons (isControl_hexDigit (by omega)) .nil)
  · next hc => exact .cons (by simpa using hc) .nil

theorem visible_quote (s : String) : Visible (quote s) := by
  refine .cons (by decide) (.append ?_ (by decide))
  intro x hx
  obtain ⟨c, -, hxc⟩ := List.mem_flatMap.mp hx
  exact visible_escape c x hxc

/-! ## Values -/

mutual

/-- **A value is written without control characters.** -/
theorem visible_print : ∀ v : Json, Visible v.print
  | .null => by rw [print]; decide
  | .bool true => by rw [print]; decide
  | .bool false => by rw [print]; decide
  | .number n => by rw [print]; exact visible_text n
  | .string s => by rw [print]; exact visible_quote s
  | .array items => by
    rw [print]
    exact .cons (by decide) ((visible_printItems items).append (by decide))
  | .object members => by
    rw [print]
    exact .cons (by decide) ((visible_printMembers members).append (by decide))

theorem visible_printItems : ∀ items : List Json, Visible (printItems items)
  | [] => by rw [printItems]; exact .nil
  | [v] => by rw [printItems]; exact visible_print v
  | v :: w :: rest => by
    rw [printItems]
    · exact (visible_print v).append (.cons (by decide) (visible_printItems (w :: rest)))
    · simp

theorem visible_printMembers : ∀ members : List (String × Json), Visible (printMembers members)
  | [] => by rw [printMembers]; exact .nil
  | [(k, v)] => by
    rw [printMembers]
    exact (visible_quote k).append (.cons (by decide) (visible_print v))
  | (k, v) :: m :: rest => by
    rw [printMembers]
    · refine (visible_quote k).append (.cons (by decide) ?_)
      exact (visible_print v).append (.cons (by decide) (visible_printMembers (m :: rest)))
    · simp

end

end KvClient.Json

/-!
# Decimal digits

Natural numbers in base ten, most significant digit first and without leading zeros.

* **Reading the digits of a number gives it back**: `ofDigits_digits`.
* **Only zero starts with a zero**: `head_digits_ne_zero`.

## How it ends

`digits` divides by ten in each round.
-/

namespace KvClient.Decimal

/-! ## Single digits -/

/-- The character of a digit value below ten. -/
def digit (d : Nat) : Char := Char.ofNat (0x30 + d)

/-- The value of a digit. -/
def digitValue (c : Char) : Nat := c.toNat - 0x30

theorem isDigit_digit {d : Nat} (h : d < 10) : (digit d).isDigit = true := by
  have hall : ∀ e ∈ List.range 10, (digit e).isDigit = true := by decide
  exact hall d (List.mem_range.mpr h)

theorem digitValue_digit {d : Nat} (h : d < 10) : digitValue (digit d) = d := by
  have hall : ∀ e ∈ List.range 10, digitValue (digit e) = e := by decide
  exact hall d (List.mem_range.mpr h)

theorem digit_ne_zero {d : Nat} (h : d < 10) (hd : d ≠ 0) : digit d ≠ '0' := by
  have hall : ∀ e ∈ List.range 10, e ≠ 0 → digit e ≠ '0' := by decide
  exact hall d (List.mem_range.mpr h) hd

/-! ## Numbers -/

/-- The digits of a number. -/
def digits (n : Nat) : List Char :=
  if n < 10 then [digit n] else digits (n / 10) ++ [digit (n % 10)]

/-- The number that a list of digits spells. -/
def ofDigits (cs : List Char) : Nat := cs.foldl (fun n c => n * 10 + digitValue c) 0

theorem digits_ne_nil (n : Nat) : digits n ≠ [] := by
  unfold digits
  split <;> simp

theorem isDigit_of_mem_digits {n : Nat} {c : Char} (h : c ∈ digits n) : c.isDigit = true := by
  fun_induction digits n with
  | case1 n hn => simp at h; exact h ▸ isDigit_digit hn
  | case2 n _ ih =>
    simp only [List.mem_append, List.mem_singleton] at h
    rcases h with h | h
    · exact ih h
    · exact h ▸ isDigit_digit (Nat.mod_lt _ (by omega))

theorem ofDigits_append_digit (cs : List Char) (c : Char) :
    ofDigits (cs ++ [c]) = ofDigits cs * 10 + digitValue c := by
  simp [ofDigits]

theorem ofDigits_digits (n : Nat) : ofDigits (digits n) = n := by
  fun_induction digits n with
  | case1 n hn => simp [ofDigits, digitValue_digit hn]
  | case2 n _ ih =>
    rw [ofDigits_append_digit, ih, digitValue_digit (Nat.mod_lt _ (by omega))]
    omega

theorem head_digits_ne_zero {n : Nat} (h : n ≠ 0) {c : Char} {r : List Char}
    (e : digits n = c :: r) : c ≠ '0' := by
  fun_induction digits n generalizing c r with
  | case1 n hn =>
    obtain ⟨rfl, -⟩ : digit n = c ∧ [] = r := by simpa using e
    exact digit_ne_zero hn h
  | case2 n hn ih =>
    match hd : digits (n / 10) with
    | [] => exact absurd hd (digits_ne_nil _)
    | c' :: r' =>
      rw [hd] at e
      obtain ⟨rfl, -⟩ : c' = c ∧ r' ++ [digit (n % 10)] = r := by simpa using e
      exact ih (by omega) hd

end KvClient.Decimal

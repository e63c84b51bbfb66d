/-!
# Byte strings

Everything that crosses the wire is a list of bytes.  Two operations belong to the fixed regions of
a frame: filling a region up with zeros, and taking the zeros off again.

* **Filling up fixes the length**: `length_padTo`.
* **Trimming removes exactly the zeros at the end**: `trimZeros_append_zeros`, `trimZeros_padTo`,
  `exists_eq_trimZeros_append`.
* **It changes just what ends in a zero**: `trimZeros_eq_self_iff`.
* **What is filled up has lost the zeros at its end**: `padTo_trimZeros`.
-/

namespace KvClient

/-- A byte string. -/
abbrev Bytes := List UInt8

namespace Bytes

/-! ## Filling up with zeros -/

/-- `n` zero bytes. -/
def zeros (n : Nat) : Bytes := List.replicate n 0

/-- `b` followed by zeros up to `size` bytes. -/
def padTo (size : Nat) (b : Bytes) : Bytes := b ++ zeros (size - b.length)

@[simp] theorem length_zeros (n : Nat) : (zeros n).length = n := by simp [zeros]

theorem length_padTo {size : Nat} {b : Bytes} (h : b.length ≤ size) :
    (padTo size b).length = size := by
  simp [padTo]; omega

theorem mem_zeros {n : Nat} {x : UInt8} (h : x ∈ zeros n) : x = 0 :=
  List.eq_of_mem_replicate h

/-! ## Trimming zeros -/

/-- `b` without the zeros at its end. -/
def trimZeros (b : Bytes) : Bytes := (b.reverse.dropWhile (· == 0)).reverse

theorem trimZeros_append_zeros (b : Bytes) (n : Nat) : trimZeros (b ++ zeros n) = trimZeros b := by
  have key : ∀ (k : Nat) (r : Bytes),
      (List.replicate k (0 : UInt8) ++ r).dropWhile (· == 0) = r.dropWhile (· == 0) := by
    intro k r
    induction k with
    | zero => simp
    | succ k ih => simp [List.replicate_succ, ih]
  simp [trimZeros, zeros, key]

theorem trimZeros_padTo (size : Nat) (b : Bytes) : trimZeros (padTo size b) = trimZeros b :=
  trimZeros_append_zeros b _

/-- What is trimmed off is zeros only. -/
theorem exists_eq_trimZeros_append (b : Bytes) : ∃ n, b = trimZeros b ++ zeros n := by
  have key : ∀ r : Bytes, ∃ n, r = zeros n ++ r.dropWhile (· == 0) := by
    intro r
    induction r with
    | nil => exact ⟨0, by simp [zeros]⟩
    | cons x r ih =>
      by_cases hx : x = 0
      · obtain ⟨n, hn⟩ := ih
        refine ⟨n + 1, ?_⟩
        subst hx
        have : (0 :: r).dropWhile (· == (0 : UInt8)) = r.dropWhile (· == 0) := by simp
        rw [this]
        simp only [zeros, List.replicate_succ, List.cons_append]
        exact congrArg _ hn
      · exact ⟨0, by simp [zeros, hx]⟩
  obtain ⟨n, hn⟩ := key b.reverse
  refine ⟨n, ?_⟩
  have h := congrArg List.reverse hn
  simpa [trimZeros, zeros] using h

theorem getLast?_trimZeros (b : Bytes) : (trimZeros b).getLast? ≠ some 0 := by
  rw [trimZeros, List.getLast?_reverse]
  intro h
  have hhead := List.head?_dropWhile_not (· == (0 : UInt8)) b.reverse
  rw [h] at hhead
  simp at hhead

/-- Trimming changes just what ends in a zero. -/
theorem trimZeros_eq_self_iff (b : Bytes) : trimZeros b = b ↔ b.getLast? ≠ some 0 := by
  constructor
  · intro h
    rw [← h]
    exact getLast?_trimZeros b
  · intro h
    obtain ⟨n, hn⟩ := exists_eq_trimZeros_append b
    cases n with
    | zero => simpa [zeros] using hn.symm
    | succ n =>
      refine absurd ?_ h
      rw [hn, zeros, List.replicate_succ', ← List.append_assoc, List.getLast?_concat]

/-- Bytes are in one way a beginning that does not end in a zero, and zeros. -/
theorem trimZeros_eq_iff {b a : Bytes} :
    trimZeros b = a ↔ (∃ n, b = a ++ zeros n) ∧ a.getLast? ≠ some 0 := by
  constructor
  · rintro rfl
    exact ⟨exists_eq_trimZeros_append b, getLast?_trimZeros b⟩
  · rintro ⟨⟨n, rfl⟩, hlast⟩
    rw [trimZeros_append_zeros]
    exact (trimZeros_eq_self_iff a).mpr hlast

theorem length_trimZeros_le (b : Bytes) : (trimZeros b).length ≤ b.length := by
  obtain ⟨n, hn⟩ := exists_eq_trimZeros_append b
  have hlength := congrArg List.length hn
  rw [List.length_append] at hlength
  omega

theorem mem_of_mem_trimZeros {b : Bytes} {x : UInt8} (h : x ∈ trimZeros b) : x ∈ b := by
  obtain ⟨n, hn⟩ := exists_eq_trimZeros_append b
  rw [hn]
  exact List.mem_append_left _ h

/-- Zeros at the end are lost in those that fill up. -/
theorem padTo_trimZeros {size : Nat} {b : Bytes} (h : b.length ≤ size) :
    padTo size (trimZeros b) = padTo size b := by
  obtain ⟨n, hn⟩ := exists_eq_trimZeros_append b
  have hlength := congrArg List.length hn
  rw [List.length_append, length_zeros] at hlength
  have hzeros : size - (trimZeros b).length = n + (size - b.length) := by omega
  rw [padTo, padTo, hzeros, zeros, ← List.replicate_append_replicate, ← List.append_assoc]
  exact congrArg (· ++ zeros (size - b.length)) hn.symm

end Bytes

end KvClient

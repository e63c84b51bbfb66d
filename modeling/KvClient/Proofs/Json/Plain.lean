import KvClient.Proofs.Json.Spelling

/-!
# What may stand in a document

No control character stands in a document, except for the blanks.  A character is `Plain` if it may
stand there.

## How it works

* **The tokens of a tree are plain**: `Tree.plain_tokens`, from what a piece of a string and a
  number are written as.
* **So is a text that consists of them**: `Begins.plain`.
-/

namespace KvClient.Json

/-! ## Plain characters -/

/-- A character that may stand in a document as it is: a blank, or no control character. -/
def Plain (c : Char) : Prop := isControl c = true → isBlank c = true

instance (c : Char) : Decidable (Plain c) :=
  decidable_of_iff ((!isControl c || isBlank c) = true) (by
    unfold Plain
    cases isControl c <;> simp)

theorem plain_of_isBlank {c : Char} (h : isBlank c = true) : Plain c := fun _ => h

theorem plain_of_not_isControl {c : Char} (h : ¬isControl c = true) : Plain c :=
  fun hc => absurd hc h

theorem plain_of_le {c : Char} (h : ' ' ≤ c) : Plain c := by
  apply plain_of_not_isControl
  have hle : (0x20 : Nat) ≤ c.toNat := h
  simp only [isControl, decide_eq_true_eq]
  omega

theorem plain_of_isDigit {c : Char} (h : c.isDigit = true) : Plain c := by
  apply plain_of_le
  simp only [Char.isDigit, Bool.and_eq_true, decide_eq_true_eq] at h
  exact Nat.le_trans (by decide) h.1

/-! ## Plain tokens -/

/-- All characters of a text are plain. -/
def AllPlain (s : List Char) : Prop := ∀ c ∈ s, Plain c

instance (s : List Char) : Decidable (AllPlain s) :=
  decidable_of_iff (s.all (decide <| Plain ·) = true) (by simp [AllPlain])

theorem allPlain_nil : AllPlain [] := fun _ h => absurd h List.not_mem_nil

theorem allPlain_cons_iff {c : Char} {s : List Char} :
    AllPlain (c :: s) ↔ Plain c ∧ AllPlain s := List.forall_mem_cons

theorem allPlain_append_iff {s r : List Char} : AllPlain (s ++ r) ↔ AllPlain s ∧ AllPlain r :=
  List.forall_mem_append

theorem allPlain_digits {digits : List Char} (h : ∀ c ∈ digits, c.isDigit = true) :
    AllPlain digits := fun c hc => plain_of_isDigit (h c hc)

theorem HexDigit.plain_char (d : HexDigit) : Plain d.char := by
  have hall : ∀ n : Fin 16, ∀ upper, Plain (HexDigit.char ⟨n, upper⟩) := by decide
  exact hall d.value d.upper

theorem Piece.plain_text (p : Piece) : AllPlain p.text := by
  cases p with
  | plain c itself =>
    exact allPlain_cons_iff.mpr ⟨plain_of_not_isControl itself.2.2, allPlain_nil⟩
  | letter l c known =>
    have hall : AllPlain (letters.map (·.1)) := by decide
    simp only [text, allPlain_cons_iff]
    exact ⟨by decide, hall l (List.mem_map_of_mem known), allPlain_nil⟩
  | unit a b c d =>
    simp only [text, allPlain_cons_iff]
    exact ⟨by decide, by decide, a.plain_char, b.plain_char, c.plain_char, d.plain_char,
      allPlain_nil⟩

theorem plain_quoted (pieces : List Piece) : AllPlain (quoted pieces) := by
  have hpieces : AllPlain (pieces.flatMap Piece.text) := by
    intro c hc
    obtain ⟨p, -, hp⟩ := List.mem_flatMap.mp hc
    exact p.plain_text c hp
  rw [quoted, allPlain_cons_iff, allPlain_append_iff]
  exact ⟨by decide, hpieces, by decide⟩

theorem plain_fractionText {digits : List Char} (h : ∀ c ∈ digits, c.isDigit = true) :
    AllPlain (fractionText digits) := by
  unfold fractionText
  split
  · exact allPlain_nil
  · exact allPlain_cons_iff.mpr ⟨by decide, allPlain_digits h⟩

theorem plain_exponentText (e? : Option Exponent) : AllPlain (exponentText e?) := by
  cases e? with
  | none => exact allPlain_nil
  | some e =>
    have hmark : AllPlain ['e', 'E'] := by decide
    have hsign : ∀ s ∈ [[], ['+'], ['-']], AllPlain s := by decide
    rw [exponentText, allPlain_cons_iff, allPlain_append_iff]
    exact ⟨hmark _ e.mark_mem, hsign _ e.sign_mem, allPlain_digits e.isDigit_digits⟩

theorem Numeral.plain_text (n : Numeral) : AllPlain n.text := by
  rw [text, allPlain_append_iff, allPlain_append_iff, allPlain_append_iff]
  refine ⟨?_, allPlain_digits n.isDigit_whole, plain_fractionText n.isDigit_fraction,
    plain_exponentText n.exponent?⟩
  cases n.negative with
  | true => decide
  | false => decide

/-! ## Trees -/

theorem plain_separated {groups : List (List Token)}
    (h : ∀ group ∈ groups, ∀ token ∈ group, AllPlain token) :
    ∀ token ∈ separated groups, AllPlain token := by
  cases groups with
  | nil => exact fun _ h => absurd h List.not_mem_nil
  | cons first rest =>
    intro token htoken
    rw [separated, List.mem_append, List.mem_flatMap] at htoken
    obtain htoken | ⟨group, hgroup, htoken⟩ := htoken
    · exact h first (List.mem_cons_self ..) token htoken
    · obtain rfl | htoken := List.mem_cons.mp htoken
      · decide
      · exact h group (List.mem_cons_of_mem _ hgroup) token htoken

/-- **The tokens of a tree are plain.** -/
theorem Tree.plain_tokens (t : Tree) : ∀ token ∈ t.tokens, AllPlain token := by
  induction t with
  | null => rw [tokens]; decide
  | bool b => cases b <;> rw [tokens] <;> decide
  | number n => rw [tokens]; exact List.forall_mem_singleton.mpr n.plain_text
  | string pieces => rw [tokens]; exact List.forall_mem_singleton.mpr (plain_quoted pieces)
  | array items ih =>
    rw [tokens_array, List.forall_mem_cons, List.forall_mem_append]
    refine ⟨by decide, plain_separated (List.forall_mem_map.mpr ih), by decide⟩
  | object members ih =>
    rw [tokens_object, List.forall_mem_cons, List.forall_mem_append]
    refine ⟨by decide, plain_separated (List.forall_mem_map.mpr fun m hm => ?_), by decide⟩
    rw [tokensOfMember, List.forall_mem_cons, List.forall_mem_cons]
    exact ⟨plain_quoted m.1, by decide, ih m hm⟩

/-- **A text of plain tokens is plain.** -/
theorem Begins.plain {tokens : List Token} {s rest : List Char} (h : Begins tokens s rest)
    (htokens : ∀ token ∈ tokens, AllPlain token) (hrest : AllPlain rest) : AllPlain s := by
  induction tokens generalizing s with
  | nil =>
    obtain rfl : s = rest := h
    exact hrest
  | cons token tokens ih =>
    obtain ⟨blanks, s', hblanks, rfl, hs'⟩ := h
    obtain ⟨htoken, htokens⟩ := List.forall_mem_cons.mp htokens
    rw [allPlain_append_iff, allPlain_append_iff]
    exact ⟨fun c hc => plain_of_isBlank (hblanks c hc), htoken, ih hs' htokens⟩

end KvClient.Json

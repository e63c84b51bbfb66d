import KvClient.Proofs.Json.Spelled

/-!
# Values are passed over however they are spelled

A tree is passed over whatever it spells: a surrogate that is alone, a number too large and any
nesting do not matter.  And whatever is passed over is spelled by a tree.

## How it works

A container that is open is a list of elements in both of its kinds (`Container.tokensOf`), so that
its loop is treated once.

* **What stands in front is passed over**: `passValue_tree`, for any containers that are open.
* **What is passed over is spelled**: `spelled_of_passValue`.
-/

namespace KvClient.Json

section

variable {s r rest : List Char} {container : Container} {stack : List Container}

/-! ## Scalars -/

theorem readWord_append (word rest : List Char) : readWord word (word ++ rest) = .ok rest := by
  induction word with
  | nil => rfl
  | cons w ws ih => rw [List.cons_append, readWord, if_pos rfl, ih]

theorem passScalar_number {c : Char} {r : List Char} (hc : c = '-' ∨ c.isDigit = true) :
    passScalar (c :: r) =
      match readLiteral .invalidNumber (c :: r) with
      | .error stop => .error stop
      | .ok (_, rest) => .ok rest := by
  rw [passScalar]
  · exact if_pos hc
  -- A letter or a quote begins no number.
  · exact ne_of_beginsNumber hc (by decide)
  · exact ne_of_beginsNumber hc (by decide)
  · exact ne_of_beginsNumber hc (by decide)
  · exact ne_of_beginsNumber hc (by decide)

/-- A tree of one token is passed over. -/
theorem passScalar_token {t : Tree} {token : Token} (ht : t.tokens = [token])
    (hrest : EndsNumber rest) : passScalar (token ++ rest) = .ok rest := by
  cases t with
  | null =>
    obtain rfl : _ = token := List.singleton_inj.mp (Tree.tokens.eq_1.symm.trans ht)
    exact readWord_append ['u', 'l', 'l'] rest
  | bool b =>
    cases b with
    | true =>
      obtain rfl : _ = token := List.singleton_inj.mp (Tree.tokens.eq_2.symm.trans ht)
      exact readWord_append ['r', 'u', 'e'] rest
    | false =>
      obtain rfl : _ = token := List.singleton_inj.mp (Tree.tokens.eq_3.symm.trans ht)
      exact readWord_append ['a', 'l', 's', 'e'] rest
  | number n =>
    obtain rfl : _ = token := List.singleton_inj.mp ((Tree.tokens.eq_4 n).symm.trans ht)
    have hliteral := readLiteral_numeral .invalidNumber n hrest
    obtain ⟨c, r, htext, hc⟩ := n.text_eq_cons
    rw [htext, List.cons_append] at hliteral ⊢
    rw [passScalar_number hc, hliteral]
  | string pieces =>
    obtain rfl : _ = token := List.singleton_inj.mp ((Tree.tokens.eq_5 pieces).symm.trans ht)
    have hpass := passText_pieces pieces rest
    simpa [quoted, passScalar] using hpass
  | array items => simp [Tree.tokens_array] at ht
  | object members => simp [Tree.tokens_object] at ht

theorem token_of_passScalar (h : passScalar s = .ok r) :
    ∃ (t : Tree) (token : Token), t.tokens = [token] ∧ s = token ++ r := by
  unfold passScalar at h
  split at h
  · simp [stopAt] at h
  · exact ⟨.null, _, Tree.tokens.eq_1, congrArg ('n' :: ·) (eq_append_of_readWord h)⟩
  · exact ⟨.bool true, _, Tree.tokens.eq_2, congrArg ('t' :: ·) (eq_append_of_readWord h)⟩
  · exact ⟨.bool false, _, Tree.tokens.eq_3, congrArg ('f' :: ·) (eq_append_of_readWord h)⟩
  · obtain ⟨pieces, rfl⟩ := pieced_of_passText h
    exact ⟨.string pieces, _, Tree.tokens.eq_5 pieces, by simp [quoted]⟩
  · split at h
    · split at h
      · simp at h
      · next hliteral =>
        obtain ⟨n, hn⟩ := exists_of_readLiteral hliteral
        obtain rfl := by simpa using h
        exact ⟨.number n, _, Tree.tokens.eq_4 n, hn⟩
    · simp [stopAt] at h

/-! ## Containers -/

/-- The tokens of an element of a container; in a list its name counts for nothing. -/
def Container.tokensOf : Container → List Piece × Tree → List Token
  | .list, m => m.2.tokens
  | .object, m => Tree.tokensOfMember m

/-- The character that opens a container. -/
def Container.opener : Container → Char
  | .list => '['
  | .object => '\x7b'

/-- The tree of a container with these elements. -/
def Container.tree : Container → List (List Piece × Tree) → Tree
  | .list, ms => .array (ms.map (·.2))
  | .object, ms => .object ms

theorem Container.tokens_tree (container : Container) (ms : List (List Piece × Tree)) :
    (container.tree ms).tokens = [container.opener] ::
      (separated (ms.map container.tokensOf) ++ [[container.closer]]) := by
  cases container with
  | list =>
    rw [tree, Tree.tokens_array, List.map_map]
    rfl
  | object =>
    rw [tree, Tree.tokens_object]
    rfl

theorem isBlank_closer (container : Container) : isBlank container.closer = false := by
  cases container <;> decide

/-! ## One step -/

theorem passValue_of_opener (hs : skipBlanks s = container.opener :: r) :
    passValue stack s = passFirst container stack r := by
  cases container with
  | list =>
    rw [passValue]
    split
    · next r' h =>
      obtain rfl : r = r' := (List.cons.inj (hs.symm.trans h)).2
      rfl
    · next h => exact absurd (List.cons.inj (hs.symm.trans h)).1 (by decide)
    · next h _ => exact (h r hs).elim
  | object =>
    rw [passValue]
    split
    · next h => exact absurd (List.cons.inj (hs.symm.trans h)).1 (by decide)
    · next r' h =>
      obtain rfl : r = r' := (List.cons.inj (hs.symm.trans h)).2
      rfl
    · next h => exact (h r hs).elim

theorem passValue_of_scalar {c : Char} {r' : List Char} (hs : skipBlanks s = c :: r')
    (hc : c ≠ '[' ∧ c ≠ '\x7b') (hpass : passScalar (c :: r') = .ok r) :
    passValue stack s = passAfter stack r := by
  rw [passValue]
  split
  · next h => exact absurd (List.cons.inj (hs.symm.trans h)).1 hc.1
  · next h => exact absurd (List.cons.inj (hs.symm.trans h)).1 hc.2
  · split
    · next stop hstop => simp [hs, hpass] at hstop
    · next r₁ hok =>
      obtain rfl : r = r₁ := by simpa [hs, hpass] using hok
      rfl

theorem passFirst_of_closer (hs : skipBlanks s = container.closer :: r) :
    passFirst container stack s = passAfter stack r := by
  rw [passFirst]
  split
  · next h => simp [hs] at h
  · next c r' h =>
    obtain ⟨rfl, rfl⟩ := List.cons.inj (hs.symm.trans h)
    exact if_pos rfl

theorem passFirst_of_enter {c : Char} {r' : List Char} (hs : skipBlanks s = c :: r')
    (hc : c ≠ container.closer) (henter : enter container s = .ok r) :
    passFirst container stack s = passValue (container :: stack) r := by
  rw [passFirst]
  split
  · next h => simp [hs] at h
  · next c' r₁ h =>
    obtain ⟨rfl, rfl⟩ := List.cons.inj (hs.symm.trans h)
    rw [if_neg hc]
    split
    · next stop hstop => simp [henter] at hstop
    · next r₂ hok =>
      obtain rfl : r = r₂ := by simpa [henter] using hok
      rfl

theorem passAfter_of_closer (hs : skipBlanks s = container.closer :: r) :
    passAfter (container :: stack) s = passAfter stack r := by
  have hcomma : container.closer ≠ ',' := by cases container <;> decide
  rw [passAfter]
  split
  · next h => simp [hs] at h
  · next c r' h =>
    obtain ⟨rfl, rfl⟩ := List.cons.inj (hs.symm.trans h)
    rw [if_neg hcomma]
    exact if_pos rfl

theorem passAfter_of_comma {r' : List Char} (hs : skipBlanks s = ',' :: r')
    (henter : enter container r' = .ok r) :
    passAfter (container :: stack) s = passValue (container :: stack) r := by
  rw [passAfter]
  split
  · next h => simp [hs] at h
  · next c r₁ h =>
    obtain ⟨rfl, rfl⟩ := List.cons.inj (hs.symm.trans h)
    rw [if_pos rfl]
    split
    · next stop hstop => simp [henter] at hstop
    · next r₂ hok =>
      obtain rfl : r = r₂ := by simpa [henter] using hok
      rfl

/-! ## What stands in front is passed over -/

/-- What stands in front of a text is passed over, up to what is behind it. -/
def Passes (tokens : List Token) : Prop :=
  ∀ ⦃stack s rest⦄, Begins tokens s rest → EndsNumber rest →
    passValue stack s = passAfter stack rest

/-- The way into an element leads to its value. -/
theorem enter_element {m : List Piece × Tree} (hm : Passes m.2.tokens)
    (hs : Begins (container.tokensOf m) s rest) (hrest : EndsNumber rest) :
    (∃ c r, skipBlanks s = c :: r ∧ c ≠ container.closer) ∧
      ∃ r, enter container s = .ok r ∧ ∀ stack, passValue stack r = passAfter stack rest := by
  cases container with
  | list => exact ⟨Begins.skipBlanks_tree hs, s, rfl, fun stack => hm hs hrest⟩
  | object =>
    obtain ⟨s', hquote, hs'⟩ := begins_quoted_iff.mp hs
    obtain ⟨r, hcolon, hr⟩ := (begins_mark_iff (by decide)).mp hs'
    have hname : passName s = .ok r := by
      simp only [passName, hquote, passText_pieces, readColon, hcolon]
    exact ⟨⟨_, _, hquote, by decide⟩, r, hname, fun stack => hm hr hrest⟩

theorem closer_mem (container : Container) : container.closer ∈ [']', '\x7d'] := by
  cases container <;> decide

theorem passAfter_elements {ms : List (List Piece × Tree)} (h : ∀ m ∈ ms, Passes m.2.tokens)
    (hs : Begins (ms.flatMap ([','] :: container.tokensOf ·) ++ [[container.closer]]) s rest) :
    passAfter (container :: stack) s = passAfter stack rest := by
  induction ms generalizing s with
  | nil =>
    obtain ⟨s', hs', rfl⟩ := (begins_mark_iff (isBlank_closer container)).mp hs
    exact passAfter_of_closer hs'
  | cons m ms ih =>
    obtain ⟨hm, hms⟩ := List.forall_mem_cons.mp h
    rw [List.flatMap_cons, List.append_assoc, List.cons_append, begins_mark_iff (by decide)] at hs
    obtain ⟨r, hcomma, hr⟩ := hs
    obtain ⟨s', hfirst, hmore⟩ := begins_append.mp hr
    obtain ⟨-, r', henter, hpass⟩ :=
      enter_element hm hfirst (endsNumber_of_more hmore (closer_mem container))
    rw [passAfter_of_comma hcomma henter, hpass, ih hms hmore]

/-- If the values of all elements are passed over, a container is, behind its opening. -/
theorem passFirst_elements {ms : List (List Piece × Tree)} (h : ∀ m ∈ ms, Passes m.2.tokens)
    (hs : Begins (separated (ms.map container.tokensOf) ++ [[container.closer]]) s rest) :
    passFirst container stack s = passAfter stack rest := by
  cases ms with
  | nil =>
    obtain ⟨s', hs', rfl⟩ := (begins_mark_iff (isBlank_closer container)).mp hs
    exact passFirst_of_closer hs'
  | cons m ms =>
    obtain ⟨hm, hms⟩ := List.forall_mem_cons.mp h
    rw [List.map_cons, separated, List.append_assoc, List.flatMap_map] at hs
    obtain ⟨s', hfirst, hmore⟩ := begins_append.mp hs
    obtain ⟨⟨c, r, hc, hne⟩, r', henter, hpass⟩ :=
      enter_element hm hfirst (endsNumber_of_more hmore (closer_mem container))
    rw [passFirst_of_enter hc hne henter, hpass, passAfter_elements hms hmore]

theorem passes_token {t : Tree} {c : Char} {tail : List Char} (ht : t.tokens = [c :: tail])
    (hc : isBlank c = false ∧ c ≠ '[' ∧ c ≠ '\x7b') : Passes t.tokens := by
  intro stack s rest hs hrest
  have hpass := passScalar_token ht hrest
  rw [ht, begins_cons_iff hc.1] at hs
  obtain ⟨s', hs, rfl⟩ := hs
  exact passValue_of_scalar hs hc.2 hpass

theorem passes_tree {ms : List (List Piece × Tree)} (h : ∀ m ∈ ms, Passes m.2.tokens) :
    Passes (container.tree ms).tokens := by
  intro stack s rest hs _
  have hblank : isBlank container.opener = false := by cases container <;> decide
  rw [container.tokens_tree, begins_mark_iff hblank] at hs
  obtain ⟨r, hopener, hr⟩ := hs
  rw [passValue_of_opener hopener, passFirst_elements h hr]

/-- **A tree is passed over**, whatever it spells. -/
theorem passValue_tree (t : Tree) : Passes t.tokens := by
  induction t with
  | null => exact passes_token Tree.tokens.eq_1 (by decide)
  | bool b =>
    cases b with
    | true => exact passes_token Tree.tokens.eq_2 (by decide)
    | false => exact passes_token Tree.tokens.eq_3 (by decide)
  | number n =>
    obtain ⟨c, tail, htext, hc⟩ := n.text_eq_cons
    exact passes_token (by rw [Tree.tokens, htext]) ⟨isBlank_of_beginsNumber hc,
      ne_of_beginsNumber hc (by decide), ne_of_beginsNumber hc (by decide)⟩
  | string pieces => exact passes_token (Tree.tokens.eq_5 pieces) (by decide)
  | array items ih =>
    have hitems := @passes_tree .list (items.map fun t => ([], t)) (by simpa using ih)
    simpa [Container.tree, Function.comp_def] using hitems
  | object members ih => exact @passes_tree .object members ih

/-! ## What is passed over is spelled -/

theorem Begins.length_le {tokens : List Token} (h : Begins tokens s rest) :
    rest.length ≤ s.length := by
  induction tokens generalizing s with
  | nil => exact Nat.le_of_eq (congrArg List.length h.symm)
  | cons token tokens ih =>
    obtain ⟨blanks, s', -, rfl, hs'⟩ := h
    have := ih hs'
    simp only [List.length_append]
    omega

/-- The first value of a container that is spelled, with what leads to it. -/
theorem begins_of_enter {t : Tree} (henter : enter container s = .ok r)
    (ht : Begins t.tokens r rest) : ∃ m, Begins (container.tokensOf m) s rest := by
  cases container with
  | list =>
    obtain rfl := by simpa [enter] using henter
    exact ⟨([], t), ht⟩
  | object =>
    unfold enter passName at henter
    simp only at henter
    split at henter
    · simp [stopAt] at henter
    · next hquote =>
      split at henter
      · simp at henter
      · next hname =>
        obtain ⟨pieces, rfl⟩ := pieced_of_passText hname
        exact ⟨(pieces, t), begins_quoted_iff.mpr ⟨_, hquote, begins_colon henter ht⟩⟩
    · simp [stopAt] at henter

/-- A text begins with these tokens, and passing goes on behind them, up to `r`. -/
def Passed (tokens : List Token) (stack : List Container) (s r : List Char) : Prop :=
  ∃ m, Begins tokens s m ∧ m.length < s.length ∧ passAfter stack m = .ok r

/-- A container is passed once it is passed behind its opening. -/
theorem Passed.tree {ms : List (List Piece × Tree)} {s' : List Char}
    (hs : skipBlanks s = container.opener :: s')
    (h : Passed (separated (ms.map container.tokensOf) ++ [[container.closer]]) stack s' r) :
    Passed (container.tree ms).tokens stack s r := by
  obtain ⟨m, hm, hlen, hpass⟩ := h
  have hblank : isBlank container.opener = false := by cases container <;> decide
  have hskip := length_skipBlanks_le s
  rw [hs, List.length_cons] at hskip
  refine ⟨m, ?_, by omega, hpass⟩
  rw [container.tokens_tree, begins_mark_iff hblank]
  exact ⟨s', hs, hm⟩

end

-- The three functions call each other with a shorter text, or with the same text a step further.
mutual

/-- **What is passed over is spelled by a tree.** -/
theorem spelled_of_passValue {stack : List Container} {s r : List Char}
    (h : passValue stack s = .ok r) :
    ∃ t : Tree, Passed t.tokens stack s r := by
  have hlen := length_skipBlanks_le s
  rw [passValue] at h
  split at h
  · next hs =>
    obtain ⟨ms, hms⟩ := spelled_of_passFirst h
    exact ⟨_, @Passed.tree _ _ .list _ ms _ hs hms⟩
  · next hs =>
    obtain ⟨ms, hms⟩ := spelled_of_passFirst h
    exact ⟨_, @Passed.tree _ _ .object _ ms _ hs hms⟩
  · split at h
    · simp at h
    · next hr =>
      obtain ⟨t, token, ht, hs⟩ := token_of_passScalar hr
      have := length_passScalar_lt hr
      exact ⟨t, _, begins_of_token ht hs, by omega, h⟩
termination_by (s.length, 0)
decreasing_by
  all_goals
    left
    rw [‹skipBlanks s = _›, List.length_cons] at hlen
    omega

theorem spelled_of_passFirst {container : Container} {stack : List Container} {s r : List Char}
    (h : passFirst container stack s = .ok r) :
    ∃ ms : List (List Piece × Tree),
      Passed (separated (ms.map container.tokensOf) ++ [[container.closer]]) stack s r := by
  have hlen := length_skipBlanks_le s
  rw [passFirst] at h
  split at h
  · simp [stopAt] at h
  · next c r' hs =>
    rw [hs, List.length_cons] at hlen
    split at h
    · next hc =>
      refine ⟨[], r', (begins_mark_iff (isBlank_closer container)).mpr ⟨r', hc ▸ hs, rfl⟩, ?_, h⟩
      omega
    · split at h
      · simp at h
      · next henter =>
        have := length_enter_le henter
        obtain ⟨t, m, ht, hm, h⟩ := spelled_of_passValue h
        obtain ⟨first, hfirst⟩ := begins_of_enter henter ht
        obtain ⟨ms, m', hms, hm', h⟩ := spelled_of_passAfter h
        refine ⟨first :: ms, m', ?_, by omega, h⟩
        rw [List.map_cons, separated, List.append_assoc, List.flatMap_map]
        exact hfirst.append hms
termination_by (s.length, 1)
decreasing_by
  · rw [Prod.lex_def]
    omega
  · left
    omega

theorem spelled_of_passAfter {container : Container} {stack : List Container} {s r : List Char}
    (h : passAfter (container :: stack) s = .ok r) :
    ∃ ms : List (List Piece × Tree),
      Passed (ms.flatMap ([','] :: container.tokensOf ·) ++ [[container.closer]]) stack s r := by
  have hlen := length_skipBlanks_le s
  rw [passAfter] at h
  split at h
  · simp [stopAt] at h
  · next c r' hs =>
    rw [hs, List.length_cons] at hlen
    split at h
    · next hc =>
      subst hc
      split at h
      · simp at h
      · next henter =>
        have := length_enter_le henter
        obtain ⟨t, m, ht, hm, h⟩ := spelled_of_passValue h
        obtain ⟨first, hfirst⟩ := begins_of_enter henter ht
        obtain ⟨ms, m', hms, hm', h⟩ := spelled_of_passAfter h
        refine ⟨first :: ms, m', ?_, by omega, h⟩
        rw [List.flatMap_cons, List.append_assoc, List.cons_append, begins_mark_iff (by decide)]
        exact ⟨r', hs, hfirst.append hms⟩
    · split at h
      · next hc =>
        refine ⟨[], r', (begins_mark_iff (isBlank_closer container)).mpr ⟨r', hc ▸ hs, rfl⟩, ?_, h⟩
        omega
      · simp [stopAt] at h
termination_by (s.length, 0)
decreasing_by
  all_goals
    left
    rw [‹skipBlanks s = _›, List.length_cons] at hlen
    omega

end

end KvClient.Json

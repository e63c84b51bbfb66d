import KvClient.Proofs.Json.Spelling

/-!
# Values that are read are spelled

Whatever is read as a value is spelled by a tree, which then says what is read.

## How it works

* **A reader takes trees only**: `Reader.TakesTrees`, and `TakesMembers` for what reads a member of
  an object behind its name.
* **Loops**: `spelled_of_readItems` and `spelled_of_readMembers`.
* **Values**: `takesTrees_readValue`.
-/

namespace KvClient.Json

/-! ## Lists and members -/

/-- Whatever the reader takes is spelled by a tree. -/
def Reader.TakesTrees {α : Type} (reader : Reader α) : Prop :=
  ∀ ⦃s r a⦄, reader.read s = .ok (a, r) → ∃ t : Tree, Begins t.tokens s r

/-- Whatever the readers of members take is spelled by a colon and a tree. -/
def TakesMembers {σ : Type} (member : σ → String → Reader σ) : Prop :=
  ∀ ⦃state name s r state'⦄, (member state name).read s = .ok (state', r) →
    ∃ t : Tree, Begins ([':'] :: t.tokens) s r

section

variable {α : Type} {item : Reader α} {s r : List Char}

theorem spelled_of_readMoreItems (hitem : item.TakesTrees) {done items : List α}
    (h : readMoreItems item done s = .ok (items, r)) :
    ∃ ts : List Tree, Begins (ts.flatMap ([','] :: Tree.tokens ·) ++ [[']']]) s r := by
  fun_induction readMoreItems item done s with
  | case1 => simp [stopAt] at h
  | case2 done s r' hs =>
    obtain ⟨-, rfl⟩ : done.reverse = items ∧ r' = r := by simpa using h
    exact ⟨[], (begins_mark_iff (by decide)).mpr ⟨r', hs, rfl⟩⟩
  | case3 => simp [stopAt] at h
  | case4 => simp [stopAt] at h
  | case5 => simp at h
  | case6 done s r' hs a rest hi _ _ ih =>
    obtain ⟨t, ht⟩ := hitem hi
    obtain ⟨ts, hts⟩ := ih h
    refine ⟨t :: ts, ?_⟩
    rw [List.flatMap_cons, List.append_assoc, List.cons_append, begins_mark_iff (by decide)]
    exact ⟨r', hs, ht.append hts⟩
  | case7 => simp [stopAt] at h

theorem spelled_of_readItems (hitem : item.TakesTrees) {items : List α}
    (h : readItems item s = .ok (items, r)) :
    ∃ ts : List Tree, Begins (separated (ts.map Tree.tokens) ++ [[']']]) s r := by
  unfold readItems at h
  split at h
  · simp [stopAt] at h
  · next r' hs =>
    obtain ⟨-, rfl⟩ : [] = items ∧ r' = r := by simpa using h
    exact ⟨[], (begins_mark_iff (by decide)).mpr ⟨r', hs, rfl⟩⟩
  · split at h
    · simp at h
    · next hi =>
      obtain ⟨t, ht⟩ := hitem hi
      obtain ⟨ts, hts⟩ := spelled_of_readMoreItems hitem h
      refine ⟨t :: ts, ?_⟩
      rw [List.map_cons, separated, List.append_assoc, List.flatMap_map]
      exact ht.append hts

end

section

variable {σ : Type} {member : σ → String → Reader σ} {state state' : σ} {s s' r : List Char}

theorem begins_of_readMember (hmember : TakesMembers member) (hs : skipBlanks s = '"' :: s')
    (h : readMember member state s' = .ok (state', r)) :
    ∃ m : List Piece × Tree, Begins (Tree.tokensOfMember m) s r := by
  unfold readMember at h
  split at h
  · simp at h
  · next name r' hname =>
    obtain ⟨pieces, rfl⟩ := pieced_of_readText hname
    obtain ⟨t, ht⟩ := hmember h
    exact ⟨(pieces, t), begins_quoted_iff.mpr ⟨r', hs, ht⟩⟩

theorem spelled_of_readMoreMembers (hmember : TakesMembers member)
    (h : readMoreMembers member state s = .ok (state', r)) :
    ∃ ms : List (List Piece × Tree),
      Begins (ms.flatMap ([','] :: Tree.tokensOfMember ·) ++ [['\x7d']]) s r := by
  fun_induction readMoreMembers member state s with
  | case1 => simp [stopAt] at h
  | case2 state s r' hs =>
    obtain ⟨-, rfl⟩ := by simpa using h
    exact ⟨[], (begins_mark_iff (by decide)).mpr ⟨r', hs, rfl⟩⟩
  | case3 => simp [stopAt] at h
  | case4 => simp [stopAt] at h
  | case5 => simp at h
  | case6 state s r₁ hs r₂ hquote state₂ rest hm ih =>
    obtain ⟨m, hm⟩ := begins_of_readMember hmember hquote hm
    obtain ⟨ms, hms⟩ := ih h
    refine ⟨m :: ms, ?_⟩
    rw [List.flatMap_cons, List.append_assoc, List.cons_append, begins_mark_iff (by decide)]
    exact ⟨r₁, hs, hm.append hms⟩
  | case7 => simp [stopAt] at h
  | case8 => simp [stopAt] at h

theorem spelled_of_readMembers (hmember : TakesMembers member)
    (h : readMembers member state s = .ok (state', r)) :
    ∃ ms : List (List Piece × Tree),
      Begins (separated (ms.map Tree.tokensOfMember) ++ [['\x7d']]) s r := by
  unfold readMembers at h
  split at h
  · simp [stopAt] at h
  · next r' hs =>
    obtain ⟨-, rfl⟩ := by simpa using h
    exact ⟨[], (begins_mark_iff (by decide)).mpr ⟨r', hs, rfl⟩⟩
  · next hquote =>
    split at h
    · simp at h
    · next hm =>
      obtain ⟨m, hm⟩ := begins_of_readMember hmember hquote hm
      obtain ⟨ms, hms⟩ := spelled_of_readMoreMembers hmember h
      refine ⟨m :: ms, ?_⟩
      rw [List.map_cons, separated, List.append_assoc, List.flatMap_map]
      exact hm.append hms
  · simp [stopAt] at h

end

/-! ## Values -/

section

variable {s r : List Char} {v : Json}

/-- What stands behind a colon that was read. -/
theorem begins_colon {tokens : List Token} {r₁ : List Char} (hcolon : readColon s = .ok r₁)
    (h : Begins tokens r₁ r) : Begins ([':'] :: tokens) s r := by
  rw [begins_mark_iff (by decide)]
  unfold readColon at hcolon
  split at hcolon
  · simp [stopAt] at hcolon
  · next r₂ hs =>
    obtain rfl : r₂ = r₁ := by simpa using hcolon
    exact ⟨r₂, hs, h⟩
  · simp [stopAt] at hcolon

theorem begins_of_token {t : Tree} {token : Token} (ht : t.tokens = [token])
    (hs : skipBlanks s = token ++ r) : Begins t.tokens s r := by
  obtain ⟨c, tail, tokens, hcons, hblank, -⟩ := t.exists_tokens_eq_cons
  obtain ⟨rfl, rfl⟩ := List.cons.inj (ht.symm.trans hcons)
  rw [hcons, begins_cons_iff hblank]
  exact ⟨r, hs, rfl⟩

theorem eq_append_of_readWord {word : List Char} (h : readWord word s = .ok r) :
    s = word ++ r := by
  induction word generalizing s with
  | nil => simpa [readWord] using h
  | cons w ws ih =>
    cases s with
    | nil => simp [readWord, stopBefore] at h
    | cons c s =>
      simp only [readWord] at h
      split at h
      · next hc => rw [hc, ih h, List.cons_append]
      · simp [stopAt] at h

/-- What is read as a scalar is a tree of one token. -/
theorem token_of_readScalar (h : readScalar s = .ok (v, r)) :
    ∃ (t : Tree) (token : Token), t.tokens = [token] ∧ s = token ++ r := by
  have hconstant : ∀ {value word s}, readConstant value word s = .ok (v, r) → s = word ++ r := by
    intro value word s h
    unfold readConstant at h
    split at h
    · simp at h
    · next hword =>
      obtain ⟨-, rfl⟩ := by simpa using h
      exact eq_append_of_readWord hword
  unfold readScalar at h
  split at h
  · simp [stopAt] at h
  · exact ⟨.null, _, Tree.tokens.eq_1, congrArg ('n' :: ·) (hconstant h)⟩
  · exact ⟨.bool true, _, Tree.tokens.eq_2, congrArg ('t' :: ·) (hconstant h)⟩
  · exact ⟨.bool false, _, Tree.tokens.eq_3, congrArg ('f' :: ·) (hconstant h)⟩
  · split at h
    · simp at h
    · next htext =>
      obtain ⟨pieces, rfl⟩ := pieced_of_readText htext
      obtain ⟨-, rfl⟩ := by simpa using h
      exact ⟨.string pieces, _, Tree.tokens.eq_5 pieces, by simp [quoted]⟩
  · split at h
    · split at h
      · simp at h
      · next hnumber =>
        obtain ⟨-, rfl⟩ := by simpa using h
        unfold readNumber at hnumber
        split at hnumber
        · simp at hnumber
        · next hliteral =>
          obtain ⟨n, hn⟩ := exists_of_readLiteral hliteral
          split at hnumber
          · obtain ⟨-, rfl⟩ := by simpa using hnumber
            exact ⟨.number n, _, Tree.tokens.eq_4 n, hn⟩
          · simp at hnumber
    · simp [stopAt] at h

theorem takesMembers_tableMember {value : Reader Json} (hvalue : value.TakesTrees) :
    TakesMembers (tableMember value) := by
  intro table name s r table' h
  unfold tableMember at h
  simp only at h
  split at h
  · simp at h
  · next r₁ hcolon =>
    split at h
    · simp at h
    · next hv =>
      obtain ⟨-, rfl⟩ := by simpa using h
      obtain ⟨t, ht⟩ := hvalue hv
      exact ⟨t, begins_colon hcolon ht⟩

theorem spelled_of_readNode {inner? : Option (Reader Json)}
    (hinner : ∀ inner ∈ inner?, inner.TakesTrees) (h : readNode inner? s = .ok (v, r)) :
    ∃ t : Tree, Begins t.tokens s r := by
  unfold readNode at h
  split at h
  · next r' hs =>
    split at h
    · simp [stopAt] at h
    · next inner =>
      split at h
      · simp at h
      · next hitems =>
        obtain ⟨-, rfl⟩ := by simpa using h
        obtain ⟨ts, hts⟩ := spelled_of_readItems (hinner inner rfl) hitems
        refine ⟨.array ts, ?_⟩
        rw [Tree.tokens_array, begins_mark_iff (by decide)]
        exact ⟨r', hs, hts⟩
  · next r' hs =>
    split at h
    · simp [stopAt] at h
    · next inner =>
      split at h
      · simp at h
      · next hmembers =>
        obtain ⟨-, rfl⟩ := by simpa using h
        have hmember := takesMembers_tableMember (hinner inner rfl)
        obtain ⟨ms, hms⟩ := spelled_of_readMembers hmember hmembers
        refine ⟨.object ms, ?_⟩
        rw [Tree.tokens_object, begins_mark_iff (by decide)]
        exact ⟨r', hs, hms⟩
  · obtain ⟨t, token, ht, hs⟩ := token_of_readScalar h
    exact ⟨t, begins_of_token ht hs⟩

/-- **Whatever is read as a value is spelled by a tree.** -/
theorem takesTrees_readValue (d : Nat) : (readValue d).TakesTrees := by
  induction d with
  | zero => exact fun s r v h => @spelled_of_readNode s r v none (by simp) h
  | succ d ih =>
    intro s r v h
    refine @spelled_of_readNode s r v (some (readValue d)) (fun inner hinner => ?_) h
    obtain rfl : readValue d = inner := by simpa using hinner
    exact ih

end

end KvClient.Json

import Mathlib.Data.List.TakeWhile
import KvClient.Proofs.Json.Roundtrip
import KvClient.Proofs.Json.Strings

/-!
# Values are read however they are spelled

Whatever tree stands in front of a text, with whatever blanks between its tokens, it is read as the
value that it spells, unless it spells none or is nested too deep.

## How it works

* **A reader gives what a tree says**: `Reads`, for any text behind the tree that does not go on
  with a number.
* **Loops**: if each tree of a list is read so, the list is (`readItems_trees`), and so are the
  members of an object (`readMembers_trees`).
* **Values**: `reads_readValue`.
-/

namespace KvClient.Json

/-! ## Where tokens stand -/

section

variable {token : Token} {tokens more : List Token} {s m rest : List Char}

theorem begins_append :
    Begins (tokens ++ more) s rest ↔ ∃ m, Begins tokens s m ∧ Begins more m rest := by
  induction tokens generalizing s with
  | nil => simp [Begins]
  | cons token tokens ih =>
    simp only [List.cons_append, Begins, ih]
    constructor
    · rintro ⟨blanks, s', hblanks, rfl, m, hm, hrest⟩
      exact ⟨m, ⟨blanks, s', hblanks, rfl, hm⟩, hrest⟩
    · rintro ⟨m, ⟨blanks, s', hblanks, rfl, hm⟩, hrest⟩
      exact ⟨blanks, s', hblanks, rfl, m, hm, hrest⟩

theorem Begins.append (h : Begins tokens s m) (h' : Begins more m rest) :
    Begins (tokens ++ more) s rest := begins_append.mpr ⟨m, h, h'⟩

/-- What follows a text follows what stands behind its tokens. -/
theorem Begins.append_rest (h : Begins tokens s rest) (behind : List Char) :
    Begins tokens (s ++ behind) (rest ++ behind) := by
  induction tokens generalizing s with
  | nil =>
    obtain rfl : s = rest := h
    rfl
  | cons token tokens ih =>
    obtain ⟨blanks, s', hblanks, rfl, hs'⟩ := h
    exact ⟨blanks, s' ++ behind, hblanks, by simp only [List.append_assoc], ih hs'⟩

theorem skipBlanks_blanks {blanks : List Char} (h : ∀ c ∈ blanks, isBlank c = true)
    (s : List Char) : skipBlanks (blanks ++ s) = skipBlanks s :=
  List.dropWhile_append_of_pos h

theorem skipBlanks_eq_nil_iff {s : List Char} :
    skipBlanks s = [] ↔ ∀ c ∈ s, isBlank c = true := List.dropWhile_eq_nil_iff

/-- Blanks are skipped in front of a token. -/
theorem begins_cons_iff {c : Char} {tail : List Char} (hc : isBlank c = false) :
    Begins ((c :: tail) :: tokens) s rest ↔
      ∃ s', skipBlanks s = c :: (tail ++ s') ∧ Begins tokens s' rest := by
  constructor
  · rintro ⟨blanks, s', hblanks, rfl, hs'⟩
    refine ⟨s', ?_, hs'⟩
    rw [skipBlanks_blanks hblanks, List.cons_append, skipBlanks_cons hc]
  · rintro ⟨s', hs, hs'⟩
    refine ⟨s.takeWhile isBlank, s', fun c hc => ?_, ?_, hs'⟩
    · exact List.all_eq_true.mp List.all_takeWhile c hc
    · rw [List.cons_append, ← hs, skipBlanks, List.takeWhile_append_dropWhile]

theorem begins_mark_iff {c : Char} (hc : isBlank c = false) :
    Begins ([c] :: tokens) s rest ↔ ∃ s', skipBlanks s = c :: s' ∧ Begins tokens s' rest :=
  begins_cons_iff hc

theorem begins_quoted_iff {pieces : List Piece} :
    Begins (quoted pieces :: tokens) s rest ↔
      ∃ s', skipBlanks s = '"' :: (pieces.flatMap Piece.text ++ '"' :: s') ∧
        Begins tokens s' rest := by
  rw [quoted, begins_cons_iff (by decide)]
  simp only [List.append_assoc, List.singleton_append]

/-- No blank and no mark continues a number. -/
theorem Begins.endsNumber {c : Char} (h : Begins ([c] :: tokens) s rest)
    (hc : c ∈ [',', ']', '\x7d']) : EndsNumber s := by
  obtain ⟨blanks, s', hblanks, rfl, -⟩ := h
  intro x r hr
  have hmark : c.isDigit = false ∧ c ≠ '.' ∧ c ≠ 'e' ∧ c ≠ 'E' := by
    simp only [List.mem_cons, List.not_mem_nil, or_false] at hc
    rcases hc with rfl | rfl | rfl
    all_goals decide
  cases blanks with
  | nil =>
    obtain ⟨rfl, -⟩ := List.cons.inj hr
    exact hmark
  | cons b blanks =>
    obtain ⟨rfl, -⟩ := List.cons.inj hr
    have hblank := hblanks b (List.mem_cons_self ..)
    simp only [isBlank, Bool.or_eq_true, beq_iff_eq] at hblank
    obtain ((rfl | rfl) | rfl) | rfl := hblank
    all_goals decide

end

namespace Tree

/-! ## Trees -/

theorem itemTokens_eq_map (items : List Tree) : itemTokens items = items.map tokens := by
  induction items with
  | nil => rw [itemTokens, List.map_nil]
  | cons t rest ih => rw [itemTokens, ih, List.map_cons]

theorem memberTokens_eq_map (members : List (List Piece × Tree)) :
    memberTokens members = members.map tokensOfMember := by
  induction members with
  | nil => rw [memberTokens, List.map_nil]
  | cons m rest ih =>
    obtain ⟨name, t⟩ := m
    rw [memberTokens, ih, List.map_cons, tokensOfMember]

theorem tokens_array (items : List Tree) :
    (array items).tokens = ['['] :: (separated (items.map tokens) ++ [[']']]) := by
  rw [tokens, itemTokens_eq_map]

theorem tokens_object (members : List (List Piece × Tree)) :
    (object members).tokens =
      ['\x7b'] :: (separated (members.map tokensOfMember) ++ [['\x7d']]) := by
  rw [tokens, memberTokens_eq_map]

/-- The first character of a tree. -/
theorem exists_tokens_eq_cons (t : Tree) :
    ∃ c tail tokens, t.tokens = (c :: tail) :: tokens ∧ isBlank c = false ∧ c ≠ ']' := by
  cases t with
  | null => exact ⟨_, _, _, tokens.eq_1, by decide⟩
  | bool b =>
    cases b with
    | true => exact ⟨_, _, _, tokens.eq_2, by decide⟩
    | false => exact ⟨_, _, _, tokens.eq_3, by decide⟩
  | number n =>
    obtain ⟨c, r, htext, hc⟩ := n.text_eq_cons
    exact ⟨c, r, [], by rw [tokens, htext], isBlank_of_beginsNumber hc,
      ne_of_beginsNumber hc (by decide)⟩
  | string pieces => exact ⟨_, _, _, by rw [tokens, quoted], by decide⟩
  | array items => exact ⟨_, _, _, tokens_array items, by decide⟩
  | object members => exact ⟨_, _, _, tokens_object members, by decide⟩

end Tree

/-! ## Reading what is spelled -/

/-- On a text that begins with the tokens `read` gives `a?`, and leaves what is behind them, unless
that goes on with a number. -/
def Reads {α : Type} (read : List Char → Reading α) (tokens : List Token) (a? : Option α) : Prop :=
  ∀ ⦃s rest⦄, Begins tokens s rest → EndsNumber rest → (read s).toOption = a?.map (·, rest)

section

variable {α β : Type} {reading : Reading α} {a? : Option α} {rest : List Char}

theorem ok_or_error (h : reading.toOption = a?.map (·, rest)) :
    (∃ a, a? = some a ∧ reading = .ok (a, rest)) ∨ a? = none ∧ ∃ stop, reading = .error stop := by
  cases reading with
  | error stop =>
    cases a? with
    | none => exact .inr ⟨rfl, stop, rfl⟩
    | some a => simp [Except.toOption] at h
  | ok p =>
    cases a? with
    | none => simp [Except.toOption] at h
    | some a => exact .inl ⟨a, rfl, congrArg _ (by simpa [Except.toOption] using h)⟩

theorem eq_ok_of_toOption {ε : Type} {result : Except ε α} {a : α}
    (h : result.toOption = some a) : result = .ok a := by
  cases result with
  | error e => simp [Except.toOption] at h
  | ok b => exact congrArg _ (Option.some.inj h)

/-- What a reading gives that goes on with another one. -/
theorem toOption_bind (h : reading.toOption = a?.map (·, rest))
    (next : α → List Char → Reading β) :
    Except.toOption (match reading with
      | .error stop => .error stop
      | .ok (a, rest) => next a rest) = a?.bind fun a => (next a rest).toOption := by
  obtain ⟨a, rfl, hread⟩ | ⟨rfl, stop, hread⟩ := ok_or_error h
  · rw [hread]
    rfl
  · rw [hread]
    rfl

/-- What a reading gives that makes something of what another one gives. -/
theorem toOption_map {reading' : Reading β} {f : α → β} (h : reading.toOption = a?.map (·, rest))
    (hok : ∀ a, reading = .ok (a, rest) → reading' = .ok (f a, rest))
    (hstop : ∀ stop, reading = .error stop → reading' = .error stop) :
    reading'.toOption = (a?.map f).map (·, rest) := by
  obtain ⟨a, rfl, hread⟩ | ⟨rfl, stop, hread⟩ := ok_or_error h
  · rw [hok a hread]
    rfl
  · rw [hstop stop hread]
    rfl

end

theorem readText_literal (pieces : List Piece) (rest : List Char) :
    (readText [] (pieces.flatMap Piece.text ++ '"' :: rest)).toOption =
      (textOf? pieces).map (·, rest) := by
  rw [readText_pieces pieces, textOf?, Option.map_map]
  rfl

section

variable {α : Type} {item : Reader α} {f : Tree → Option α} {items : List Tree}
  {s rest : List Char}

/-- Behind an item stands a comma, or what ends the list. -/
theorem endsNumber_of_more {β : Type} {tokens : β → List Token} {bs : List β} {close : Char}
    (h : Begins (bs.flatMap ([','] :: tokens ·) ++ [[close]]) s rest)
    (hclose : close ∈ [']', '\x7d']) : EndsNumber s := by
  cases bs with
  | nil => exact Begins.endsNumber h (List.mem_cons_of_mem _ hclose)
  | cons b bs => exact Begins.endsNumber h (List.mem_cons_self ..)

/-- A tree is no end of a list. -/
theorem Begins.skipBlanks_tree {t : Tree} (h : Begins t.tokens s rest) :
    ∃ c r, skipBlanks s = c :: r ∧ c ≠ ']' := by
  obtain ⟨c, tail, tokens, ht, hblank, hc⟩ := t.exists_tokens_eq_cons
  rw [ht, begins_cons_iff hblank] at h
  obtain ⟨s', hs, -⟩ := h
  exact ⟨c, _, hs, hc⟩

theorem readMoreItems_trees (h : ∀ t ∈ items, Reads item.read t.tokens (f t)) (done : List α)
    (hs : Begins (items.flatMap ([','] :: Tree.tokens ·) ++ [[']']]) s rest) :
    (readMoreItems item done s).toOption =
      (items.mapM f).map fun as => (done.reverse ++ as, rest) := by
  induction items generalizing done s with
  | nil =>
    obtain ⟨s', hs', rfl⟩ := (begins_mark_iff (by decide)).mp hs
    rw [readMoreItems_of_bracket item done hs']
    simp [Except.toOption]
  | cons t items ih =>
    obtain ⟨ht, hitems⟩ := List.forall_mem_cons.mp h
    rw [List.flatMap_cons, List.append_assoc, List.cons_append, begins_mark_iff (by decide)] at hs
    obtain ⟨r, hcomma, hr⟩ := hs
    obtain ⟨m, hfirst, hmore⟩ := begins_append.mp hr
    rw [readMoreItems_of_comma done hcomma hfirst.skipBlanks_tree]
    refine (toOption_bind (ht hfirst (endsNumber_of_more hmore (by decide)))
      fun a => readMoreItems item (a :: done)).trans ?_
    simp only [ih hitems _ hmore, List.mapM_cons]
    cases f t with
    | none => rfl
    | some a => cases items.mapM f <;> simp

/-- **If each item is read as its tree says, a list of items is.** -/
theorem readItems_trees (h : ∀ t ∈ items, Reads item.read t.tokens (f t))
    (hs : Begins (separated (items.map Tree.tokens) ++ [[']']]) s rest) :
    (readItems item s).toOption = (items.mapM f).map (·, rest) := by
  cases items with
  | nil =>
    obtain ⟨s', hs', rfl⟩ := (begins_mark_iff (by decide)).mp hs
    rw [readItems, hs']
    rfl
  | cons t items =>
    obtain ⟨ht, hitems⟩ := List.forall_mem_cons.mp h
    rw [List.map_cons, separated, List.append_assoc, List.flatMap_map] at hs
    obtain ⟨m, hfirst, hmore⟩ := begins_append.mp hs
    rw [readItems_item hfirst.skipBlanks_tree]
    refine (toOption_bind (ht hfirst (endsNumber_of_more hmore (by decide)))
      fun a => readMoreItems item [a]).trans ?_
    simp only [readMoreItems_trees hitems _ hmore, List.mapM_cons]
    cases f t with
    | none => rfl
    | some a => cases items.mapM f <;> simp

end

section

variable {σ : Type} {member : σ → String → Reader σ} {step : σ → String → Tree → Option σ}
  {members : List (List Piece × Tree)} {s rest : List Char}

/-- What a member makes of a state, by the text that its name stands for. -/
def named (step : σ → String → Tree → Option σ) (state : σ) (m : List Piece × Tree) : Option σ :=
  (textOf? m.1).bind fun name => step state name m.2

theorem readMember_tree {m : List Piece × Tree}
    (h : ∀ state name, Reads (member state name).read ([':'] :: m.2.tokens) (step state name m.2))
    (state : σ) (hs : Begins ([':'] :: m.2.tokens) s rest) (hrest : EndsNumber rest) :
    (readMember member state (m.1.flatMap Piece.text ++ '"' :: s)).toOption =
      (named step state m).map (·, rest) := by
  rw [named]
  obtain ⟨name, hname, hread⟩ | ⟨hname, stop, hread⟩ := ok_or_error (readText_literal m.1 s)
  · simp only [readMember, hread, hname, Option.bind_some]
    exact h state name hs hrest
  · simp only [readMember, hread, hname]
    rfl

theorem readMoreMembers_trees
    (h : ∀ m ∈ members, ∀ state name,
      Reads (member state name).read ([':'] :: m.2.tokens) (step state name m.2)) (state : σ)
    (hs : Begins (members.flatMap ([','] :: Tree.tokensOfMember ·) ++ [['\x7d']]) s rest) :
    (readMoreMembers member state s).toOption =
      (members.foldlM (named step) state).map (·, rest) := by
  induction members generalizing state s with
  | nil =>
    obtain ⟨s', hs', rfl⟩ := (begins_mark_iff (by decide)).mp hs
    rw [readMoreMembers_of_brace member state hs']
    rfl
  | cons m members ih =>
    obtain ⟨hm, hmembers⟩ := List.forall_mem_cons.mp h
    rw [List.flatMap_cons, List.append_assoc, List.cons_append, begins_mark_iff (by decide)] at hs
    obtain ⟨r, hcomma, hr⟩ := hs
    rw [Tree.tokensOfMember, List.cons_append, begins_quoted_iff] at hr
    obtain ⟨r', hquote, hr'⟩ := hr
    obtain ⟨m', hfirst, hmore⟩ := begins_append.mp hr'
    rw [readMoreMembers_of_comma member state hcomma hquote, List.foldlM_cons]
    refine (toOption_bind (readMember_tree hm state hfirst (endsNumber_of_more hmore (by decide)))
      (readMoreMembers member)).trans ?_
    cases named step state m with
    | none => rfl
    | some state' => exact ih hmembers state' hmore

/-- **If each member is read as its tree says, the members of an object are.** -/
theorem readMembers_trees
    (h : ∀ m ∈ members, ∀ state name,
      Reads (member state name).read ([':'] :: m.2.tokens) (step state name m.2)) (state : σ)
    (hs : Begins (separated (members.map Tree.tokensOfMember) ++ [['\x7d']]) s rest) :
    (readMembers member state s).toOption =
      (members.foldlM (named step) state).map (·, rest) := by
  cases members with
  | nil =>
    obtain ⟨s', hs', rfl⟩ := (begins_mark_iff (by decide)).mp hs
    rw [readMembers, hs']
    rfl
  | cons m members =>
    obtain ⟨hm, hmembers⟩ := List.forall_mem_cons.mp h
    rw [List.map_cons, separated, List.append_assoc, List.flatMap_map, Tree.tokensOfMember,
      List.cons_append, begins_quoted_iff] at hs
    obtain ⟨r, hquote, hr⟩ := hs
    obtain ⟨m', hfirst, hmore⟩ := begins_append.mp hr
    rw [readMembers_of_quote member state hquote, List.foldlM_cons]
    refine (toOption_bind (readMember_tree hm state hfirst (endsNumber_of_more hmore (by decide)))
      (readMoreMembers member)).trans ?_
    cases named step state m with
    | none => rfl
    | some state' => exact readMoreMembers_trees hmembers state' hmore

end

/-! ## Values -/

/-- The value that a tree spells, if it is nested no deeper than `d`. -/
def Tree.within? (d : Nat) (t : Tree) : Option Json := if t.depth ≤ d then t.value? else none

namespace Tree

theorem mapM_within? (d : Nat) (items : List Tree) :
    items.mapM (within? d) = if depthItems items ≤ d then itemValues? items else none := by
  induction items with
  | nil => simp [depthItems, itemValues?]
  | cons t items ih =>
    rw [List.mapM_cons, ih, depthItems, itemValues?, within?]
    simp only [Nat.max_le]
    by_cases ht : t.depth ≤ d
    · by_cases hitems : depthItems items ≤ d
      · rw [if_pos ht, if_pos hitems, if_pos ⟨ht, hitems⟩]
        cases t.value? with
        | none => rfl
        | some v => cases itemValues? items <;> rfl
      · simp [ht, hitems]
    · simp [ht]

/-- What a member makes of the table of an object. -/
def put? (d : Nat) (table : Assoc Json) (name : String) (t : Tree) : Option (Assoc Json) :=
  (t.within? d).map (table.insert name ·)

theorem foldlM_put? (d : Nat) (members : List (List Piece × Tree)) (table : Assoc Json) :
    members.foldlM (named (put? d)) table =
      if depthMembers members ≤ d then
        (memberValues? members).map fun pairs =>
          pairs.foldl (fun (table : Assoc Json) p => table.insert p.1 p.2) table
      else none := by
  induction members generalizing table with
  | nil => simp [depthMembers, memberValues?]
  | cons m members ih =>
    obtain ⟨name, t⟩ := m
    rw [List.foldlM_cons, depthMembers, memberValues?, named]
    simp only [Nat.max_le]
    cases textOf? name with
    | none => simp
    | some k =>
      by_cases ht : t.depth ≤ d
      · cases hv : t.value? with
        | none => simp [put?, within?, ht, hv]
        | some v => simp [put?, within?, ht, hv, ih, Function.comp_def]
      · simp [put?, within?, ht]

theorem within?_array (d : Nat) (items : List Tree) :
    (array items).within? (d + 1) = (items.mapM (within? d)).map .array := by
  rw [within?, depth, value?, mapM_within?]
  by_cases h : depthItems items ≤ d
  · simp [h]
  · simp [h]

theorem within?_object (d : Nat) (members : List (List Piece × Tree)) :
    (object members).within? (d + 1) =
      (members.foldlM (named (put? d)) []).map .object := by
  rw [within?, depth, value?, foldlM_put?]
  by_cases h : depthMembers members ≤ d
  · rw [if_pos (Nat.succ_le_succ h), if_pos h, Option.map_map]
    rfl
  · simp [h]

end Tree

section

variable {t : Tree} {s rest : List Char}

theorem readNode_of_ne {c : Char} {r : List Char} (hs : skipBlanks s = c :: r)
    (hc : c ≠ '[' ∧ c ≠ '\x7b') (inner? : Option (Reader Json)) :
    readNode inner? s = readScalar (c :: r) := by
  rw [readNode, hs]
  split
  · next h => exact absurd (List.cons.inj h).1 hc.1
  · next h => exact absurd (List.cons.inj h).1 hc.2
  · rfl

/-- A tree of one token is read as a scalar, at every depth. -/
theorem reads_scalar {c : Char} {tail : List Char} (ht : t.tokens = [c :: tail])
    (hc : isBlank c = false ∧ c ≠ '[' ∧ c ≠ '\x7b') (hdepth : t.depth = 0)
    (hread : ∀ {rest}, EndsNumber rest →
      (readScalar (c :: (tail ++ rest))).toOption = t.value?.map (·, rest)) (d : Nat) :
    Reads (readValue d).read t.tokens (t.within? d) := by
  intro s rest hs hrest
  rw [ht, begins_cons_iff hc.1] at hs
  obtain ⟨s', hs, rfl⟩ := hs
  have hnode : ∀ inner?, readNode inner? s = readScalar (c :: (tail ++ s')) :=
    readNode_of_ne hs hc.2
  rw [Tree.within?, hdepth, if_pos (Nat.zero_le d), ← hread hrest]
  cases d with
  | zero => exact congrArg _ (hnode none)
  | succ d => exact congrArg _ (hnode (some (readValue d)))

theorem readNumber_numeral (n : Numeral) (hrest : EndsNumber rest) :
    (readNumber (n.text ++ rest)).toOption = n.literal.value.toOption.map (·, rest) := by
  rw [readNumber, readLiteral_numeral .endInValue n hrest]
  cases hvalue : n.literal.value with
  | error unread => simp only [hvalue]; rfl
  | ok x => simp only [hvalue]; rfl

theorem readScalar_numeral (n : Numeral) (hrest : EndsNumber rest) :
    (readScalar (n.text ++ rest)).toOption =
      (n.literal.value.toOption.map Json.number).map (·, rest) := by
  have hnumber := readNumber_numeral n hrest
  obtain ⟨c, r, htext, hc⟩ := n.text_eq_cons
  rw [htext, List.cons_append] at hnumber ⊢
  rw [readScalar_number hc]
  refine toOption_map hnumber (fun x hok => ?_) (fun stop hstop => ?_)
  · simp only [hok]
  · simp only [hstop]

theorem readScalar_quoted (pieces : List Piece) (rest : List Char) :
    (readScalar (quoted pieces ++ rest)).toOption =
      ((textOf? pieces).map Json.string).map (·, rest) := by
  have htext : quoted pieces ++ rest = '"' :: (pieces.flatMap Piece.text ++ '"' :: rest) := by
    simp [quoted]
  rw [htext, readScalar]
  refine toOption_map (readText_literal pieces rest) (fun t hok => ?_) (fun stop hstop => ?_)
  · simp only [hok]
  · simp only [hstop]

/-- A member of an ordinary object is read as its tree says. -/
theorem reads_tableMember {value : Reader Json} {d : Nat}
    (h : Reads value.read t.tokens (t.within? d)) (table : Assoc Json) (name : String) :
    Reads (tableMember value table name).read ([':'] :: t.tokens) (Tree.put? d table name t) := by
  intro s rest hs hrest
  obtain ⟨r, hcolon, hr⟩ := (begins_mark_iff (by decide)).mp hs
  have hread : readColon s = .ok r := by
    rw [readColon, hcolon]
    rfl
  refine toOption_map (h hr hrest) (fun v hok => ?_) (fun stop hstop => ?_)
  · simp only [tableMember, hread, hok]
  · simp only [tableMember, hread, hstop]

theorem reads_number (n : Numeral) (d : Nat) :
    Reads (readValue d).read (Tree.number n).tokens ((Tree.number n).within? d) := by
  obtain ⟨c, r, htext, hc⟩ := n.text_eq_cons
  have hne : ∀ x : Char, x ≠ '-' ∧ x.isDigit = false → c ≠ x := fun _ => ne_of_beginsNumber hc
  have hopens : isBlank c = false ∧ c ≠ '[' ∧ c ≠ '\x7b' :=
    ⟨isBlank_of_beginsNumber hc, hne _ (by decide), hne _ (by decide)⟩
  refine reads_scalar (by rw [Tree.tokens, htext]) hopens rfl (fun {rest} hrest => ?_) d
  rw [← List.cons_append, ← htext]
  exact readScalar_numeral n hrest

theorem reads_array {items : List Tree} (d : Nat)
    (h : ∀ t ∈ items, ∀ d, Reads (readValue d).read t.tokens (t.within? d)) :
    Reads (readValue d).read (Tree.array items).tokens ((Tree.array items).within? d) := by
  intro s rest hs _
  rw [Tree.tokens_array, begins_mark_iff (by decide)] at hs
  obtain ⟨r, hs, hr⟩ := hs
  cases d with
  | zero =>
    show (readNode none s).toOption = _
    simp only [readNode, hs]
    rfl
  | succ d =>
    show (readNode (some (readValue d)) s).toOption = _
    rw [Tree.within?_array]
    refine toOption_map (readItems_trees (fun t ht => h t ht d) hr) (fun vs hok => ?_)
      (fun stop hstop => ?_)
    · simp only [readNode, hs, hok]
    · simp only [readNode, hs, hstop]

theorem reads_object {members : List (List Piece × Tree)} (d : Nat)
    (h : ∀ m ∈ members, ∀ d, Reads (readValue d).read m.2.tokens (m.2.within? d)) :
    Reads (readValue d).read (Tree.object members).tokens ((Tree.object members).within? d) := by
  intro s rest hs _
  rw [Tree.tokens_object, begins_mark_iff (by decide)] at hs
  obtain ⟨r, hs, hr⟩ := hs
  cases d with
  | zero =>
    show (readNode none s).toOption = _
    simp only [readNode, hs]
    rfl
  | succ d =>
    show (readNode (some (readValue d)) s).toOption = _
    have hmembers := readMembers_trees (fun m hm => reads_tableMember (h m hm d)) [] hr
    rw [Tree.within?_object]
    refine toOption_map hmembers (fun table hok => ?_) (fun stop hstop => ?_)
    · simp only [readNode, hs, hok]
    · simp only [readNode, hs, hstop]

/-- **A value is read as its tree says**, unless it is nested too deep. -/
theorem reads_readValue (t : Tree) (d : Nat) :
    Reads (readValue d).read t.tokens (t.within? d) := by
  induction t generalizing d with
  | null =>
    refine reads_scalar Tree.tokens.eq_1 (by decide) rfl (fun {rest} _ => ?_) d
    exact congrArg Except.toOption (readScalar_null rest)
  | bool b =>
    cases b with
    | true =>
      refine reads_scalar Tree.tokens.eq_2 (by decide) rfl (fun {rest} _ => ?_) d
      exact congrArg Except.toOption (readScalar_bool true rest)
    | false =>
      refine reads_scalar Tree.tokens.eq_3 (by decide) rfl (fun {rest} _ => ?_) d
      exact congrArg Except.toOption (readScalar_bool false rest)
  | number n => exact reads_number n d
  | string pieces =>
    refine reads_scalar (Tree.tokens.eq_5 pieces) (by decide) rfl (fun {rest} _ => ?_) d
    exact readScalar_quoted pieces rest
  | array items ih => exact reads_array d ih
  | object members ih => exact reads_object d ih

end

end KvClient.Json

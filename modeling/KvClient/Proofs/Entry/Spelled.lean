import Mathlib.Data.List.Forall2
import KvClient.Proofs.Entry.Spelling
import KvClient.Proofs.Json.Plain

/-!
# Entries are spelled

A text is taken as a list of entries just if it spells one.

## How it works

* **Whatever is read as entries is spelled by a tree**: `spelled_of_readList`, one lemma for each
  reader.
* **So the tree decides**: it is read as the entries that it lists (`parse_tree`,
  `parse_eq_ok_iff`), hence `parseEntries_spelled`.
* **A text that lists entries is plain**, as all trees are: `plain_of_parse`.
-/

namespace KvClient

namespace Entry

open Json

variable {draft draft' : Draft} {name : String} {e : Entry} {s r : List Char}

/-! ## Fields -/

theorem spelled_of_readKey {key : String} (h : readKey s = .ok (key, r)) :
    ∃ t : Tree, Begins t.tokens s r := by
  unfold readKey at h
  split at h
  · next hs =>
    obtain ⟨pieces, rfl⟩ := pieced_of_readText h
    refine ⟨.string pieces, ?_⟩
    rw [Tree.tokens.eq_5, begins_quoted_iff]
    exact ⟨r, hs, rfl⟩
  · exact absurd h (stopMismatch_ne_ok _ _ _)

theorem spelled_of_pass (h : pass s = .ok r) : ∃ t : Tree, Begins t.tokens s r := by
  obtain ⟨t, m, ht, -, hpass⟩ := spelled_of_passValue h
  rw [passAfter] at hpass
  obtain rfl : m = r := Except.ok.inj hpass
  exact ⟨t, ht⟩

theorem spelled_of_readKeyField (h : readKeyField draft s = .ok (draft', r)) :
    ∃ t : Tree, Begins ([':'] :: t.tokens) s r := by
  unfold readKeyField at h
  split at h
  · simp [stopBefore] at h
  · split at h
    · simp at h
    · next hcolon =>
      split at h
      · simp at h
      · next hkey =>
        obtain ⟨-, rfl⟩ := Prod.mk.inj (Except.ok.inj h)
        exact (spelled_of_readKey hkey).imp fun t ht => begins_colon hcolon ht

theorem spelled_of_readValueField (h : readValueField draft s = .ok (draft', r)) :
    ∃ t : Tree, Begins ([':'] :: t.tokens) s r := by
  unfold readValueField at h
  split at h
  · simp [stopBefore] at h
  · split at h
    · simp at h
    · next hcolon =>
      split at h
      · simp at h
      · next hvalue =>
        obtain ⟨-, rfl⟩ := Prod.mk.inj (Except.ok.inj h)
        exact (takesTrees_readValue _ hvalue).imp fun t ht => begins_colon hcolon ht

theorem spelled_of_passField (h : passField draft s = .ok (draft', r)) :
    ∃ t : Tree, Begins ([':'] :: t.tokens) s r := by
  unfold passField at h
  split at h
  · simp at h
  · next hcolon =>
    split at h
    · simp at h
    · next hpass =>
      obtain ⟨-, rfl⟩ := Prod.mk.inj (Except.ok.inj h)
      exact (spelled_of_pass hpass).imp fun t ht => begins_colon hcolon ht

/-- Whatever is read as a field is spelled by a colon and a tree. -/
theorem spelled_of_readField (h : readField draft name s = .ok (draft', r)) :
    ∃ t : Tree, Begins ([':'] :: t.tokens) s r := by
  unfold readField at h
  split at h
  · exact spelled_of_readKeyField h
  · split at h
    · exact spelled_of_readValueField h
    · exact spelled_of_passField h

/-! ## Entries in both forms -/

theorem spelled_of_readObject (h : readObject s = .ok (e, r)) :
    ∃ members : List (List Piece × Tree),
      Begins (separated (members.map Tree.tokensOfMember) ++ [['\x7d']]) s r := by
  unfold readObject at h
  split at h
  · simp at h
  · next hmembers =>
    obtain ⟨-, rfl⟩ := by simpa using h
    exact spelled_of_readMembers (fun draft name s r draft' hf => spelled_of_readField hf) hmembers
  · simp [stopBefore] at h
  · simp [stopBefore] at h

theorem spelled_of_readPairEnd {entry : Entry} (h : readPairEnd entry s = .ok (e, r)) :
    Begins [[']']] s r := by
  unfold readPairEnd at h
  split at h
  · simp [stopAt] at h
  · next r' hs =>
    obtain ⟨-, rfl⟩ : entry = e ∧ r' = r := by simpa using h
    exact (begins_mark_iff (by decide)).mpr ⟨r', hs, rfl⟩
  · split at h <;> simp [stopAt] at h
  · simp [stopAt] at h

theorem spelled_of_readPairValue {key : String} (h : readPairValue key s = .ok (e, r)) :
    ∃ t : Tree, Begins ([','] :: (t.tokens ++ [[']']])) s r := by
  unfold readPairValue at h
  split at h
  · simp [stopAt] at h
  · simp [stopBefore] at h
  · next r' hcomma =>
    split at h
    · simp [stopAt] at h
    · simp [stopAt] at h
    · split at h
      · simp at h
      · next hvalue =>
        obtain ⟨t, ht⟩ := takesTrees_readValue _ hvalue
        exact ⟨t, (begins_mark_iff (by decide)).mpr
          ⟨r', hcomma, ht.append (spelled_of_readPairEnd h)⟩⟩
  · simp [stopAt] at h

theorem spelled_of_readPair (h : readPair s = .ok (e, r)) :
    ∃ items : List Tree, Begins (separated (items.map Tree.tokens) ++ [[']']]) s r := by
  unfold readPair at h
  split at h
  · simp [stopAt] at h
  · simp [stopBefore] at h
  · split at h
    · simp at h
    · next hkey =>
      obtain ⟨key, hk⟩ := spelled_of_readKey hkey
      obtain ⟨value, hv⟩ := spelled_of_readPairValue h
      refine ⟨[key, value], ?_⟩
      have hpair := hk.append hv
      simpa [separated] using hpair

/-- Whatever is read as an entry is spelled by a tree. -/
theorem spelled_of_readEntry (h : readEntry s = .ok (e, r)) : ∃ t : Tree, Begins t.tokens s r := by
  unfold readEntry at h
  split at h
  · next r' hs =>
    obtain ⟨members, hmembers⟩ := spelled_of_readObject h
    refine ⟨.object members, ?_⟩
    rw [Tree.tokens_object, begins_mark_iff (by decide)]
    exact ⟨r', hs, hmembers⟩
  · next r' hs =>
    obtain ⟨items, hitems⟩ := spelled_of_readPair h
    refine ⟨.array items, ?_⟩
    rw [Tree.tokens_array, begins_mark_iff (by decide)]
    exact ⟨r', hs, hitems⟩
  · exact absurd h (stopMismatch_ne_ok _ _ _)

/-! ## Documents -/

/-- **Whatever is read as a list of entries is spelled by a tree.** -/
theorem spelled_of_readList {es : List Entry} (h : readList s = .ok (es, r)) :
    ∃ t : Tree, Begins t.tokens s r := by
  unfold readList at h
  split at h
  · next r' hs =>
    obtain ⟨items, hitems⟩ := spelled_of_readItems (fun s r e he => spelled_of_readEntry he) h
    refine ⟨.array items, ?_⟩
    rw [Tree.tokens_array, begins_mark_iff (by decide)]
    exact ⟨r', hs, hitems⟩
  · exact absurd h (stopMismatch_ne_ok _ _ _)

/-- **The tree of a text decides what it is read as.** -/
theorem parse_tree {t : Tree} {text : String} (hs : Begins t.tokens text.toList r) :
    (parse text).toOption = if skipBlanks r = [] then t.entries? else none := by
  rw [parse, readDocument]
  obtain ⟨es, hes, hread⟩ | ⟨hes, stop, hread⟩ := ok_or_error (readList_tree hs)
  · simp only [hread, hes]
    split
    · next hr => rw [if_pos hr]; rfl
    · next hr => rw [if_neg hr]; rfl
  · simp only [hread, hes, ite_self]
    rfl

/-- **Whatever is read as a document is spelled by a tree**, which lists the entries. -/
theorem spelled_of_parse {es : List Entry} {text : String} (h : parse text = .ok es) :
    ∃ (t : Tree) (rest : List Char), Begins t.tokens text.toList rest ∧
      (∀ c ∈ rest, isBlank c = true) ∧ t.entries? = some es := by
  have hspelled : ∃ (t : Tree) (rest : List Char), Begins t.tokens text.toList rest := by
    rw [parse, readDocument] at h
    split at h
    · simp at h
    · next hread => exact (spelled_of_readList hread).imp fun t ht => ⟨_, ht⟩
  obtain ⟨t, rest, ht⟩ := hspelled
  have htree := parse_tree ht
  rw [h] at htree
  by_cases hrest : skipBlanks rest = []
  · rw [if_pos hrest] at htree
    exact ⟨t, rest, ht, skipBlanks_eq_nil_iff.mp hrest, htree.symm⟩
  · rw [if_neg hrest] at htree
    exact absurd htree (Option.some_ne_none es)

/-- **A text is taken just if it spells an array of entries** with nothing but blanks behind it. -/
theorem parse_eq_ok_iff {es : List Entry} {text : String} :
    parse text = .ok es ↔ ∃ (items : List Tree) (rest : List Char),
      Begins (Tree.array items).tokens text.toList rest ∧ (∀ c ∈ rest, isBlank c = true) ∧
        items.mapM Tree.entryOf? = some es := by
  constructor
  · intro h
    obtain ⟨t, rest, hs, hrest, hes⟩ := spelled_of_parse h
    cases t with
    | array items => exact ⟨items, rest, hs, hrest, hes⟩
    | _ => exact absurd hes.symm (Option.some_ne_none es)
  · rintro ⟨items, rest, hs, hrest, hes⟩
    have htree := parse_tree hs
    rw [if_pos (skipBlanks_eq_nil_iff.mpr hrest), Tree.entries?, hes] at htree
    exact eq_ok_of_toOption htree

/-- **Blanks behind a text change nothing.** -/
theorem parse_append_blanks {es : List Entry} {text : String} {blanks : List Char}
    (h : parse text = .ok es) (hblanks : ∀ c ∈ blanks, isBlank c = true) :
    parse (text ++ String.ofList blanks) = .ok es := by
  obtain ⟨t, rest, ht, hrest, hes⟩ := spelled_of_parse h
  have hbegins : Begins t.tokens (text ++ String.ofList blanks).toList (rest ++ blanks) := by
    rw [String.toList_append, String.toList_ofList]
    exact ht.append_rest blanks
  have hall : ∀ c ∈ rest ++ blanks, isBlank c = true := by
    intro c hc
    exact (List.mem_append.mp hc).elim (hrest c) (hblanks c)
  have htree := parse_tree hbegins
  rw [if_pos (skipBlanks_eq_nil_iff.mpr hall), hes] at htree
  cases hparse : parse (text ++ String.ofList blanks) with
  | error e => simp [hparse, Except.toOption] at htree
  | ok es' =>
    rw [hparse] at htree
    exact congrArg Except.ok (Option.some.inj htree)

/-- **A text that lists entries is plain.** -/
theorem plain_of_parse {text : String} {es : List Entry} (h : parse text = .ok es) :
    ∀ c ∈ text.toList, Plain c := by
  obtain ⟨t, rest, ht, hrest, -⟩ := spelled_of_parse h
  exact ht.plain t.plain_tokens fun c hc => plain_of_isBlank (hrest c hc)

end Entry

namespace Json.Tree

theorem mapM_entryOf?_of_spells {items : List Tree} {es : List Entry}
    (h : List.Forall₂ SpellsEntry items es)
    (hdepth : ∀ e ∈ es, e.value.depth ≤ Entry.maxValueDepth) : items.mapM entryOf? = some es := by
  induction h with
  | nil => rfl
  | cons hitem _ ih =>
    obtain ⟨he, hes⟩ := List.forall_mem_cons.mp hdepth
    rw [List.mapM_cons, hitem.entryOf?_eq he, ih hes]
    rfl

theorem mapM_entryOf?_of_parts?_none {items : List Tree} (h : ∃ t ∈ items, t.parts? = none) :
    items.mapM entryOf? = none := by
  obtain ⟨t, ht, hparts⟩ := h
  induction items with
  | nil => exact absurd ht List.not_mem_nil
  | cons t' items ih =>
    rw [List.mapM_cons]
    rcases List.mem_cons.mp ht with rfl | hmem
    · rw [entryOf?, hparts]
      rfl
    · rw [ih hmem]
      exact Option.bind_fun_none _

end Json.Tree

namespace Payload

open Json

theorem parseEntries_ok_iff {text : String} {es : List Entry} :
    parseEntries text = .ok es ↔ Entry.parse text = .ok es := by
  unfold parseEntries
  cases Entry.parse text with
  | error e => simp
  | ok es' => simp

theorem parseEntries_error_iff {text : String} :
    (∃ e, parseEntries text = .error (.badJson e)) ↔ (Entry.parse text).toOption = none := by
  unfold parseEntries
  cases Entry.parse text with
  | error e => simp [Except.toOption]
  | ok es' => simp [Except.toOption]

/-- **A text is taken as a list of entries just if it spells one.**  It gives these entries however
it spells them; and it is refused if it is no array, if an item of the array is no entry, or if
anything but blanks follows.  Whatever else does not spell a list of entries is refused in the same
way, also if no document can be read from it. -/
theorem parseEntries_spelled (text : String) :
    (∀ (items : List Tree) (es : List Entry) (rest : List Char),
      Begins (Tree.array items).tokens text.toList rest → (∀ c ∈ rest, isBlank c = true) →
      List.Forall₂ Tree.SpellsEntry items es → (∀ e ∈ es, e.value.depth ≤ 125) →
        parseEntries text = .ok es) ∧
    (∀ (t : Tree) (rest : List Char), Begins t.tokens text.toList rest →
      ((∀ items, t = .array items → ∃ item ∈ items, item.parts? = none) ∨
        ∃ c ∈ rest, isBlank c = false) →
        ∃ e, parseEntries text = .error (.badJson e)) ∧
    (∀ es : List Entry, parseEntries text = .ok es →
      ∃ (items : List Tree) (rest : List Char), Begins (Tree.array items).tokens text.toList rest ∧
        (∀ c ∈ rest, isBlank c = true) ∧ items.mapM Tree.entryOf? = some es) ∧
    ((∀ (items : List Tree) (rest : List Char), Begins (Tree.array items).tokens text.toList rest →
      (∀ c ∈ rest, isBlank c = true) → items.mapM Tree.entryOf? = none) →
        ∃ e, parseEntries text = .error (.badJson e)) := by
  refine ⟨fun items es rest hs hrest hes hdepth => ?_, fun t rest hs hbad => ?_, fun es h => ?_,
    fun hnone => ?_⟩
  · exact parseEntries_ok_iff.mpr (Entry.parse_eq_ok_iff.mpr
      ⟨items, rest, hs, hrest, Tree.mapM_entryOf?_of_spells hes hdepth⟩)
  · rw [parseEntries_error_iff, Entry.parse_tree hs]
    rcases hbad with hitems | ⟨c, hc, hblank⟩
    · have hnone : t.entries? = none := by
        cases t with
        | array items => exact Tree.mapM_entryOf?_of_parts?_none (hitems items rfl)
        | _ => rfl
      rw [hnone, ite_self]
    · refine if_neg fun hnil => ?_
      have hall := skipBlanks_eq_nil_iff.mp hnil c hc
      simp [hblank] at hall
  · exact Entry.parse_eq_ok_iff.mp (parseEntries_ok_iff.mp h)
  · rw [parseEntries_error_iff]
    cases hparse : Entry.parse text with
    | error e => rfl
    | ok es =>
      obtain ⟨items, rest, hs, hrest, hes⟩ := Entry.parse_eq_ok_iff.mp hparse
      simp [hnone items rest hs hrest] at hes

/-- Blanks, escapes, a surrogate pair, members and fields in other orders, a field that does not
belong to an entry and has no value at all, and both forms of entries.  The second text lists no
entry, and the third one is no document. -/
theorem parseEntries_spelled_escapes :
    let text := "[ \x7b\"x\":[\"\\ud800\",1e999],\n" ++
      "\"valu\\u0065\": \x7b\"b\":-1,\"a\":\"\\uD83D\\uDE00\"\x7d," ++
      "\"x\":\x7b\x7d,\"key\":\"k\"\x7d , [\"\\n\",true] ] "
    let es : List Entry := [
      ⟨"k", .object [("a", .string "😀"), ("b", .number (.integer (-1) (by decide)))]⟩,
      ⟨"\n", .bool true⟩]
    parseEntries text = .ok es ∧
      (∃ (items : List Tree) (rest : List Char),
        Begins (Tree.array items).tokens text.toList rest ∧ (∀ c ∈ rest, isBlank c = true) ∧
          items.mapM Tree.entryOf? = some es) ∧
      (∃ e, parseEntries "[[\"k\"]]" = .error (.badJson e)) ∧
      ∃ e, parseEntries "[nul]" = .error (.badJson e) := by
  intro text es
  let unit (a b c d : Fin 16) (upper : Bool) : Piece :=
    .unit ⟨a, upper⟩ ⟨b, upper⟩ ⟨c, upper⟩ ⟨d, upper⟩
  let a : List Piece := [.plain 'a' (by decide)]
  let b : List Piece := [.plain 'b' (by decide)]
  let k : List Piece := [.plain 'k' (by decide)]
  let x : List Piece := [.plain 'x' (by decide)]
  let newline : List Piece := [.letter 'n' '\n' (by decide)]
  let smile : List Piece := [unit 13 8 3 13 true, unit 13 14 0 0 true]
  let keyName : List Piece := k ++ [.plain 'e' (by decide), .plain 'y' (by decide)]
  let valueName : List Piece :=
    [.plain 'v' (by decide), .plain 'a' (by decide), .plain 'l' (by decide),
      .plain 'u' (by decide), unit 0 0 6 5 false]
  let minusOne : Numeral :=
    ⟨true, ['1'], [], none, by decide, by simp, fun r h => (List.cons.inj h).2.symm, by simp⟩
  let huge : Numeral :=
    ⟨false, ['1'], [], some ⟨'e', [], ['9', '9', '9'], by decide, by decide, by decide, by simp⟩,
      by decide, by simp, fun r h => (List.cons.inj h).2.symm, by simp⟩
  let value : Tree := .object [(b, .number minusOne), (a, .string smile)]
  let first : Tree := .object [(x, .array [.string [unit 13 8 0 0 false], .number huge]),
    (valueName, value), (x, .object []), (keyName, .string k)]
  let second : Tree := .array [.string newline, .bool true]
  have hvalue : value.Spells
      (.object [("a", .string "😀"), ("b", .number (.integer (-1) (by decide)))]) := by
    refine @Tree.Spells.object
      [((b, .number minusOne), ("b", .number (.integer (-1) (by decide)))),
        ((a, .string smile), ("a", .string "😀"))] _ (by decide) ?_ (.swap ..) ?_
    · rintro m (_ | ⟨_, _ | ⟨_, hm⟩⟩)
      · exact .integer (-1) _ (by rw [Number.intText, Decimal.digits]; rfl)
      · exact .string (by decide)
      · exact absurd hm List.not_mem_nil
    · exact List.pairwise_pair.mpr (by decide)
  have hok := (parseEntries_spelled text).1 [first, second] es [' '] (by decide +kernel)
    (by simp [isBlank])
    (.cons ⟨k, value, rfl, by decide, hvalue⟩
      (.cons ⟨newline, .bool true, rfl, by decide, .bool true⟩ .nil)) (by decide)
  have hunread : ∀ (items : List Tree) (rest : List Char),
      Begins (Tree.array items).tokens "[nul]".toList rest → (∀ c ∈ rest, isBlank c = true) →
        items.mapM Tree.entryOf? = none := by
    intro items rest hs hrest
    refine Option.eq_none_iff_forall_ne_some.mpr fun es hes => ?_
    have hparse := Entry.parse_eq_ok_iff.mpr ⟨items, rest, hs, hrest, hes⟩
    have hfails : (Entry.parse "[nul]").toOption = none := by decide +kernel
    simp [hparse, Except.toOption] at hfails
  exact ⟨hok, (parseEntries_spelled text).2.2.1 es hok,
    (parseEntries_spelled _).2.1 (.array [.array [.string k]]) [] (by decide)
      (.inl fun items hitems => ⟨_, by cases hitems; exact List.mem_cons_self .., rfl⟩),
    (parseEntries_spelled _).2.2.2 hunread⟩

end Payload

end KvClient

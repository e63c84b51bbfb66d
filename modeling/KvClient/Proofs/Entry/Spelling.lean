import KvClient.Payload
import KvClient.Proofs.Json.Denotation
import KvClient.Proofs.Json.Passing

/-!
# Entries are read however they are spelled

An entry may be spelled as an object, with its two fields in any place among others, or as an array
of the two.  What a field that does not belong to an entry spells does not matter.

## How it works

* **The key and the value that a tree spells as an entry**: `Tree.parts?`.
* **An object is read field by field**: `reads_readField`, into a draft that says the same as the
  trees under the two names (`foldlM_field?`, `entryOf?_object`).
* **An array is read item by item**: `readPair_items`.
* **A tree is read as the entry that it spells**: `reads_readEntry`, and a list of them with
  anything behind it: `readList_tree`.
-/

namespace KvClient

open Json

namespace Json.Tree

/-! ## Trees that spell entries -/

/-- The members of an object by the texts of their names, if all names have one. -/
def byText? (members : List (List Piece × Tree)) : Option (List (String × Tree)) :=
  members.mapM fun m => (textOf? m.1).map (·, m.2)

/-- The trees under a name, in their order. -/
def under (name : String) (members : List (String × Tree)) : List Tree :=
  (members.filter (·.1 = name)).map (·.2)

/-- The key and the value of the entry that a tree spells: an array of a string and a value, or an
object in which each of the two fields occurs once, and the key is a string. -/
def parts? : Tree → Option (List Piece × Tree)
  | .array [.string key, value] => some (key, value)
  | .object members =>
    match (byText? members).map fun ms => (under "key" ms, under "value" ms) with
    | some ([.string key], [value]) => some (key, value)
    | _ => none
  | _ => none

/-- The entry that a tree spells, unless its value has none or is nested too deep. -/
def entryOf? (t : Tree) : Option Entry :=
  t.parts?.bind fun (key, value) =>
    (textOf? key).bind fun k => (value.within? Entry.maxValueDepth).map (⟨k, ·⟩)

/-- The entries that a tree lists. -/
def entries? : Tree → Option (List Entry)
  | .array items => items.mapM entryOf?
  | _ => none

/-- A tree spells an entry. -/
def SpellsEntry (t : Tree) (e : Entry) : Prop :=
  ∃ key value, t.parts? = some (key, value) ∧ StandsFor key e.key ∧ value.Spells e.value

theorem SpellsEntry.entryOf?_eq {t : Tree} {e : Entry} (h : t.SpellsEntry e)
    (hdepth : e.value.depth ≤ Entry.maxValueDepth) : t.entryOf? = some e := by
  obtain ⟨key, value, hparts, hkey, hvalue⟩ := h
  rw [entryOf?, hparts, Option.bind_some]
  simp only [textOf?_eq_some_iff.mpr hkey, hvalue.within?_eq hdepth, Option.bind_some,
    Option.map_some]

/-- What a string, an array or an object opens with. -/
def opener? : Tree → Option Char
  | .string _ => some '"'
  | .array _ => some '['
  | .object _ => some '\x7b'
  | _ => none

theorem opener?_of_first {t : Tree} {c : Char} {tail : List Char} {more : List Token}
    (h : t.tokens = (c :: tail) :: more) (hc : c ∈ ['"', '[', '\x7b']) : t.opener? = some c := by
  have hfirst : ∀ {c' tail' more'}, t.tokens = (c' :: tail') :: more' → c' = c := fun h' =>
    (List.cons.inj (List.cons.inj (h'.symm.trans h)).1).1
  cases t with
  | null =>
    obtain rfl := hfirst tokens.eq_1
    exact absurd hc (by decide)
  | bool b =>
    cases b with
    | true =>
      obtain rfl := hfirst tokens.eq_2
      exact absurd hc (by decide)
    | false =>
      obtain rfl := hfirst tokens.eq_3
      exact absurd hc (by decide)
  | number n =>
    obtain ⟨c', r, htext, hbegins⟩ := n.text_eq_cons
    obtain rfl : c' = c := hfirst (by rw [tokens, htext])
    have hne : ∀ x : Char, x ≠ '-' ∧ x.isDigit = false → c' ≠ x := fun _ =>
      ne_of_beginsNumber hbegins
    simp [hne '"' (by decide), hne '[' (by decide), hne '\x7b' (by decide)] at hc
  | string pieces =>
    obtain rfl := hfirst (tokens.eq_5 pieces)
    rfl
  | array items =>
    obtain rfl := hfirst (tokens_array items)
    rfl
  | object members =>
    obtain rfl := hfirst (tokens_object members)
    rfl

/-- **What a tree begins with tells whether it is a string, an array or an object.** -/
theorem opener?_of_skipBlanks {t : Tree} {s rest r : List Char} {c : Char}
    (hs : Begins t.tokens s rest) (hskip : skipBlanks s = c :: r) (hc : c ∈ ['"', '[', '\x7b']) :
    t.opener? = some c := by
  obtain ⟨c', tail, tokens, htokens, hblank, -⟩ := t.exists_tokens_eq_cons
  rw [htokens, begins_cons_iff hblank] at hs
  obtain ⟨s', hs, -⟩ := hs
  obtain ⟨rfl, -⟩ := List.cons.inj (hs.symm.trans hskip)
  exact opener?_of_first htokens hc

end Json.Tree

namespace Entry

variable {t : Tree} {s rest : List Char}

/-! ## The fields of an entry -/

theorem toOption_stopMismatch {α : Type} (expected : Expected) (s : List Char) :
    (stopMismatch expected s : Except Stop α).toOption = none := by
  cases h : (stopMismatch expected s : Except Stop α) with
  | error stop => rfl
  | ok a => exact absurd h (stopMismatch_ne_ok expected s a)

/-- The text that a tree spells as a key. -/
def keyOf? : Tree → Option String
  | .string pieces => textOf? pieces
  | _ => none

/-- A key is read as its tree says. -/
theorem reads_readKey (t : Tree) : Reads readKey t.tokens (keyOf? t) := by
  intro s rest hs _
  cases t with
  | string pieces =>
    rw [Tree.tokens.eq_5, begins_quoted_iff] at hs
    obtain ⟨s', hs, rfl⟩ := hs
    rw [readKey, hs]
    exact readText_literal pieces s'
  | _ =>
    rw [readKey]
    split
    · next h => exact absurd (Tree.opener?_of_skipBlanks hs h (by decide)) (by simp [Tree.opener?])
    · exact toOption_stopMismatch .text _

/-- What is known of a field behind one that gives it `new?`. -/
def fill? {α : Type} (old? new? : Option α) : Option (Option α) :=
  if old?.isSome then none else new?.map some

/-- What a field makes of a draft. -/
def field? (draft : Draft) (name : String) (t : Tree) : Option Draft :=
  if name = Field.key.name then (fill? draft.key? (keyOf? t)).map (⟨·, draft.value?⟩)
  else if name = Field.value.name then
    (fill? draft.value? (t.within? maxValueDepth)).map (⟨draft.key?, ·⟩)
  else some draft

theorem readColon_of_begins {tokens : List Token} (hs : Begins ([':'] :: tokens) s rest) :
    ∃ r, readColon s = .ok r ∧ Begins tokens r rest := by
  obtain ⟨r, hcolon, hr⟩ := (begins_mark_iff (by decide)).mp hs
  refine ⟨r, ?_, hr⟩
  rw [readColon, hcolon]
  rfl

/-- **A field is read as its tree says**; one that does not belong to an entry is passed over. -/
theorem reads_readField (draft : Draft) (name : String) (t : Tree) :
    Reads (readField draft name) ([':'] :: t.tokens) (field? draft name t) := by
  intro s rest hs hrest
  obtain ⟨r, hcolon, hr⟩ := readColon_of_begins hs
  by_cases hkey : name = Field.key.name
  · rw [readField, field?, if_pos hkey, if_pos hkey, readKeyField, fill?]
    by_cases hnew : draft.key?.isSome = true
    · rw [if_pos hnew, if_pos hnew]
      rfl
    · rw [if_neg hnew, if_neg hnew, Option.map_map _ some]
      refine toOption_map (reads_readKey t hr hrest) (fun key hok => ?_) (fun stop hstop => ?_)
      · simp only [hcolon, hok, Function.comp_apply]
      · simp only [hcolon, hstop]
  · rw [readField, field?, if_neg hkey, if_neg hkey]
    by_cases hvalue : name = Field.value.name
    · rw [if_pos hvalue, if_pos hvalue, readValueField, fill?]
      by_cases hnew : draft.value?.isSome = true
      · rw [if_pos hnew, if_pos hnew]
        rfl
      · rw [if_neg hnew, if_neg hnew, Option.map_map _ some]
        refine toOption_map (reads_readValue t maxValueDepth hr hrest) (fun v hok => ?_)
          (fun stop hstop => ?_)
        · simp only [hcolon, readEntryValue, hok, Function.comp_apply]
        · simp only [hcolon, readEntryValue, hstop]
    · have hpass : pass r = .ok rest := (passValue_tree t hr hrest).trans (by rw [passAfter])
      rw [if_neg hvalue, if_neg hvalue, passField]
      simp only [hcolon, hpass]
      rfl

/-! ## Entries written as objects -/

/-- What the trees for one field say: one tree what it says, several or none nothing. -/
theorem join_foldlM_fill? {α : Type} (f : Tree → Option α) (ts : List Tree) :
    (ts.foldlM (fun a? t => fill? a? (f t)) none).join =
      match ts with
      | [t] => f t
      | _ => none := by
  match ts with
  | [] => rfl
  | [t] =>
    rw [List.foldlM_cons]
    cases hf : f t with
    | none => simp only [hf]; rfl
    | some a => simp only [hf]; rfl
  | t :: t' :: ts =>
    rw [List.foldlM_cons]
    cases f t with
    | none => rfl
    | some a => rfl

theorem under_cons (name field : String) (t : Tree) (ms : List (String × Tree)) :
    Tree.under field ((name, t) :: ms) =
      if name = field then t :: Tree.under field ms else Tree.under field ms := by
  unfold Tree.under
  by_cases h : name = field
  · simp [h]
  · simp [h]

/-- **The fields make a draft of what the trees under the two names say.** -/
theorem foldlM_field? (ms : List (String × Tree)) (draft : Draft) :
    ms.foldlM (fun draft m => field? draft m.1 m.2) draft =
      ((Tree.under Field.key.name ms).foldlM
        (fun key? t => fill? key? (keyOf? t)) draft.key?).bind fun key? =>
          ((Tree.under Field.value.name ms).foldlM
            (fun value? t => fill? value? (t.within? maxValueDepth)) draft.value?).map
              (⟨key?, ·⟩) := by
  induction ms generalizing draft with
  | nil => rfl
  | cons m ms ih =>
    obtain ⟨name, t⟩ := m
    rw [List.foldlM_cons, field?, under_cons, under_cons]
    by_cases hkey : name = Field.key.name
    · have hvalue : name ≠ Field.value.name := hkey ▸ by decide
      rw [if_pos hkey, if_pos hkey, if_neg hvalue, List.foldlM_cons]
      cases fill? draft.key? (keyOf? t) with
      | none => rfl
      | some key? => exact ih ⟨key?, draft.value?⟩
    · rw [if_neg hkey, if_neg hkey]
      by_cases hvalue : name = Field.value.name
      · rw [if_pos hvalue, if_pos hvalue, List.foldlM_cons]
        cases fill? draft.value? (t.within? maxValueDepth) with
        | none => exact (Option.bind_fun_none _).symm
        | some value? => exact ih ⟨draft.key?, value?⟩
      · rw [if_neg hvalue, if_neg hvalue]
        exact ih draft

/-- The entry that a draft is, if both fields are known. -/
def Draft.complete? (draft : Draft) : Option Entry :=
  draft.key?.bind fun key => draft.value?.map (⟨key, ·⟩)

theorem foldlM_named {σ : Type} (step : σ → String → Tree → Option σ)
    (members : List (List Piece × Tree)) (state : σ) :
    members.foldlM (named step) state =
      (Tree.byText? members).bind fun ms => ms.foldlM (fun st m => step st m.1 m.2) state := by
  induction members generalizing state with
  | nil => rfl
  | cons m members ih =>
    rw [List.foldlM_cons, named, Tree.byText?, List.mapM_cons]
    cases textOf? m.1 with
    | none => rfl
    | some name =>
      simp only [ih, Option.bind_some]
      show _ = Option.bind (Option.bind (Tree.byText? members) _) _
      cases Tree.byText? members with
      | none => exact Option.bind_fun_none _
      | some ms => rfl

theorem bind_draft (key?? : Option (Option String)) (value?? : Option (Option Json)) :
    (key??.bind fun key? => value??.map (⟨key?, ·⟩)).bind Draft.complete? =
      key??.join.bind fun key => value??.join.map (⟨key, ·⟩) := by
  rcases key?? with _ | _ | key <;> rcases value?? with _ | _ | value <;> rfl

/-- **An object spells the entry that its fields make.** -/
theorem entryOf?_object (members : List (List Piece × Tree)) :
    (Tree.object members).entryOf? =
      (members.foldlM (named field?) ⟨none, none⟩).bind Draft.complete? := by
  rw [foldlM_named, Tree.entryOf?, Tree.parts?]
  cases Tree.byText? members with
  | none => rfl
  | some ms =>
    rw [Option.bind_some, foldlM_field?, bind_draft, join_foldlM_fill?, join_foldlM_fill?,
      Option.map_some]
    show Option.bind (match some (Tree.under Field.key.name ms, Tree.under Field.value.name ms) with
      | some ([.string key], [value]) => some (key, value)
      | _ => none) _ = _
    generalize Tree.under Field.key.name ms = keys
    generalize Tree.under Field.value.name ms = values
    match keys, values with
    | [], values => rfl
    | [.string pieces], [] => exact (Option.bind_fun_none _).symm
    | [.string pieces], [value] => rfl
    | [.string pieces], value :: more :: values => exact (Option.bind_fun_none _).symm
    | [.null], values | [.bool _], values | [.number _], values => rfl
    | [.array _], values | [.object _], values => rfl
    | key :: more :: keys, values => cases key <;> rfl

theorem readMembers_fields {members : List (List Piece × Tree)} (draft : Draft)
    (hs : Begins (separated (members.map Tree.tokensOfMember) ++ [['\x7d']]) s rest) :
    (readMembers (fun draft name => ⟨readField draft name, length_readField_lt⟩) draft s).toOption =
      (members.foldlM (named field?) draft).map (·, rest) :=
  readMembers_trees (fun m _ draft name => reads_readField draft name m.2) draft hs

theorem readObject_members {members : List (List Piece × Tree)}
    (hs : Begins (separated (members.map Tree.tokensOfMember) ++ [['\x7d']]) s rest) :
    (readObject s).toOption = (Tree.object members).entryOf?.map (·, rest) := by
  rw [entryOf?_object, readObject]
  obtain ⟨draft, hdraft, hread⟩ | ⟨hdraft, stop, hread⟩ :=
    ok_or_error (readMembers_fields ⟨none, none⟩ hs)
  · obtain ⟨key?, value?⟩ := draft
    simp only [hread, hdraft, Option.bind_some]
    cases key? with
    | none => rfl
    | some key =>
      cases value? with
      | none => rfl
      | some value => rfl
  · simp only [hread, hdraft]
    rfl

/-! ## Entries written as arrays -/

theorem readPairEnd_items {items : List Tree} (e : Entry)
    (hs : Begins (items.flatMap ([','] :: Tree.tokens ·) ++ [[']']]) s rest) :
    (readPairEnd e s).toOption = (if items = [] then some e else none).map (·, rest) := by
  cases items with
  | nil =>
    obtain ⟨r, hr, rfl⟩ := (begins_mark_iff (by decide)).mp hs
    rw [readPairEnd, hr]
    rfl
  | cons t items =>
    rw [List.flatMap_cons, List.append_assoc, List.cons_append, begins_mark_iff (by decide)] at hs
    obtain ⟨r, hr, -⟩ := hs
    rw [readPairEnd, hr, if_neg (List.cons_ne_nil _ _)]
    simp only
    split <;> rfl

/-- Behind the comma a value is read, unless the array ends there. -/
theorem readPairValue_of_comma {r : List Char} (key : String) (hcomma : skipBlanks s = ',' :: r)
    (hr : ∃ c r', skipBlanks r = c :: r' ∧ c ≠ ']') :
    readPairValue key s =
      match readEntryValue.read r with
      | .error stop => .error stop
      | .ok (value, rest) => readPairEnd ⟨key, value⟩ rest := by
  obtain ⟨c, r', hr, hc⟩ := hr
  rw [readPairValue, hcomma]
  simp only
  split
  · next h => simp [hr] at h
  · next h => exact absurd (List.cons.inj (hr.symm.trans h)).1 hc
  · rfl

theorem readPairValue_items {items : List Tree} (key : String)
    (hs : Begins (items.flatMap ([','] :: Tree.tokens ·) ++ [[']']]) s rest) :
    (readPairValue key s).toOption =
      Option.map (·, rest) (match items with
        | [value] => (value.within? maxValueDepth).map (⟨key, ·⟩)
        | _ => none) := by
  cases items with
  | nil =>
    obtain ⟨r, hr, rfl⟩ := (begins_mark_iff (by decide)).mp hs
    rw [readPairValue, hr]
    rfl
  | cons value items =>
    rw [List.flatMap_cons, List.append_assoc, List.cons_append, begins_mark_iff (by decide)] at hs
    obtain ⟨r, hcomma, hr⟩ := hs
    obtain ⟨m, hvalue, hmore⟩ := begins_append.mp hr
    rw [readPairValue_of_comma key hcomma hvalue.skipBlanks_tree]
    obtain ⟨v, hv, hread⟩ | ⟨hv, stop, hread⟩ := ok_or_error
      (reads_readValue value maxValueDepth hvalue (endsNumber_of_more hmore (by decide)))
    · simp only [readEntryValue, hread, readPairEnd_items _ hmore]
      cases items with
      | nil => simp only [hv]; rfl
      | cons t items => rfl
    · simp only [readEntryValue, hread]
      cases items with
      | nil => simp only [hv]; rfl
      | cons t items => rfl

/-- **An array spells the entry that its two items make.** -/
theorem entryOf?_array (key : Tree) (items : List Tree) :
    (Tree.array (key :: items)).entryOf? =
      (keyOf? key).bind fun k =>
        match items with
        | [value] => (value.within? maxValueDepth).map (⟨k, ·⟩)
        | _ => none := by
  match items with
  | [] =>
    have hparts : (Tree.array [key]).parts? = none := by cases key <;> rfl
    rw [Tree.entryOf?, hparts]
    exact (Option.bind_fun_none _).symm
  | [value] => cases key <;> rfl
  | value :: more :: items =>
    have hparts : (Tree.array (key :: value :: more :: items)).parts? = none := by
      cases key <;> rfl
    rw [Tree.entryOf?, hparts]
    exact (Option.bind_fun_none _).symm

/-- What does not end an array at once is read as its first item. -/
theorem readPair_of_ne (hs : ∃ c r, skipBlanks s = c :: r ∧ c ≠ ']') :
    readPair s =
      match readKey s with
      | .error stop => .error stop
      | .ok (key, rest) => readPairValue key rest := by
  obtain ⟨c, r, hs, hc⟩ := hs
  rw [readPair]
  split
  · next h => simp [hs] at h
  · next h => exact absurd (List.cons.inj (hs.symm.trans h)).1 hc
  · rfl

theorem readPair_items {items : List Tree}
    (hs : Begins (separated (items.map Tree.tokens) ++ [[']']]) s rest) :
    (readPair s).toOption = (Tree.array items).entryOf?.map (·, rest) := by
  cases items with
  | nil =>
    obtain ⟨r, hr, rfl⟩ := (begins_mark_iff (by decide)).mp hs
    rw [readPair, hr]
    rfl
  | cons key items =>
    rw [List.map_cons, separated, List.append_assoc, List.flatMap_map] at hs
    obtain ⟨m, hkey, hmore⟩ := begins_append.mp hs
    rw [readPair_of_ne hkey.skipBlanks_tree]
    rw [entryOf?_array]
    obtain ⟨k, hk, hread⟩ | ⟨hk, stop, hread⟩ := ok_or_error
      (reads_readKey key hkey (endsNumber_of_more hmore (by decide)))
    · simp only [hread, readPairValue_items k hmore, hk, Option.bind_some]
    · simp only [hread, hk]
      rfl

/-! ## Entries and documents -/

/-- **A tree is read as the entry that it spells.** -/
theorem reads_readEntry (t : Tree) : Reads readEntry t.tokens t.entryOf? := by
  intro s rest hs _
  cases t with
  | array items =>
    rw [Tree.tokens_array, begins_mark_iff (by decide)] at hs
    obtain ⟨r, hs, hr⟩ := hs
    rw [readEntry, hs]
    exact readPair_items hr
  | object members =>
    rw [Tree.tokens_object, begins_mark_iff (by decide)] at hs
    obtain ⟨r, hs, hr⟩ := hs
    rw [readEntry, hs]
    exact readObject_members hr
  | _ =>
    rw [readEntry]
    split
    · next h => exact absurd (Tree.opener?_of_skipBlanks hs h (by decide)) (by simp [Tree.opener?])
    · next h => exact absurd (Tree.opener?_of_skipBlanks hs h (by decide)) (by simp [Tree.opener?])
    · exact toOption_stopMismatch .entry _

/-- **A tree is read as the entries that it lists**, whatever stands behind it. -/
theorem readList_tree {t : Tree} (hs : Begins t.tokens s rest) :
    (readList s).toOption = t.entries?.map (·, rest) := by
  cases t with
  | array items =>
    rw [Tree.tokens_array, begins_mark_iff (by decide)] at hs
    obtain ⟨r, hs, hr⟩ := hs
    rw [readList, hs]
    exact readItems_trees (fun t _ => reads_readEntry t) hr
  | _ =>
    rw [readList]
    split
    · next h => exact absurd (Tree.opener?_of_skipBlanks hs h (by decide)) (by simp [Tree.opener?])
    · exact toOption_stopMismatch .list _

end Entry

end KvClient

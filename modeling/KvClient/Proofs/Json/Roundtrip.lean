import KvClient.Proofs.Json.Scalars

/-!
# Values are read back

What is written for a value is read as that value, unless it is nested too deep; then it is refused
for that reason, and for no other.  Floating-point numbers are left out, since reading rounds them
in its own way.

## How it works

* **A reader takes what is written for a value, or finds it too deep**: `Takes`, for any text
  behind it that does not go on with a number.
* **Loops**: if each item is taken so, a list of items is (`gives_readItems`), and so are the
  members of an object (`gives_readMembers`).
* **Values**: `takes_readValue`.
-/

namespace KvClient.Json

/-! ## Values without floating-point numbers -/

/-- A value whose numbers are integers, and whose objects are sorted by name. -/
inductive Exact : Json → Prop
  | null : Exact .null
  | bool (b : Bool) : Exact (.bool b)
  | integer (n : Int) (fits : FitsInteger n) : Exact (.number (.integer n fits))
  | string (s : String) : Exact (.string s)
  | array {items : List Json} (each : ∀ v ∈ items, Exact v) : Exact (.array items)
  | object {members : List (String × Json)} (sorted : Assoc.Sorted members)
      (each : ∀ m ∈ members, Exact m.2) : Exact (.object members)

/-- An empty array inside of `n` others. -/
def nested : Nat → Json
  | 0 => .array []
  | n + 1 => .array [nested n]

theorem exact_nested (n : Nat) : Exact (nested n) := by
  induction n with
  | zero => exact .array (by simp)
  | succ n ih => exact .array (List.forall_mem_singleton.mpr ih)

theorem depth_nested (n : Nat) : (nested n).depth = n + 1 := by
  induction n with
  | zero => rfl
  | succ n ih => rw [nested, depth, depthItems, depthItems, ih, Nat.max_zero]

theorem depthItems_le_iff {items : List Json} {d : Nat} :
    depthItems items ≤ d ↔ ∀ v ∈ items, v.depth ≤ d := by
  induction items with
  | nil => simp [depthItems]
  | cons v rest ih => rw [depthItems, Nat.max_le, ih, List.forall_mem_cons]

theorem depthMembers_le_iff {members : List (String × Json)} {d : Nat} :
    depthMembers members ≤ d ↔ ∀ m ∈ members, m.2.depth ≤ d := by
  induction members with
  | nil => simp [depthMembers]
  | cons m rest ih => rw [depthMembers, Nat.max_le, ih, List.forall_mem_cons]

/-! ## Taking what is written -/

/-- A reading gives `a` and leaves `rest` if `fits`, and otherwise stops because the text is nested
too deep. -/
structure Gives {α : Type} (reading : Reading α) (a : α) (rest : List Char) (fits : Prop) :
    Prop where
  ok : fits → reading = .ok (a, rest)
  tooDeep : ¬fits → ∃ unread, reading = .error ⟨.tooDeep, unread⟩

/-- What is written for `a` is taken off the front of a text. -/
structure Takes {α : Type} (read : List Char → Reading α) (written : List Char) (a : α)
    (fits : Prop) : Prop where
  opens : ∃ c r, written = c :: r ∧ isBlank c = false ∧ c ≠ ']'
  gives : ∀ {rest}, EndsNumber rest → Gives (read (written ++ rest)) a rest fits

section

variable {α β : Type} {reading : Reading α} {a : α} {b : β} {rest rest' : List Char}
  {fits fits' : Prop}

theorem Gives.of_ok (h : reading = .ok (a, rest)) (hfits : fits) : Gives reading a rest fits :=
  ⟨fun _ => h, fun hnot => absurd hfits hnot⟩

/-- A reading that gives its own value when another one gives its, and stops when that one stops. -/
theorem Gives.through {reading' : Reading β} (h : Gives reading a rest fits)
    (hok : reading = .ok (a, rest) → reading' = .ok (b, rest'))
    (hstop : ∀ stop, reading = .error stop → reading' = .error stop) :
    Gives reading' b rest' fits where
  ok hfits := hok (h.ok hfits)
  tooDeep hdeep := by
    obtain ⟨unread, hunread⟩ := h.tooDeep hdeep
    exact ⟨unread, hstop _ hunread⟩

/-- A reading goes on with another one. -/
theorem Gives.bind {next : α → List Char → Reading β} (h : Gives reading a rest fits)
    (hnext : Gives (next a rest) b rest' fits') :
    Gives (match reading with
      | .error stop => .error stop
      | .ok (a, rest) => next a rest) b rest' (fits ∧ fits') where
  ok := by
    rintro ⟨hfits, hfits'⟩
    rw [h.ok hfits]
    exact hnext.ok hfits'
  tooDeep := by
    intro hnot
    by_cases hfits : fits
    · rw [h.ok hfits]
      exact hnext.tooDeep fun hfits' => hnot ⟨hfits, hfits'⟩
    · obtain ⟨unread, hstop⟩ := h.tooDeep hfits
      exact ⟨unread, by rw [hstop]⟩

end

@[simp] theorem skipBlanks_cons {c : Char} (h : isBlank c = false) (s : List Char) :
    skipBlanks (c :: s) = c :: s := by
  simp [skipBlanks, h]

/-! ## Lists -/

/-- What is written for the items of a list, with commas between them. -/
def joined {α : Type} (write : α → List Char) : List α → List Char
  | [] => []
  | a :: rest => write a ++ rest.flatMap (',' :: write ·)

theorem printItems_eq_joined (items : List Json) : printItems items = joined print items := by
  induction items with
  | nil => rw [printItems, joined]
  | cons v rest ih =>
    cases rest with
    | nil => simp [printItems, joined]
    | cons w rest =>
      rw [printItems, ih]
      · simp [joined]
      · simp

theorem endsNumber_bracket (rest : List Char) : EndsNumber (']' :: rest) :=
  endsNumber_cons (by decide)

theorem endsNumber_brace (rest : List Char) : EndsNumber ('\x7d' :: rest) :=
  endsNumber_cons (by decide)

/-- Behind an item stands a comma, or what ends the list. -/
theorem endsNumber_more {α : Type} (write : α → List Char) (items : List α) {close : List Char}
    (hclose : EndsNumber close) : EndsNumber (items.flatMap (',' :: write ·) ++ close) := by
  cases items with
  | nil => exact hclose
  | cons a items => exact endsNumber_cons (by decide)

section

variable {α : Type} {item : Reader α} {write : α → List Char} {fits : α → Prop} {items : List α}

theorem readMoreItems_of_bracket (item : Reader α) (done : List α) {s rest : List Char}
    (hs : skipBlanks s = ']' :: rest) : readMoreItems item done s = .ok (done.reverse, rest) := by
  rw [readMoreItems]
  split
  · next h => simp [hs] at h
  · next r h =>
    obtain rfl : rest = r := by simpa [hs] using h
    rfl
  · next h => simp [hs] at h
  · next hclose _ => exact (hclose rest hs).elim

/-- Behind a comma the next item is read. -/
theorem readMoreItems_of_comma {s r : List Char} (done : List α) (hcomma : skipBlanks s = ',' :: r)
    (hr : ∃ c r', skipBlanks r = c :: r' ∧ c ≠ ']') :
    readMoreItems item done s =
      match item.read r with
      | .error stop => .error stop
      | .ok (a, rest) => readMoreItems item (a :: done) rest := by
  obtain ⟨c, r', hr, hc⟩ := hr
  rw [readMoreItems]
  -- Behind the comma there is something, and it does not end the list.
  split
  · next h => simp [hcomma] at h
  · next h => simp [hcomma] at h
  · next s' h =>
    obtain rfl : r = s' := by simpa [hcomma] using h
    split
    · next h => simp [hr] at h
    · next h => exact absurd (List.cons.inj (hr.symm.trans h)).1 hc
    · split
      · next stop hstop => rw [hstop]
      · next a rest hok => rw [hok]
  · next hmore => exact (hmore r hcomma).elim

theorem readMoreItems_end (item : Reader α) (done : List α) (rest : List Char) :
    readMoreItems item done (']' :: rest) = .ok (done.reverse, rest) :=
  readMoreItems_of_bracket item done (skipBlanks_cons (by decide) rest)

theorem readMoreItems_comma {s : List Char} (done : List α)
    (hs : ∃ c r, skipBlanks s = c :: r ∧ c ≠ ']') :
    readMoreItems item done (',' :: s) =
      match item.read s with
      | .error stop => .error stop
      | .ok (a, rest) => readMoreItems item (a :: done) rest :=
  readMoreItems_of_comma done (skipBlanks_cons (by decide) s) hs

/-- What does not end a list at once is read as an item. -/
theorem readItems_item {s : List Char} (hs : ∃ c r, skipBlanks s = c :: r ∧ c ≠ ']') :
    readItems item s =
      match item.read s with
      | .error stop => .error stop
      | .ok (a, rest) => readMoreItems item [a] rest := by
  obtain ⟨c, r, hs, hc⟩ := hs
  rw [readItems]
  split
  · next h => simp [hs] at h
  · next h => exact absurd (List.cons.inj (hs.symm.trans h)).1 hc
  · rfl

/-- What is written for an item is no end of a list. -/
theorem Takes.skipBlanks_append {read : List Char → Reading α} {written : List Char} {a : α}
    {p : Prop} (h : Takes read written a p) (s : List Char) :
    ∃ c r, skipBlanks (written ++ s) = c :: r ∧ c ≠ ']' := by
  obtain ⟨c, r, rfl, hblank, hclose⟩ := h.opens
  exact ⟨c, r ++ s, skipBlanks_cons hblank _, hclose⟩

theorem gives_readMoreItems (h : ∀ a ∈ items, Takes item.read (write a) a (fits a))
    (done : List α) (rest : List Char) :
    Gives (readMoreItems item done (items.flatMap (',' :: write ·) ++ ']' :: rest))
      (done.reverse ++ items) rest (∀ a ∈ items, fits a) := by
  induction items generalizing done with
  | nil =>
    rw [List.append_nil]
    exact .of_ok (readMoreItems_end item done rest) (by simp)
  | cons a items ih =>
    obtain ⟨ha, hitems⟩ := List.forall_mem_cons.mp h
    have hmore := ih hitems (a :: done)
    rw [List.reverse_cons, List.append_assoc] at hmore
    have hends := endsNumber_more write items (endsNumber_bracket rest)
    rw [List.flatMap_cons, List.cons_append, List.cons_append, List.append_assoc,
      readMoreItems_comma done (ha.skipBlanks_append _), List.forall_mem_cons]
    exact (ha.gives hends).bind hmore

/-- **If each item is taken, a list of items is.** -/
theorem gives_readItems (h : ∀ a ∈ items, Takes item.read (write a) a (fits a))
    (rest : List Char) :
    Gives (readItems item (joined write items ++ ']' :: rest)) items rest
      (∀ a ∈ items, fits a) := by
  cases items with
  | nil =>
    refine .of_ok ?_ (by simp)
    rw [joined, List.nil_append, readItems, skipBlanks_cons (by decide)]
    rfl
  | cons a items =>
    obtain ⟨ha, hitems⟩ := List.forall_mem_cons.mp h
    have hends := endsNumber_more write items (endsNumber_bracket rest)
    rw [joined, List.append_assoc, readItems_item (ha.skipBlanks_append _), List.forall_mem_cons]
    exact (ha.gives hends).bind (gives_readMoreItems hitems [a] rest)

end

/-! ## Objects -/

/-- What is written for a member of an object. -/
def printMember (m : String × Json) : List Char := quote m.1 ++ ':' :: print m.2

theorem printMembers_eq_joined (members : List (String × Json)) :
    printMembers members = joined printMember members := by
  induction members with
  | nil => rw [printMembers, joined]
  | cons m rest ih =>
    obtain ⟨k, v⟩ := m
    cases rest with
    | nil => simp [printMembers, joined, printMember]
    | cons w rest =>
      rw [printMembers, ih]
      · simp [joined, printMember]
      · simp

theorem readColon_colon (rest : List Char) : readColon (':' :: rest) = .ok rest := by
  rw [readColon, skipBlanks_cons (by decide)]
  rfl

section

variable {σ : Type} {member : σ → String → Reader σ} {state : σ}

theorem readMember_quote (member : σ → String → Reader σ) (state : σ) (name : String)
    (rest : List Char) :
    readMember member state (name.toList.flatMap escape ++ '"' :: rest) =
      (member state name).read rest := by
  rw [readMember, readText_quote]

theorem readMoreMembers_of_brace (member : σ → String → Reader σ) (state : σ) {s rest : List Char}
    (hs : skipBlanks s = '\x7d' :: rest) : readMoreMembers member state s = .ok (state, rest) := by
  rw [readMoreMembers]
  split
  · next h => simp [hs] at h
  · next r h =>
    obtain rfl : rest = r := by simpa [hs] using h
    rfl
  · next h => simp [hs] at h
  · next hclose _ => exact (hclose rest hs).elim

/-- Behind a comma the next member is read. -/
theorem readMoreMembers_of_comma (member : σ → String → Reader σ) (state : σ)
    {s r r' : List Char} (hcomma : skipBlanks s = ',' :: r) (hquote : skipBlanks r = '"' :: r') :
    readMoreMembers member state s =
      match readMember member state r' with
      | .error stop => .error stop
      | .ok (state', rest) => readMoreMembers member state' rest := by
  rw [readMoreMembers]
  -- Behind the comma there is a quote, so that a name is read.
  split
  · next h => simp [hcomma] at h
  · next h => simp [hcomma] at h
  · next s' h =>
    obtain rfl : r = s' := by simpa [hcomma] using h
    split
    · next h => simp [hquote] at h
    · next h => simp [hquote] at h
    · next r'' h =>
      obtain rfl : r' = r'' := by simpa [hquote] using h
      split
      · next stop hstop => rw [hstop]
      · next state' rest hok => rw [hok]
    · next hname => exact (hname _ hquote).elim
  · next hmore => exact (hmore _ hcomma).elim

theorem readMembers_of_quote (member : σ → String → Reader σ) (state : σ) {s r : List Char}
    (hs : skipBlanks s = '"' :: r) :
    readMembers member state s =
      match readMember member state r with
      | .error stop => .error stop
      | .ok (state', rest) => readMoreMembers member state' rest := by
  rw [readMembers, hs]
  rfl

theorem skipBlanks_quote (name : String) (rest : List Char) :
    skipBlanks (quote name ++ rest) = '"' :: (name.toList.flatMap escape ++ '"' :: rest) := by
  rw [quote_append]
  exact skipBlanks_cons (by decide) _

theorem readMoreMembers_end (member : σ → String → Reader σ) (state : σ) (rest : List Char) :
    readMoreMembers member state ('\x7d' :: rest) = .ok (state, rest) :=
  readMoreMembers_of_brace member state (skipBlanks_cons (by decide) rest)

theorem readMoreMembers_comma (member : σ → String → Reader σ) (state : σ) (name : String)
    (rest : List Char) :
    readMoreMembers member state (',' :: (quote name ++ rest)) =
      match (member state name).read rest with
      | .error stop => .error stop
      | .ok (state', rest') => readMoreMembers member state' rest' := by
  rw [readMoreMembers_of_comma member state (skipBlanks_cons (by decide) _)
    (skipBlanks_quote name rest), readMember_quote]

theorem readMembers_quote (member : σ → String → Reader σ) (state : σ) (name : String)
    (rest : List Char) :
    readMembers member state (quote name ++ rest) =
      match (member state name).read rest with
      | .error stop => .error stop
      | .ok (state', rest') => readMoreMembers member state' rest' := by
  rw [readMembers_of_quote member state (skipBlanks_quote name rest), readMember_quote]

end

section

variable {value : Reader Json} {fits : Json → Prop} {members : List (String × Json)}

/-- A member of an ordinary object is put into its table. -/
theorem gives_tableMember {m : String × Json}
    (h : Takes value.read (print m.2) m.2 (fits m.2)) (table : Assoc Json) {rest : List Char}
    (hends : EndsNumber rest) :
    Gives ((tableMember value table m.1).read (':' :: (print m.2 ++ rest)))
      (table.insert m.1 m.2) rest (fits m.2) := by
  refine (h.gives hends).through (fun hok => ?_) (fun stop hstop => ?_)
  · simp only [tableMember, readColon_colon, hok]
  · simp only [tableMember, readColon_colon, hstop]

theorem gives_readMoreMembers (h : ∀ m ∈ members, Takes value.read (print m.2) m.2 (fits m.2))
    (table : Assoc Json) (rest : List Char) :
    Gives (readMoreMembers (tableMember value) table
        (members.flatMap (',' :: printMember ·) ++ '\x7d' :: rest))
      (members.foldl (fun t m => t.insert m.1 m.2) table) rest (∀ m ∈ members, fits m.2) := by
  induction members generalizing table with
  | nil => exact .of_ok (readMoreMembers_end _ table rest) (by simp)
  | cons m members ih =>
    obtain ⟨hm, hmembers⟩ := List.forall_mem_cons.mp h
    have hends := endsNumber_more printMember members (endsNumber_brace rest)
    rw [List.flatMap_cons, List.cons_append, List.cons_append, List.append_assoc, printMember,
      List.append_assoc, List.cons_append, readMoreMembers_comma, List.forall_mem_cons]
    exact (gives_tableMember hm table hends).bind (ih hmembers _)

/-- **If the value of each member is taken, the members of an object are**, and make the table of
these members. -/
theorem gives_readMembers (h : ∀ m ∈ members, Takes value.read (print m.2) m.2 (fits m.2))
    (rest : List Char) :
    Gives (readMembers (tableMember value) [] (joined printMember members ++ '\x7d' :: rest))
      (Assoc.ofPairs members) rest (∀ m ∈ members, fits m.2) := by
  cases members with
  | nil =>
    refine .of_ok ?_ (by simp)
    rw [joined, List.nil_append, readMembers, skipBlanks_cons (by decide)]
    rfl
  | cons m members =>
    obtain ⟨hm, hmembers⟩ := List.forall_mem_cons.mp h
    have hends := endsNumber_more printMember members (endsNumber_brace rest)
    rw [joined, List.append_assoc, printMember, List.append_assoc, List.cons_append,
      readMembers_quote, List.forall_mem_cons]
    exact (gives_tableMember hm [] hends).bind (gives_readMoreMembers hmembers _ rest)

end

/-! ## Values -/

/-- A value that is no container is taken at every depth. -/
theorem takes_scalar {v : Json} {c : Char} {r : List Char} (hprint : print v = c :: r)
    (hopens : isBlank c = false ∧ c ≠ ']' ∧ c ≠ '[' ∧ c ≠ '\x7b')
    (hread : ∀ {rest}, EndsNumber rest → readScalar (print v ++ rest) = .ok (v, rest))
    (hdepth : v.depth = 0) (d : Nat) : Takes (readValue d).read (print v) v (v.depth ≤ d) := by
  obtain ⟨hblank, hclose, hbracket, hbrace⟩ := hopens
  refine ⟨⟨c, r, hprint, hblank, hclose⟩, fun {rest} hends => ?_⟩
  have hnode : ∀ inner?, readNode inner? (print v ++ rest) = .ok (v, rest) := by
    intro inner?
    rw [← hread hends, hprint, List.cons_append, readNode, skipBlanks_cons hblank]
    split
    · next r' h => exact absurd (List.cons.inj h).1 hbracket
    · next r' h => exact absurd (List.cons.inj h).1 hbrace
    · rfl
  refine .of_ok ?_ (by omega)
  cases d with
  | zero => exact hnode none
  | succ d => exact hnode (some (readValue d))

/-- A container is taken if what stands inside it is, and it may be entered. -/
theorem takes_container {v : Json} {opener closer : Char} {body : List Char}
    (hprint : print v = opener :: (body ++ [closer]))
    (hopens : isBlank opener = false ∧ opener ≠ ']') (hdepth : 0 < v.depth)
    (hnone : ∀ r, readNode none (opener :: r) = stopAt (opener :: r) .tooDeep)
    (hsome : ∀ d rest, Gives (readNode (some (readValue d)) (opener :: (body ++ closer :: rest))) v
      rest (v.depth ≤ d + 1)) (d : Nat) :
    Takes (readValue d).read (print v) v (v.depth ≤ d) := by
  refine ⟨⟨opener, body ++ [closer], hprint, hopens⟩, fun {rest} _ => ?_⟩
  have htext : print v ++ rest = opener :: (body ++ closer :: rest) := by
    rw [hprint]
    simp
  rw [htext]
  cases d with
  -- No container may be entered here, and this is one.
  | zero => exact ⟨fun hfits => absurd hfits (by omega), fun _ => ⟨_, hnone _⟩⟩
  | succ d => exact hsome d rest

/-- What an array is made of, read behind its bracket. -/
theorem gives_array {items : List Json} {inner : Reader Json} {fits : Prop} {s rest : List Char}
    (h : Gives (readItems inner s) items rest fits) :
    Gives (readNode (some inner) ('[' :: s)) (.array items) rest fits := by
  rw [readNode, skipBlanks_cons (by decide)]
  refine h.through (fun hok => ?_) (fun stop hstop => ?_)
  · simp only [hok]
  · simp only [hstop]

/-- What an object is made of, read behind its brace. -/
theorem gives_object {members : Assoc Json} {inner : Reader Json} {fits : Prop}
    {s rest : List Char} (h : Gives (readMembers (tableMember inner) [] s) members rest fits) :
    Gives (readNode (some inner) ('\x7b' :: s)) (.object members) rest fits := by
  rw [readNode, skipBlanks_cons (by decide)]
  refine h.through (fun hok => ?_) (fun stop hstop => ?_)
  · simp only [hok]
  · simp only [hstop]

/-- **What is written for a value is read as that value**, unless it is nested too deep. -/
theorem takes_readValue {v : Json} (hv : Exact v) (d : Nat) :
    Takes (readValue d).read (print v) v (v.depth ≤ d) := by
  induction hv generalizing d with
  | null => exact takes_scalar rfl (by decide) (fun _ => readScalar_null _) rfl d
  | bool b =>
    cases b with
    | true => exact takes_scalar rfl (by decide) (fun _ => readScalar_bool true _) rfl d
    | false => exact takes_scalar rfl (by decide) (fun _ => readScalar_bool false _) rfl d
  | integer n fits =>
    obtain ⟨c, r, htext, hc⟩ := intText_eq_cons n
    have hprint : print (.number (.integer n fits)) = c :: r := htext
    -- The first character is a digit or a sign: no blank, and nothing that opens a container.
    have hne : ∀ x : Char, x ≠ '-' ∧ x.isDigit = false → c ≠ x := fun _ =>
      ne_of_beginsNumber hc
    have hopens : isBlank c = false ∧ c ≠ ']' ∧ c ≠ '[' ∧ c ≠ '\x7b' :=
      ⟨isBlank_of_beginsNumber hc, hne _ (by decide), hne _ (by decide), hne _ (by decide)⟩
    exact takes_scalar hprint hopens (fun hends => readScalar_intText n fits hends) rfl d
  | string s => exact takes_scalar rfl (by decide) (fun _ => readScalar_quote s _) rfl d
  | @array items each ih =>
    have hprint : print (.array items) = '[' :: (joined print items ++ [']']) := by
      rw [print, printItems_eq_joined]
    refine takes_container hprint (by decide) (Nat.succ_pos _) (fun r => ?_) (fun d rest => ?_) d
    · rw [readNode, skipBlanks_cons (by decide)]
      rfl
    · rw [depth, Nat.add_le_add_iff_right, depthItems_le_iff]
      exact gives_array (gives_readItems (fun v hv => ih v hv d) rest)
  | @object members sorted each ih =>
    have hprint : print (.object members) =
        '\x7b' :: (joined printMember members ++ ['\x7d']) := by
      rw [print, printMembers_eq_joined]
    refine takes_container hprint (by decide) (Nat.succ_pos _) (fun r => ?_) (fun d rest => ?_) d
    · rw [readNode, skipBlanks_cons (by decide)]
      rfl
    · -- The table of members that are sorted is the list of them.
      have hmembers := @gives_readMembers (readValue d) (·.depth ≤ d) members
        (fun m hm => ih m hm d) rest
      rw [Assoc.ofPairs_eq_self sorted] at hmembers
      rw [depth, Nat.add_le_add_iff_right, depthMembers_le_iff]
      exact gives_object hmembers

end KvClient.Json

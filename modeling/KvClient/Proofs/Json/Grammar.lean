import KvClient.Json.Value

/-!
# The grammar of JSON

A text is a sequence of tokens, with blanks in front of any of them.  Here is said which sequences
spell a value, and which value that is, apart from any way of reading them.

## How it works

* **A string literal is spelled piece by piece**: `Piece`.  The pieces stand for UTF-16 units, and
  the literal for the text that has these units (`textOf?_eq_some_iff`).
* **A value is spelled as a tree**: `Tree`, which has its `tokens`, its `depth` and its value,
  unless a surrogate is alone or a number too large (`Tree.value?`).
* **Where blanks may stand**: `Begins`, which can be computed (`decidableBegins`).
-/

namespace KvClient.Json

/-! ## UTF-16 -/

/-- The UTF-16 units of a character. -/
def utf16 (c : Char) : List Nat :=
  if c.toNat < 0x10000 then [c.toNat]
  else [0xD800 + (c.toNat - 0x10000) / 0x400, 0xDC00 + (c.toNat - 0x10000) % 0x400]

/-- The characters of UTF-16 units.  There are none if a surrogate is not part of a pair. -/
def ofUnits? : List Nat → Option (List Char)
  | [] => some []
  | n :: rest =>
    if isTrailing n then none
    else if isLeading n then
      match rest with
      | [] => none
      | m :: rest' =>
        if isTrailing m then (ofUnits? rest').map (Char.ofNat (pairValue n m) :: ·) else none
    else (ofUnits? rest).map (Char.ofNat n :: ·)

/-- A unit that is no surrogate is a character by itself. -/
theorem utf16_ofNat {n : Nat} (hn : n < 0x10000) (htrailing : ¬isTrailing n = true)
    (hleading : ¬isLeading n = true) : utf16 (Char.ofNat n) = [n] := by
  simp only [isTrailing, isLeading, Bool.and_eq_true, decide_eq_true_eq, not_and, Nat.not_le]
    at htrailing hleading
  have h := @Utf8.toNat_ofNat n (by omega)
  rw [utf16, h, if_pos hn]

theorem utf16_pairValue {n m : Nat} (hn : isLeading n = true) (hm : isTrailing m = true) :
    utf16 (Char.ofNat (pairValue n m)) = [n, m] := by
  simp only [isTrailing, isLeading, Bool.and_eq_true, decide_eq_true_eq] at hn hm
  have h := @Utf8.toNat_ofNat (pairValue n m) (by unfold pairValue; omega)
  rw [utf16, h, pairValue, if_neg (by omega)]
  simp only [List.cons.injEq, and_true]
  omega

theorem ofUnits?_single {n : Nat} (htrailing : isTrailing n = false)
    (hleading : isLeading n = false) (us : List Nat) :
    ofUnits? (n :: us) = (ofUnits? us).map (Char.ofNat n :: ·) := by
  rw [ofUnits?.eq_def]
  simp [htrailing, hleading]

theorem ofUnits?_trailing {n : Nat} (h : isTrailing n = true) (us : List Nat) :
    ofUnits? (n :: us) = none := by
  rw [ofUnits?.eq_def]
  exact if_pos h

theorem isTrailing_of_isLeading {n : Nat} (h : isLeading n = true) : isTrailing n = false := by
  simp only [isLeading, Bool.and_eq_true, decide_eq_true_eq] at h
  simp [isTrailing]
  omega

theorem ofUnits?_leading {n : Nat} (h : isLeading n = true) (us : List Nat) :
    ofUnits? (n :: us) =
      match us with
      | [] => none
      | m :: rest =>
        if isTrailing m then (ofUnits? rest).map (Char.ofNat (pairValue n m) :: ·) else none := by
  rw [ofUnits?.eq_def]
  simp [h, isTrailing_of_isLeading h]

/-- The units of a character are read as that character. -/
theorem ofUnits?_utf16 (c : Char) (us : List Nat) :
    ofUnits? (utf16 c ++ us) = (ofUnits? us).map (c :: ·) := by
  have hc := Utf8.toNat_cases c
  unfold utf16
  split
  · next h =>
    have htrailing : isTrailing c.toNat = false := by
      simp [isTrailing]
      omega
    have hleading : isLeading c.toNat = false := by
      simp [isLeading]
      omega
    rw [List.singleton_append, ofUnits?_single htrailing hleading, Char.ofNat_toNat]
  · next h =>
    have hleading : isLeading (0xD800 + (c.toNat - 0x10000) / 0x400) = true := by
      simp [isLeading]
      omega
    have htrailing : isTrailing (0xDC00 + (c.toNat - 0x10000) % 0x400) = true := by
      simp [isTrailing]
      omega
    have hpair : pairValue (0xD800 + (c.toNat - 0x10000) / 0x400)
        (0xDC00 + (c.toNat - 0x10000) % 0x400) = c.toNat := by
      unfold pairValue
      omega
    rw [List.cons_append, List.singleton_append, ofUnits?_leading hleading]
    simp only [htrailing, hpair, Char.ofNat_toNat, if_true]

theorem flatMap_utf16_of_ofUnits? {us : List Nat} {cs : List Char} (hus : ∀ n ∈ us, n < 0x10000)
    (h : ofUnits? us = some cs) : cs.flatMap utf16 = us := by
  fun_induction ofUnits? us generalizing cs with
  | case1 =>
    obtain rfl : [] = cs := by simpa using h
    rfl
  | case2 => simp at h
  | case3 => simp at h
  | case4 n hn hl m rest hm ih =>
    obtain ⟨cs, hcs, rfl⟩ := Option.map_eq_some_iff.mp h
    simp only [List.forall_mem_cons] at hus
    rw [List.flatMap_cons, ih hus.2.2 hcs, utf16_pairValue hl hm]
    rfl
  | case5 => simp at h
  | case6 n rest hn hl ih =>
    obtain ⟨cs, hcs, rfl⟩ := Option.map_eq_some_iff.mp h
    simp only [List.forall_mem_cons] at hus
    rw [List.flatMap_cons, ih hus.2 hcs, utf16_ofNat hus.1 hn hl]
    rfl

theorem ofUnits?_flatMap (cs : List Char) : ofUnits? (cs.flatMap utf16) = some cs := by
  induction cs with
  | nil => rfl
  | cons c cs ih => rw [List.flatMap_cons, ofUnits?_utf16, ih, Option.map_some]

/-! ## String literals -/

/-- The letters that may stand behind a backslash, and what they stand for. -/
def letters : List (Char × Char) :=
  [('"', '"'), ('\\', '\\'), ('/', '/'), ('b', '\x08'), ('f', '\x0c'), ('n', '\n'), ('r', '\r'),
    ('t', '\t')]

/-- A hexadecimal digit, in either case. -/
structure HexDigit where
  value : Fin 16
  upper : Bool

/-- How a hexadecimal digit is written. -/
def HexDigit.char (d : HexDigit) : Char :=
  if d.upper then (Nat.digitChar d.value).toUpper else Nat.digitChar d.value

/-- The UTF-16 unit that four hexadecimal digits make. -/
def unitValue (a b c d : HexDigit) : Nat :=
  ((a.value * 16 + b.value) * 16 + c.value) * 16 + d.value

/-- What a string literal is made of. -/
inductive Piece
  /-- A character as it is. -/
  | plain (c : Char) (itself : c ≠ '"' ∧ c ≠ '\\' ∧ ¬isControl c = true)
  /-- A backslash and a letter. -/
  | letter (l c : Char) (known : (l, c) ∈ letters)
  /-- A backslash, the letter `u` and the digits of a UTF-16 unit. -/
  | unit (a b c d : HexDigit)

namespace Piece

/-- How a piece is written. -/
def text : Piece → List Char
  | plain c _ => [c]
  | letter l _ _ => ['\\', l]
  | unit a b c d => ['\\', 'u', a.char, b.char, c.char, d.char]

/-- The UTF-16 units that a piece stands for. -/
def units : Piece → List Nat
  | plain c _ | letter _ c _ => utf16 c
  | unit a b c d => [unitValue a b c d]

theorem lt_of_mem_units {p : Piece} {n : Nat} (h : n ∈ p.units) : n < 0x10000 := by
  have hchar : ∀ c : Char, n ∈ utf16 c → n < 0x10000 := by
    intro c hmem
    have hc := Utf8.toNat_cases c
    unfold utf16 at hmem
    split at hmem
    · simp at hmem
      omega
    · simp at hmem
      omega
  cases p with
  | plain c itself => exact hchar c h
  | letter l c known => exact hchar c h
  | unit a b c d =>
    have := a.value.isLt
    have := b.value.isLt
    have := c.value.isLt
    have := d.value.isLt
    simp only [units, unitValue, List.mem_singleton] at h
    omega

end Piece

/-- The text that a string literal stands for. -/
def textOf? (pieces : List Piece) : Option String :=
  (ofUnits? (pieces.flatMap Piece.units)).map String.ofList

/-- A string literal stands for the text that has its UTF-16 units. -/
def StandsFor (pieces : List Piece) (t : String) : Prop :=
  t.toList.flatMap utf16 = pieces.flatMap Piece.units

instance (pieces : List Piece) (t : String) : Decidable (StandsFor pieces t) :=
  inferInstanceAs (Decidable (_ = _))

/-- **The text of a string literal is the one that it stands for.** -/
theorem textOf?_eq_some_iff {pieces : List Piece} {t : String} :
    textOf? pieces = some t ↔ StandsFor pieces t := by
  constructor
  · intro h
    obtain ⟨cs, hcs, rfl⟩ := Option.map_eq_some_iff.mp h
    rw [StandsFor, String.toList_ofList]
    refine flatMap_utf16_of_ofUnits? (fun n hn => ?_) hcs
    obtain ⟨p, -, hp⟩ := List.mem_flatMap.mp hn
    exact Piece.lt_of_mem_units hp
  · intro h
    rw [textOf?, ← h, ofUnits?_flatMap, Option.map_some, String.ofList_toList]

/-! ## Number literals -/

/-- The exponent of a number literal. -/
structure Exponent where
  mark : Char
  sign : List Char
  digits : List Char
  mark_mem : mark ∈ ['e', 'E']
  sign_mem : sign ∈ [[], ['+'], ['-']]
  digits_ne_nil : digits ≠ []
  isDigit_digits : ∀ c ∈ digits, c.isDigit = true

/-- A number literal. -/
structure Numeral where
  negative : Bool
  whole : List Char
  /-- The digits behind the point; none if there is no point. -/
  fraction : List Char
  exponent? : Option Exponent
  whole_ne_nil : whole ≠ []
  isDigit_whole : ∀ c ∈ whole, c.isDigit = true
  /-- A zero stands alone. -/
  whole_of_zero : ∀ r, whole = '0' :: r → r = []
  isDigit_fraction : ∀ c ∈ fraction, c.isDigit = true

/-- How the digits behind the point are written, and the point. -/
def fractionText (digits : List Char) : List Char := if digits = [] then [] else '.' :: digits

/-- How an exponent is written, if there is one. -/
def exponentText : Option Exponent → List Char
  | none => []
  | some e => e.mark :: (e.sign ++ e.digits)

namespace Numeral

/-- How a number is written. -/
def text (n : Numeral) : List Char :=
  (if n.negative then ['-'] else []) ++
    (n.whole ++ (fractionText n.fraction ++ exponentText n.exponent?))

/-- The parts of a number literal that count for its value. -/
def literal (n : Numeral) : Literal where
  negative := n.negative
  whole := n.whole
  fraction := n.fraction
  exponent? := n.exponent?.map fun e => (decide (e.sign = ['-']), e.digits)

end Numeral

/-! ## Values -/

/-- A spelling of a value, without the blanks. -/
inductive Tree
  | null
  | bool (b : Bool)
  | number (n : Numeral)
  | string (pieces : List Piece)
  | array (items : List Tree)
  | object (members : List (List Piece × Tree))

/-- A word, a literal or a mark, as it is written. -/
abbrev Token := List Char

/-- The token of a string literal. -/
def quoted (pieces : List Piece) : Token := '"' :: (pieces.flatMap Piece.text ++ ['"'])

/-- Tokens with commas between them. -/
def separated : List (List Token) → List Token
  | [] => []
  | first :: rest => first ++ rest.flatMap ([','] :: ·)

namespace Tree

/-- What holds of a tree if it holds of its parts holds of every tree. -/
@[elab_as_elim, induction_eliminator]
theorem induct {motive : Tree → Prop} (null : motive .null) (bool : ∀ b, motive (.bool b))
    (number : ∀ n, motive (.number n)) (string : ∀ pieces, motive (.string pieces))
    (array : ∀ items, (∀ t ∈ items, motive t) → motive (.array items))
    (object : ∀ members, (∀ m ∈ members, motive m.2) → motive (.object members)) :
    ∀ t, motive t
  | .null => null
  | .bool b => bool b
  | .number n => number n
  | .string pieces => string pieces
  | .array items =>
    array items fun t _ => induct null bool number string array object t
  | .object members =>
    object members fun m _ => induct null bool number string array object m.2
termination_by t => sizeOf t
decreasing_by
  all_goals simp_wf
  · have := List.sizeOf_lt_of_mem ‹t ∈ items›
    omega
  · have := List.sizeOf_lt_of_mem ‹m ∈ members›
    have : sizeOf m.2 < sizeOf m := by
      obtain ⟨name, t⟩ := m
      show sizeOf t < sizeOf (name, t)
      rw [Prod.mk.sizeOf_spec]
      omega
    omega

mutual

/-- The tokens of a tree. -/
def tokens : Tree → List Token
  | .null => [['n', 'u', 'l', 'l']]
  | .bool true => [['t', 'r', 'u', 'e']]
  | .bool false => [['f', 'a', 'l', 's', 'e']]
  | .number n => [n.text]
  | .string pieces => [quoted pieces]
  | .array items => ['['] :: (separated (itemTokens items) ++ [[']']])
  | .object members => ['\x7b'] :: (separated (memberTokens members) ++ [['\x7d']])

/-- The tokens of each of the items of an array. -/
def itemTokens : List Tree → List (List Token)
  | [] => []
  | t :: rest => tokens t :: itemTokens rest

/-- The tokens of each of the members of an object. -/
def memberTokens : List (List Piece × Tree) → List (List Token)
  | [] => []
  | (name, t) :: rest => (quoted name :: [':'] :: tokens t) :: memberTokens rest

end

/-- The tokens of a member of an object. -/
def tokensOfMember (m : List Piece × Tree) : List Token := quoted m.1 :: [':'] :: m.2.tokens

mutual

/-- How many arrays and objects are nested in each other. -/
def depth : Tree → Nat
  | .array items => depthItems items + 1
  | .object members => depthMembers members + 1
  | _ => 0

/-- The greatest depth of a list of trees. -/
def depthItems : List Tree → Nat
  | [] => 0
  | t :: rest => max (depth t) (depthItems rest)

/-- The greatest depth of a list of named trees. -/
def depthMembers : List (List Piece × Tree) → Nat
  | [] => 0
  | (_, t) :: rest => max (depth t) (depthMembers rest)

end

mutual

/-- The value that a tree spells. -/
def value? : Tree → Option Json
  | .null => some .null
  | .bool b => some (.bool b)
  | .number n => n.literal.value.toOption.map .number
  | .string pieces => (textOf? pieces).map .string
  | .array items => (itemValues? items).map .array
  | .object members => (memberValues? members).map ofMembers

/-- The values of the items of an array. -/
def itemValues? : List Tree → Option (List Json)
  | [] => some []
  | t :: rest => (value? t).bind fun v => (itemValues? rest).map (v :: ·)

/-- The named values of the members of an object. -/
def memberValues? : List (List Piece × Tree) → Option (List (String × Json))
  | [] => some []
  | (name, t) :: rest =>
    (textOf? name).bind fun k => (value? t).bind fun v => (memberValues? rest).map ((k, v) :: ·)

end

end Tree

/-! ## Texts -/

/-- A text begins with these tokens, blanks in front of any of them, and goes on with `rest`. -/
def Begins : List Token → List Char → List Char → Prop
  | [], s, rest => s = rest
  | token :: tokens, s, rest =>
    ∃ blanks s', (∀ c ∈ blanks, isBlank c = true) ∧ s = blanks ++ (token ++ s') ∧
      Begins tokens s' rest

/-- The blanks are a beginning of the text, and the token stands behind them. -/
theorem begins_iff_exists_take {token : Token} {tokens : List Token} {s rest : List Char} :
    Begins (token :: tokens) s rest ↔
      ∃ n ∈ List.range (s.length + 1), (s.take n).all isBlank = true ∧ token <+: s.drop n ∧
        Begins tokens (s.drop (n + token.length)) rest := by
  constructor
  · rintro ⟨blanks, s', hblanks, rfl, hs'⟩
    refine ⟨blanks.length, ?_, ?_, ?_, ?_⟩
    · rw [List.mem_range, List.length_append]
      omega
    · simpa using hblanks
    · simp
    · simpa [← List.drop_drop] using hs'
  · rintro ⟨n, -, hblanks, ⟨s', hs'⟩, h⟩
    refine ⟨s.take n, s', List.all_eq_true.mp hblanks, ?_, ?_⟩
    · rw [hs', List.take_append_drop]
    · rw [← List.drop_drop, ← hs', List.drop_left] at h
      exact h

instance decidableBegins : (tokens : List Token) → (s rest : List Char) →
    Decidable (Begins tokens s rest)
  | [], s, rest => inferInstanceAs (Decidable (s = rest))
  | _ :: tokens, _, rest =>
    have := fun s => decidableBegins tokens s rest
    decidable_of_iff' _ begins_iff_exists_take

end KvClient.Json

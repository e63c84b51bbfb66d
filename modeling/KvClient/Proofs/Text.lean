import KvClient.Text.Utf8

/-!
# Text and its bytes

Bytes are those of just one text or of none, and texts compare as their bytes do.

## How it works

* **How a character is written**: `Form`, a first byte and six bits in each byte behind it.
* **A character has one form**, and is cut off where it stands: `form_encodeChar`, `Form.unique`,
  `next_eq_char_iff`.
* **Decoding is the inverse of encoding**: `decode_eq_ok_iff`.
* **The order of code points is that of the bytes**: `encode_lt_encode`.
-/

namespace KvClient.Utf8

variable {n m : Nat} {a b : Bytes}

/-! ## Characters -/

/-- The code point `n` is written as these bytes. -/
inductive Form (n : Nat) : Bytes → Prop
  | one {x : UInt8} (first : x.toNat < 0x80) (value : n = x.toNat) : Form n [x]
  | two {x y : UInt8} (first : 0xC2 ≤ x.toNat ∧ x.toNat < 0xE0)
      (second : 0x80 ≤ y.toNat ∧ y.toNat < 0xC0)
      (value : n = (x.toNat - 0xC0) * 64 + (y.toNat - 0x80)) : Form n [x, y]
  | three {x y z : UInt8} (first : 0xE0 ≤ x.toNat ∧ x.toNat < 0xF0)
      (second : 0x80 ≤ y.toNat ∧ y.toNat < 0xC0) (third : 0x80 ≤ z.toNat ∧ z.toNat < 0xC0)
      (value : n = ((x.toNat - 0xE0) * 64 + (y.toNat - 0x80)) * 64 + (z.toNat - 0x80))
      (least : 0x800 ≤ n) : Form n [x, y, z]
  | four {x y z w : UInt8} (first : 0xF0 ≤ x.toNat ∧ x.toNat < 0xF5)
      (second : 0x80 ≤ y.toNat ∧ y.toNat < 0xC0) (third : 0x80 ≤ z.toNat ∧ z.toNat < 0xC0)
      (fourth : 0x80 ≤ w.toNat ∧ w.toNat < 0xC0)
      (value : n = (((x.toNat - 0xF0) * 64 + (y.toNat - 0x80)) * 64 + (z.toNat - 0x80)) * 64 +
        (w.toNat - 0x80))
      (least : 0x10000 ≤ n) : Form n [x, y, z, w]

theorem form_encodeChar (c : Char) : Form c.toNat (String.utf8EncodeChar c) := by
  have hc := toNat_cases c
  have hbyte : ∀ k < 256, (UInt8.ofNat k).toNat = k := fun k hk => UInt8.toNat_ofNat_of_lt' hk
  unfold String.utf8EncodeChar
  simp only [show c.val.toNat = c.toNat from rfl]
  split
  · exact .one (by rw [hbyte _ (by omega)]; omega) (by rw [hbyte _ (by omega)])
  · split
    · refine .two ?_ ?_ ?_
      all_goals
        simp only [hbyte (c.toNat / 64 % 32 + 192) (by omega), hbyte (c.toNat % 64 + 128) (by omega)]
        omega
    · split
      · refine .three ?_ ?_ ?_ ?_ (by omega)
        all_goals
          simp only [hbyte (c.toNat / 4096 % 16 + 224) (by omega),
            hbyte (c.toNat / 64 % 64 + 128) (by omega), hbyte (c.toNat % 64 + 128) (by omega)]
          omega
      · refine .four ?_ ?_ ?_ ?_ ?_ (by omega)
        all_goals
          simp only [hbyte (c.toNat / 262144 % 8 + 240) (by omega),
            hbyte (c.toNat / 4096 % 64 + 128) (by omega),
            hbyte (c.toNat / 64 % 64 + 128) (by omega), hbyte (c.toNat % 64 + 128) (by omega)]
          omega

/-- **A character has one form.** -/
theorem Form.unique (ha : Form n a) (hb : Form n b) : a = b := by
  cases ha
  all_goals
    cases hb
    all_goals
      simp only [List.cons.injEq, ← UInt8.toNat_inj, and_true, List.cons_ne_nil, and_false]
      omega

/-- **The smaller code point has the smaller bytes**, whatever follows. -/
theorem Form.append_lt (ha : Form n a) (hb : Form m b) (h : n < m) (s t : Bytes) :
    a ++ s < b ++ t := by
  cases ha
  all_goals
    cases hb
    all_goals
      simp only [List.cons_append, List.nil_append, List.cons_lt_cons_iff, UInt8.lt_iff_toNat_lt,
        ← UInt8.toNat_inj]
      omega

/-- Only an ASCII character is written with an ASCII byte, which is its code point. -/
theorem Form.eq_of_mem (h : Form n a) {b : UInt8} (hb : b ∈ a) (hascii : b.toNat < 0x80) :
    n = b.toNat := by
  cases h with
  | one first value =>
    obtain rfl := List.mem_singleton.mp hb
    exact value
  | two | three | four =>
    -- All bytes of a longer character have the highest bit set.
    simp only [List.mem_cons, List.not_mem_nil, or_false] at hb
    grind

/-! ## First bytes -/

theorem isContinuation_iff {x : UInt8} : isContinuation x = true ↔ 0x80 ≤ x.toNat ∧ x.toNat < 0xC0 := by
  simp only [isContinuation, Bool.and_eq_true, decide_eq_true_eq, UInt8.le_iff_toNat_le,
    UInt8.toNat_ofNat]
  omega

theorem lead_eq (x : UInt8) :
    lead x =
      if x.toNat < 0x80 then .ascii
      else if x.toNat < 0xC2 then .none
      else if x.toNat < 0xE0 then .two
      else if x.toNat < 0xF0 then
        .three (if x.toNat = 0xE0 then 0xA0 else 0x80) (if x.toNat = 0xED then 0x9F else 0xBF)
      else if x.toNat < 0xF5 then
        .four (if x.toNat = 0xF0 then 0x90 else 0x80) (if x.toNat = 0xF4 then 0x8F else 0xBF)
      else .none := by
  have heq : ∀ k : UInt8, x = k ↔ x.toNat = k.toNat := fun k => UInt8.toNat_inj.symm
  simp only [lead, UInt8.lt_iff_toNat_lt, heq, UInt8.toNat_ofNat]
  grind

/-- The second bytes of three are those of no overlong form and of no surrogate. -/
theorem three_range (x y : UInt8) :
    ((if x.toNat = 0xE0 then 0xA0 else 0x80 : UInt8) ≤ y ∧
        y ≤ (if x.toNat = 0xED then 0x9F else 0xBF : UInt8)) ↔
      (0x80 ≤ y.toNat ∧ y.toNat < 0xC0) ∧ (x.toNat = 0xE0 → 0xA0 ≤ y.toNat) ∧
        (x.toNat = 0xED → y.toNat < 0xA0) := by
  simp only [UInt8.le_iff_toNat_le, apply_ite UInt8.toNat, UInt8.toNat_ofNat]
  grind

/-- The second bytes of four are those of no overlong form and of no code point past the last. -/
theorem four_range (x y : UInt8) :
    ((if x.toNat = 0xF0 then 0x90 else 0x80 : UInt8) ≤ y ∧
        y ≤ (if x.toNat = 0xF4 then 0x8F else 0xBF : UInt8)) ↔
      (0x80 ≤ y.toNat ∧ y.toNat < 0xC0) ∧ (x.toNat = 0xF0 → 0x90 ≤ y.toNat) ∧
        (x.toNat = 0xF4 → y.toNat < 0x90) := by
  simp only [UInt8.le_iff_toNat_le, apply_ite UInt8.toNat, UInt8.toNat_ofNat]
  grind

/-! ## Cutting off a character -/

section

variable {c : Char} {x y z w : UInt8} {tail rest r : Bytes}

/-- The form of a character is cut off as this character. -/
theorem next_of_form (h : Form c.toNat (x :: tail)) (rest : Bytes) :
    next x (tail ++ rest) = (.char c, rest) := by
  have hc := toNat_cases c
  have hchar : ∀ k, k = c.toNat → Char.ofNat k = c := by
    rintro k rfl
    exact c.ofNat_toNat
  unfold next
  rw [lead_eq]
  cases h with
  | one first value =>
    simp only [if_pos first, hchar _ value.symm, List.nil_append]
  | two first second value =>
    rw [if_neg (by omega), if_neg (by omega), if_pos first.2]
    simp only [List.cons_append, List.nil_append, isContinuation_iff.mpr second, if_true]
    rw [hchar _ (by unfold payload; omega)]
  | @three _ y z first second third value least =>
    rw [if_neg (by omega), if_neg (by omega), if_neg (by omega), if_pos first.2]
    have hsecond := (three_range x y).mpr ⟨second, by omega, by omega⟩
    simp only [List.cons_append, List.nil_append, if_pos hsecond, isContinuation_iff.mpr third,
      if_true]
    rw [hchar _ (by unfold payload; omega)]
  | @four _ y z w first second third fourth value least =>
    rw [if_neg (by omega), if_neg (by omega), if_neg (by omega), if_neg (by omega), if_pos first.2]
    have hsecond := (four_range x y).mpr ⟨second, by omega, by omega⟩
    simp only [List.cons_append, List.nil_append, if_pos hsecond, isContinuation_iff.mpr third,
      isContinuation_iff.mpr fourth, if_true]
    rw [hchar _ (by unfold payload; omega)]

theorem form_ofNat_two (first : 0xC2 ≤ x.toNat ∧ x.toNat < 0xE0)
    (second : 0x80 ≤ y.toNat ∧ y.toNat < 0xC0) :
    Form (Char.ofNat (x.toNat % 32 * 64 + payload y)).toNat [x, y] := by
  have hvalue : x.toNat % 32 * 64 + payload y = (x.toNat - 0xC0) * 64 + (y.toNat - 0x80) := by
    unfold payload
    omega
  rw [hvalue, toNat_ofNat (by omega)]
  exact .two first second rfl

theorem form_ofNat_three (first : 0xE0 ≤ x.toNat ∧ x.toNat < 0xF0)
    (second : (0x80 ≤ y.toNat ∧ y.toNat < 0xC0) ∧ (x.toNat = 0xE0 → 0xA0 ≤ y.toNat) ∧
      (x.toNat = 0xED → y.toNat < 0xA0))
    (third : 0x80 ≤ z.toNat ∧ z.toNat < 0xC0) :
    Form (Char.ofNat ((x.toNat % 16 * 64 + payload y) * 64 + payload z)).toNat [x, y, z] := by
  have hvalue : (x.toNat % 16 * 64 + payload y) * 64 + payload z =
      ((x.toNat - 0xE0) * 64 + (y.toNat - 0x80)) * 64 + (z.toNat - 0x80) := by
    unfold payload
    omega
  rw [hvalue, toNat_ofNat (by omega)]
  exact .three first second.1 third rfl (by omega)

theorem form_ofNat_four (first : 0xF0 ≤ x.toNat ∧ x.toNat < 0xF5)
    (second : (0x80 ≤ y.toNat ∧ y.toNat < 0xC0) ∧ (x.toNat = 0xF0 → 0x90 ≤ y.toNat) ∧
      (x.toNat = 0xF4 → y.toNat < 0x90))
    (third : 0x80 ≤ z.toNat ∧ z.toNat < 0xC0) (fourth : 0x80 ≤ w.toNat ∧ w.toNat < 0xC0) :
    Form (Char.ofNat (((x.toNat % 8 * 64 + payload y) * 64 + payload z) * 64 + payload w)).toNat
      [x, y, z, w] := by
  have hvalue : ((x.toNat % 8 * 64 + payload y) * 64 + payload z) * 64 + payload w =
      (((x.toNat - 0xF0) * 64 + (y.toNat - 0x80)) * 64 + (z.toNat - 0x80)) * 64 +
        (w.toNat - 0x80) := by
    unfold payload
    omega
  rw [hvalue, toNat_ofNat (by omega)]
  exact .four first second.1 third fourth rfl (by omega)

/-- What is cut off as a character is its form. -/
theorem form_of_next (h : next x rest = (.char c, r)) :
    ∃ tail, rest = tail ++ r ∧ Form c.toNat (x :: tail) := by
  unfold next at h
  rw [lead_eq] at h
  by_cases h₁ : x.toNat < 0x80
  · rw [if_pos h₁] at h
    obtain ⟨rfl, rfl⟩ : Char.ofNat x.toNat = c ∧ rest = r := by simpa using h
    exact ⟨[], rfl, .one h₁ (toNat_ofNat (by omega))⟩
  rw [if_neg h₁] at h
  by_cases h₂ : x.toNat < 0xC2
  · simp [if_pos h₂] at h
  rw [if_neg h₂] at h
  by_cases h₃ : x.toNat < 0xE0
  · rw [if_pos h₃] at h
    rcases rest with _ | ⟨y, rest⟩
    · simp at h
    · simp only at h
      split at h
      case isFalse => simp at h
      case isTrue hy =>
      obtain ⟨rfl, rfl⟩ := by simpa only [Prod.mk.injEq, Piece.char.injEq] using h
      exact ⟨[y], rfl, form_ofNat_two (by omega) (isContinuation_iff.mp hy)⟩
  rw [if_neg h₃] at h
  by_cases h₄ : x.toNat < 0xF0
  · rw [if_pos h₄] at h
    rcases rest with _ | ⟨y, _ | ⟨z, rest⟩⟩
    all_goals simp only [three_range] at h
    · simp at h
    · split at h
      all_goals simp at h
    · split at h
      case isFalse => simp at h
      case isTrue hy =>
      split at h
      case isFalse => simp at h
      case isTrue hz =>
      obtain ⟨rfl, rfl⟩ := by simpa only [Prod.mk.injEq, Piece.char.injEq] using h
      exact ⟨[y, z], rfl, form_ofNat_three (by omega) hy (isContinuation_iff.mp hz)⟩
  rw [if_neg h₄] at h
  by_cases h₅ : x.toNat < 0xF5
  · rw [if_pos h₅] at h
    rcases rest with _ | ⟨y, _ | ⟨z, _ | ⟨w, rest⟩⟩⟩
    all_goals simp only [four_range] at h
    · simp at h
    · split at h
      all_goals simp at h
    · split at h
      case isFalse => simp at h
      split at h
      all_goals simp at h
    · split at h
      case isFalse => simp at h
      case isTrue hy =>
      split at h
      case isFalse => simp at h
      case isTrue hz =>
      split at h
      case isFalse => simp at h
      case isTrue hw =>
      obtain ⟨rfl, rfl⟩ := by simpa only [Prod.mk.injEq, Piece.char.injEq] using h
      exact ⟨[y, z, w], rfl, form_ofNat_four (by omega) hy (isContinuation_iff.mp hz)
        (isContinuation_iff.mp hw)⟩
  · simp [if_neg h₅] at h

theorem next_eq_char_iff :
    next x rest = (.char c, r) ↔ ∃ tail, rest = tail ++ r ∧ Form c.toNat (x :: tail) := by
  refine ⟨form_of_next, ?_⟩
  rintro ⟨tail, rfl, hform⟩
  exact next_of_form hform r


end

/-! ## Texts -/

section

variable {bytes : Bytes} {s t : String} {cs ds : List Char}

theorem utf8EncodeChar_eq_cons (c : Char) : ∃ x tail, String.utf8EncodeChar c = x :: tail := by
  have h := form_encodeChar c
  generalize String.utf8EncodeChar c = bytes at h
  cases h with
  | one | two | three | four => exact ⟨_, _, rfl⟩

theorem pieces_cons (x : UInt8) (rest : Bytes) :
    pieces (x :: rest) = (next x rest).1 :: pieces (next x rest).2 := by
  rw [pieces]

theorem encodeChars_cons (c : Char) (cs : List Char) :
    encodeChars (c :: cs) = String.utf8EncodeChar c ++ encodeChars cs := rfl

theorem pieces_encodeChars (cs : List Char) : pieces (encodeChars cs) = cs.map .char := by
  induction cs with
  | nil => rw [encodeChars, List.flatMap_nil, pieces, List.map_nil]
  | cons c cs ih =>
    obtain ⟨x, tail, hbytes⟩ := utf8EncodeChar_eq_cons c
    have hnext := next_of_form (hbytes ▸ form_encodeChar c) (encodeChars cs)
    rw [encodeChars_cons, hbytes, List.cons_append, pieces_cons, hnext, ih, List.map_cons]

theorem eq_encodeChars_of_pieces (bytes : Bytes) :
    ∀ {cs : List Char}, pieces bytes = cs.map .char → bytes = encodeChars cs := by
  induction bytes using pieces.induct with
  | case1 =>
    intro cs h
    rw [pieces] at h
    rw [List.map_eq_nil_iff.mp h.symm]
    rfl
  | case2 x rest ih =>
    intro cs h
    rw [pieces] at h
    obtain ⟨c, cs, rfl, hpiece, hrest⟩ := List.map_eq_cons_iff.mp h.symm
    obtain ⟨tail, htail, hform⟩ := form_of_next (Prod.ext hpiece.symm rfl)
    rw [encodeChars_cons, ← hform.unique (form_encodeChar c), List.cons_append, ← ih hrest.symm,
      ← htail]

theorem collect_eq_ok_iff {pieces : List Piece} :
    ∀ {i : Nat} {cs : List Char}, collect i pieces = .ok cs ↔ pieces = cs.map .char := by
  induction pieces with
  | nil =>
    intro i cs
    simp [collect, eq_comm]
  | cons p rest ih =>
    intro i cs
    cases p with
    | invalid | cut => cases cs <;> simp [collect]
    | char c =>
      have hrest : collect i (.char c :: rest) = .ok cs ↔
          ∃ ds, collect (i + c.utf8Size) rest = .ok ds ∧ cs = c :: ds := by
        rw [collect]
        cases collect (i + c.utf8Size) rest <;> simp [eq_comm]
      rw [hrest]
      cases cs with
      | nil => simp
      | cons d ds =>
        simp only [ih, List.cons.injEq, List.map_cons, Piece.char.injEq]
        grind

/-- **The bytes that are text are those of a text**, and of only one. -/
theorem decode_eq_ok_iff : decode bytes = .ok s ↔ bytes = encode s := by
  have hchars : decode bytes = .ok s ↔ collect 0 (pieces bytes) = .ok s.toList := by
    rw [decode]
    cases collect 0 (pieces bytes) with
    | error fault => simp
    | ok cs => simp [← String.toList_inj]
  rw [hchars, collect_eq_ok_iff]
  constructor
  · exact eq_encodeChars_of_pieces bytes
  · rintro rfl
    exact pieces_encodeChars s.toList

theorem decode_encode (s : String) : decode (encode s) = .ok s := decode_eq_ok_iff.mpr rfl

theorem encodeChars_lt (h : cs < ds) : encodeChars cs < encodeChars ds := by
  induction h with
  | @nil d ds =>
    obtain ⟨x, tail, hbytes⟩ := utf8EncodeChar_eq_cons d
    rw [encodeChars_cons, hbytes]
    exact .nil
  | @rel c cs d ds h =>
    exact (form_encodeChar c).append_lt (form_encodeChar d) h (encodeChars cs) (encodeChars ds)
  | @cons c cs ds h ih =>
    rw [encodeChars_cons, encodeChars_cons]
    exact List.append_left_lt ih

/-- **The smaller text has the smaller bytes.** -/
theorem encode_lt_encode (h : s < t) : encode s < encode t := encodeChars_lt (String.lt_iff.mp h)

end

end KvClient.Utf8

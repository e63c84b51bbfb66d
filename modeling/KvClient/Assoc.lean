/-!
# Tables sorted by name

A table is a list of named values in strictly ascending order of the names.  Names compare code
point by code point, which is also the order of their UTF-8 bytes.

* **Inserting keeps the order**: `sorted_insert`.
* **The last value wins**: `find?_insert_self`.
* **A name has the value that stands with it**: `find?_eq_some_iff`.
* **A sorted list is its own table**: `ofPairs_eq_self`.
-/

namespace KvClient

/-- Named values. -/
abbrev Assoc (α : Type) := List (String × α)

namespace Assoc

variable {α : Type}

/-! ## Order -/

/-- Every name is smaller than all the names behind it. -/
def Sorted (table : Assoc α) : Prop := table.Pairwise (fun a b => a.1 < b.1)

/-- The value of `name` becomes `value`. -/
def insert (name : String) (value : α) : Assoc α → Assoc α
  | [] => [(name, value)]
  | (n, v) :: rest =>
    if name < n then (name, value) :: (n, v) :: rest
    else if name = n then (name, value) :: rest
    else (n, v) :: insert name value rest

/-- The table without `name`. -/
def erase (name : String) (table : Assoc α) : Assoc α := table.filter (·.1 ≠ name)

/-- The value of `name`. -/
def find? (name : String) (table : Assoc α) : Option α :=
  (List.find? (fun p => p.1 = name) table).map (·.2)

/-- The table of a list of pairs, of which the last one for a name counts. -/
def ofPairs (pairs : List (String × α)) : Assoc α :=
  pairs.foldl (fun table p => table.insert p.1 p.2) []

/-! ## Laws -/

theorem mem_insert {name : String} {value : α} {table : Assoc α} {p : String × α}
    (h : p ∈ insert name value table) : p = (name, value) ∨ p ∈ table := by
  induction table with
  | nil => simpa [insert] using h
  | cons q rest ih =>
    obtain ⟨n, v⟩ := q
    simp only [insert] at h
    split at h
    · simpa using h
    · split at h
      · simp only [List.mem_cons] at h ⊢
        rcases h with h | h
        · exact .inl h
        · exact .inr (.inr h)
      · simp only [List.mem_cons] at h ⊢
        rcases h with h | h
        · exact .inr (.inl h)
        · exact (ih h).imp_right .inr

private theorem string_lt_of_not_lt {a b : String} (h : ¬a < b) (hne : a ≠ b) : b < a := by
  rcases String.le_total a b with hab | hab
  · exact absurd (String.le_antisymm hab (String.not_lt.mp h)) hne
  · exact String.not_le.mp fun hle => hne (String.le_antisymm hle (String.not_lt.mp h))

theorem sorted_insert {name : String} {value : α} {table : Assoc α} (h : table.Sorted) :
    (insert name value table).Sorted := by
  induction table with
  | nil => simp [insert, Sorted]
  | cons q rest ih =>
    obtain ⟨n, v⟩ := q
    obtain ⟨hhead, hrest⟩ := List.pairwise_cons.mp h
    simp only [insert]
    split
    · rename_i hlt
      refine List.pairwise_cons.mpr ⟨fun p hp => ?_, h⟩
      rcases List.mem_cons.mp hp with rfl | hp
      · exact hlt
      · exact String.lt_trans hlt (hhead p hp)
    · split
      · rename_i heq
        exact List.pairwise_cons.mpr ⟨fun p hp => heq ▸ hhead p hp, hrest⟩
      · rename_i hlt hne
        refine List.pairwise_cons.mpr ⟨fun p hp => ?_, ih hrest⟩
        rcases mem_insert hp with rfl | hp
        · exact string_lt_of_not_lt hlt hne
        · exact hhead p hp

theorem sorted_ofPairs (pairs : List (String × α)) : (ofPairs pairs).Sorted := by
  suffices ∀ table : Assoc α, table.Sorted →
      Sorted (pairs.foldl (fun t p => insert p.1 p.2 t) table) from
    this [] List.Pairwise.nil
  induction pairs with
  | nil => exact fun _ h => h
  | cons p rest ih => exact fun table h => ih _ (sorted_insert h)

theorem find?_insert_self (name : String) (value : α) (table : Assoc α) :
    (insert name value table).find? name = some value := by
  induction table with
  | nil => simp [insert, find?]
  | cons q rest ih =>
    obtain ⟨n, v⟩ := q
    simp only [insert]
    split
    · simp [find?]
    · split
      · simp [find?]
      · rename_i hne
        have : ¬n = name := fun h => hne h.symm
        simpa [find?, this] using ih

theorem find?_eq_some_iff {name : String} {value : α} {table : Assoc α} (h : table.Sorted) :
    table.find? name = some value ↔ (name, value) ∈ table := by
  induction table with
  | nil => simp [find?]
  | cons p rest ih =>
    obtain ⟨hhead, hrest⟩ := List.pairwise_cons.mp h
    have hrest := ih hrest
    by_cases hp : p.1 = name
    · have hnot : (name, value) ∉ rest := by
        intro hmem
        have hlt := hhead _ hmem
        rw [hp] at hlt
        exact String.lt_irrefl name hlt
      obtain ⟨n, v⟩ := p
      obtain rfl : n = name := hp
      simp [find?, hnot, eq_comm]
    · have hne : (name, value) ≠ p := by
        rintro rfl
        exact hp rfl
      rw [List.mem_cons, or_iff_right hne, ← hrest]
      simp [find?, hp]

/-- What is inserted behind all names is appended. -/
theorem insert_eq_append {name : String} {value : α} {table : Assoc α}
    (h : ∀ p ∈ table, p.1 < name) : insert name value table = table ++ [(name, value)] := by
  induction table with
  | nil => rfl
  | cons q rest ih =>
    obtain ⟨n, v⟩ := q
    obtain ⟨hlt, hrest⟩ := List.forall_mem_cons.mp h
    have hnot : ¬name < n := fun hgt => String.lt_irrefl n (String.lt_trans hlt hgt)
    have hne : name ≠ n := by
      rintro rfl
      exact String.lt_irrefl name hlt
    rw [insert, if_neg hnot, if_neg hne, ih hrest]
    rfl

/-- A sorted list of pairs is the table of these pairs. -/
theorem ofPairs_eq_self {pairs : Assoc α} (h : pairs.Sorted) : ofPairs pairs = pairs := by
  suffices ∀ before : Assoc α, Sorted (before ++ pairs) →
      pairs.foldl (fun t p => insert p.1 p.2 t) before = before ++ pairs from this [] h
  clear h
  induction pairs with
  | nil => exact fun before _ => (List.append_nil before).symm
  | cons p rest ih =>
    intro before hsorted
    have hlast : ∀ q ∈ before, q.1 < p.1 := fun q hq =>
      (List.pairwise_append.mp hsorted).2.2 q hq p (List.mem_cons_self ..)
    rw [List.foldl_cons, insert_eq_append hlast, ih, List.append_assoc]
    · rfl
    · rw [List.append_assoc]
      exact hsorted

end Assoc

end KvClient

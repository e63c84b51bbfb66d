import KvClient.Proofs.Json.Spelling

/-!
# Which trees spell a value

An integer is spelled by its digits, a text by any literal that stands for it, an array item by
item, and an object by its members in any order.

## How it works

* **A table does not tell the order of its members**: `Assoc.ofPairs_of_perm`.
* **A tree that spells a value has this value**: `Tree.Spells.value?_eq`, and it is nested no deeper
  (`Tree.Spells.depth_le`).
-/

namespace KvClient

namespace Assoc

variable {α : Type}

theorem insert_perm {name : String} {value : α} {table : Assoc α}
    (h : ∀ p ∈ table, p.1 ≠ name) : (insert name value table).Perm ((name, value) :: table) := by
  induction table with
  | nil => exact .refl _
  | cons p rest ih =>
    obtain ⟨n, v⟩ := p
    obtain ⟨hne, hrest⟩ := List.forall_mem_cons.mp h
    rw [insert]
    split
    · exact .refl _
    · rw [if_neg fun heq => hne heq.symm]
      exact ((ih hrest).cons _).trans (.swap ..)

/-- **A table is the same for all orders of its members.** -/
theorem ofPairs_of_perm {pairs table : Assoc α} (h : pairs.Perm table) (hsorted : table.Sorted) :
    ofPairs pairs = table := by
  have hlt : ∀ a b : String × α, a.1 < b.1 → b.1 < a.1 → a = b :=
    fun a b hab hba => absurd (String.lt_trans hab hba) (String.lt_irrefl a.1)
  have hdistinct : pairs.Pairwise (·.1 ≠ ·.1) := by
    refine (List.Pairwise.imp ?_ hsorted).perm h.symm fun hne => hne.symm
    intro a b hab heq
    rw [heq] at hab
    exact String.lt_irrefl b.1 hab
  suffices ∀ before : Assoc α, (before ++ pairs).Pairwise (·.1 ≠ ·.1) →
      (pairs.foldl (fun t p => insert p.1 p.2 t) before).Perm (before ++ pairs) by
    have hperm : (ofPairs pairs).Perm table := (this [] hdistinct).trans h
    exact hperm.eq_of_pairwise (fun a b _ _ => hlt a b) (sorted_ofPairs pairs) hsorted
  clear h hdistinct
  induction pairs with
  | nil => exact fun before _ => .of_eq (List.append_nil before).symm
  | cons p rest ih =>
    intro before hdistinct
    have hnew : ∀ q ∈ before, q.1 ≠ p.1 := fun q hq =>
      (List.pairwise_append.mp hdistinct).2.2 q hq p (List.mem_cons_self ..)
    have hperm : (insert p.1 p.2 before ++ rest).Perm (before ++ p :: rest) :=
      ((insert_perm hnew).append_right rest).trans List.perm_middle.symm
    rw [List.foldl_cons]
    exact (ih _ (hdistinct.perm hperm.symm fun hne => hne.symm)).trans hperm

end Assoc

namespace Json.Tree

/-- A tree spells a value that holds integers for numbers. -/
inductive Spells : Tree → Json → Prop
  | null : Spells .null .null
  | bool (b : Bool) : Spells (.bool b) (.bool b)
  | integer {numeral : Numeral} (n : Int) (fits : FitsInteger n)
      (decimal : numeral.text = Number.intText n) :
      Spells (.number numeral) (.number (.integer n fits))
  | string {pieces : List Piece} {t : String} (text : StandsFor pieces t) :
      Spells (.string pieces) (.string t)
  | array {items : List (Tree × Json)} (each : ∀ p ∈ items, Spells p.1 p.2) :
      Spells (.array (items.map (·.1))) (.array (items.map (·.2)))
  | object {members : List ((List Piece × Tree) × (String × Json))} {table : Assoc Json}
      (names : ∀ m ∈ members, StandsFor m.1.1 m.2.1) (each : ∀ m ∈ members, Spells m.1.2 m.2.2)
      (order : (members.map (·.2)).Perm table) (sorted : table.Sorted) :
      Spells (.object (members.map (·.1))) (.object table)

theorem depthItems_le_iff {items : List Tree} {d : Nat} :
    depthItems items ≤ d ↔ ∀ t ∈ items, t.depth ≤ d := by
  induction items with
  | nil => simp [depthItems]
  | cons t rest ih => rw [depthItems, Nat.max_le, ih, List.forall_mem_cons]

theorem depthMembers_le_iff {members : List (List Piece × Tree)} {d : Nat} :
    depthMembers members ≤ d ↔ ∀ m ∈ members, m.2.depth ≤ d := by
  induction members with
  | nil => simp [depthMembers]
  | cons m rest ih => rw [depthMembers, Nat.max_le, ih, List.forall_mem_cons]

namespace Spells

variable {t : Tree} {v : Json}

/-- A tree is nested no deeper than the value that it spells. -/
theorem depth_le (h : Spells t v) : t.depth ≤ v.depth := by
  induction h with
  | null | bool | integer | string => exact Nat.le_refl _
  | @array items each ih =>
    rw [Tree.depth, Json.depth, Nat.add_le_add_iff_right, depthItems_le_iff, List.forall_mem_map]
    intro p hp
    exact Nat.le_trans (ih p hp)
      (Json.depthItems_le_iff.mp (Nat.le_refl _) _ (List.mem_map_of_mem hp))
  | @object members table names each order sorted ih =>
    rw [Tree.depth, Json.depth, Nat.add_le_add_iff_right, depthMembers_le_iff, List.forall_mem_map]
    intro m hm
    exact Nat.le_trans (ih m hm)
      (Json.depthMembers_le_iff.mp (Nat.le_refl _) _ (order.subset (List.mem_map_of_mem hm)))

theorem value_of_decimal {numeral : Numeral} {n : Int} (fits : FitsInteger n)
    (h : numeral.text = Number.intText n) : numeral.literal.value = .ok (.integer n fits) := by
  have hend : EndsNumber [] := by simp [EndsNumber]
  have hread := readLiteral_numeral .endInValue numeral hend
  rw [h, readLiteral_intText .endInValue n hend] at hread
  obtain ⟨hliteral, -⟩ := Prod.mk.inj (Except.ok.inj hread)
  rw [← hliteral, value_intLiteral n fits]

/-- **A tree that spells a value has this value.** -/
theorem value?_eq (h : Spells t v) : t.value? = some v := by
  induction h with
  | null => rw [Tree.value?]
  | bool b => rw [Tree.value?]
  | integer n fits decimal =>
    rw [Tree.value?, value_of_decimal fits decimal]
    rfl
  | string text => rw [Tree.value?, textOf?_eq_some_iff.mpr text, Option.map_some]
  | @array items each ih =>
    have hitems : itemValues? (items.map (·.1)) = some (items.map (·.2)) := by
      clear each
      induction items with
      | nil => rfl
      | cons p items ihitems =>
        obtain ⟨hp, hitems⟩ := List.forall_mem_cons.mp ih
        rw [List.map_cons, itemValues?, hp, Option.bind_some, ihitems hitems]
        rfl
    rw [Tree.value?, hitems, Option.map_some]
  | @object members table names each order sorted ih =>
    have hmembers : memberValues? (members.map (·.1)) = some (members.map (·.2)) := by
      clear each order
      induction members with
      | nil => rfl
      | cons m members ihmembers =>
        obtain ⟨⟨name, t⟩, k, v⟩ := m
        obtain ⟨hname, hnames⟩ := List.forall_mem_cons.mp names
        obtain ⟨hm, hmembers⟩ := List.forall_mem_cons.mp ih
        rw [List.map_cons, memberValues?, textOf?_eq_some_iff.mpr hname, Option.bind_some, hm,
          Option.bind_some, ihmembers hnames hmembers]
        rfl
    rw [Tree.value?, hmembers, Option.map_some, ofMembers, Assoc.ofPairs_of_perm order sorted]

/-- A tree that spells a value has it, at every depth that the value keeps to. -/
theorem within?_eq (h : Spells t v) {d : Nat} (hd : v.depth ≤ d) : t.within? d = some v := by
  rw [within?, if_pos (Nat.le_trans h.depth_le hd), h.value?_eq]

end Spells

end Json.Tree

end KvClient

import KvClient.Proofs.Entry.Roundtrip
import KvClient.Proofs.Text
import Mathlib.Data.List.Forall2

/-!
# Values that say the same entries

A JSON value says a list of entries as an array, each entry an object or an array of two, or as an
object whose members are the entries.  What is sent is one document for all of them.

* **An item is taken as the entry that it says**, and as none if it says none: `Entry.Says`,
  `Entry.ofJson_eq_ok_iff`, `Entry.listOfJson_eq_ok_iff`.
* **An object is a list in ascending order**: `Entry.Ascend.eq`.
* **The document depends on the entries only**: `Payload.document_structured`.
-/

namespace KvClient

namespace Entry

open Json

variable {v : Json} {items : List Json} {members : Assoc Json} {e : Entry} {es : List Entry}

/-! ## Items of an array -/

/-- A value says an entry: an object with its key and its value, whatever other fields there are,
or an array of the two. -/
inductive Says : Json → Entry → Prop
  | object {members : Assoc Json} {e : Entry} (key : ("key", .string e.key) ∈ members)
    (value : ("value", e.value) ∈ members) : Says (.object members) e
  | pair (e : Entry) : Says (.array [.string e.key, e.value]) e

theorem keyOfJson_eq_ok_iff {key : String} : keyOfJson v = .ok key ↔ v = .string key := by
  cases v <;> simp [keyOfJson]

theorem ofItems_eq_ok_iff : ofItems items = .ok e ↔ items = [.string e.key, e.value] := by
  constructor
  · intro h
    match items, h with
    | [], h => cases h
    | k :: rest, h =>
      simp only [ofItems] at h
      cases hk : keyOfJson k with
      | error cause => simp [hk] at h
      | ok key =>
        obtain rfl := keyOfJson_eq_ok_iff.mp hk
        match rest, h with
        | [], h => simp [hk] at h
        | [value], h =>
          obtain rfl : Entry.mk key value = e := by simpa [hk] using h
          rfl
        | _ :: _ :: _, h => simp [hk] at h
  · rintro rfl
    rfl

theorem ofMembers_eq_ok_iff (h : members.Sorted) :
    ofMembers members = .ok e ↔
      ("key", .string e.key) ∈ members ∧ ("value", e.value) ∈ members := by
  rw [← Assoc.find?_eq_some_iff h, ← Assoc.find?_eq_some_iff h]
  constructor
  · intro hof
    unfold ofMembers at hof
    split at hof
    · simp at hof
    · next k hk =>
      split at hof
      · simp at hof
      · next key hkey =>
        obtain rfl := keyOfJson_eq_ok_iff.mp hkey
        split at hof
        · simp at hof
        · next value hvalue =>
          obtain rfl := Except.ok.inj hof
          exact ⟨hk, hvalue⟩
  · rintro ⟨hkey, hvalue⟩
    simp only [ofMembers, Field.name, hkey, hvalue, keyOfJson]

/-- **An item is taken as the entry that it says.** -/
theorem ofJson_eq_ok_iff (h : v.WellFormed) : ofJson v = .ok e ↔ Says v e := by
  cases v with
  | null | bool | number | string =>
    refine ⟨fun hof => by simp [ofJson] at hof, fun hsays => by cases hsays⟩
  | array items =>
    rw [ofJson, ofItems_eq_ok_iff]
    constructor
    · rintro rfl
      exact .pair e
    · intro hsays
      cases hsays
      rfl
  | object members =>
    rw [WellFormed] at h
    rw [ofJson, ofMembers_eq_ok_iff h.1]
    constructor
    · rintro ⟨hkey, hvalue⟩
      exact .object hkey hvalue
    · intro hsays
      cases hsays with
      | object key value => exact ⟨key, value⟩

theorem listOfJson_cons_eq_ok_iff {rest : List Json} :
    listOfJson (v :: rest) = .ok es ↔
      ∃ e es', es = e :: es' ∧ ofJson v = .ok e ∧ listOfJson rest = .ok es' := by
  rw [listOfJson]
  cases ofJson v with
  | error cause => simp
  | ok e =>
    cases listOfJson rest with
    | error cause => simp
    | ok es' => simp [eq_comm]

/-- **An array is taken as the entries that its items say.** -/
theorem listOfJson_eq_ok_iff (h : (Json.array items).WellFormed) :
    listOfJson items = .ok es ↔ List.Forall₂ Says items es := by
  rw [WellFormed] at h
  induction items generalizing es with
  | nil => simp [listOfJson, eq_comm]
  | cons v rest ih =>
    obtain ⟨hv, hrest⟩ := h
    rw [listOfJson_cons_eq_ok_iff, List.forall₂_cons_left_iff]
    simp only [ofJson_eq_ok_iff hv, ih hrest]
    grind

theorem exists_says_of_mem (h : List.Forall₂ Says items es) (hv : v ∈ items) : ∃ e, Says v e := by
  induction h with
  | nil => exact absurd hv List.not_mem_nil
  | @cons v' e items es hsays _ ih =>
    rcases List.mem_cons.mp hv with rfl | hmem
    · exact ⟨e, hsays⟩
    · exact ih hmem

/-! ## The members of an object -/

/-- The entries are the members of an object, in ascending order of the bytes of their keys. -/
structure Ascend (members : Assoc Json) (es : List Entry) : Prop where
  same : (es.map fun e => (e.key, e.value)).Perm members
  ascending : es.Pairwise fun a b => Utf8.encode a.key < Utf8.encode b.key

theorem Ascend.eq (hsorted : members.Sorted) (h : Ascend members es) :
    members.map (fun (key, value) => ⟨key, value⟩) = es := by
  have hmembers : members.Pairwise fun a b => Utf8.encode a.1 < Utf8.encode b.1 :=
    List.Pairwise.imp Utf8.encode_lt_encode hsorted
  have hes : (es.map fun e => (e.key, e.value)).Pairwise
      fun a b => Utf8.encode a.1 < Utf8.encode b.1 := List.pairwise_map.mpr h.ascending
  have heq : (es.map fun e => (e.key, e.value)) = members := by
    refine h.same.eq_of_pairwise (fun a b _ _ hab hba => ?_) hes hmembers
    exact absurd hba (List.lt_asymm hab)
  rw [← heq, List.map_map]
  exact List.map_id es

theorem ascend_map (hsorted : members.Sorted) :
    Ascend members (members.map fun (key, value) => ⟨key, value⟩) where
  same := by
    rw [List.map_map]
    exact .of_eq (List.map_id members)
  ascending := List.pairwise_map.mpr (List.Pairwise.imp Utf8.encode_lt_encode hsorted)

end Entry

namespace Payload

open Json (WellFormed WellFormedItems WellFormedMembers)

variable {items : List Json} {members : Assoc Json} {es : List Entry}

theorem document_array_ok (h : Entry.listOfJson items = .ok es) :
    (structured (.array items)).document = .ok (Entry.document es).text := by
  rw [document]
  simp only [entriesOf, h]

theorem document_array_error (h : ∀ es, Entry.listOfJson items ≠ .ok es) :
    ∃ e, (structured (.array items)).document = .error (.badJson e) := by
  rw [document]
  cases hlist : Entry.listOfJson items with
  | ok es => exact absurd hlist (h es)
  | error cause =>
    simp only [entriesOf, hlist]
    exact ⟨_, rfl⟩

theorem document_object (h : Entry.Ascend members es) (hsorted : members.Sorted) :
    (structured (.object members)).document = .ok (Entry.document es).text := by
  rw [document]
  simp only [entriesOf]
  rw [h.eq hsorted]

/-- **All values that say the same entries become one document**, that of a list of these entries.
An array says the entries that its items say, each of them as an object or as an array; an object
says its members in ascending order of the bytes of their names.  An array with an item that says no
entry is refused, and so is everything that is neither an array nor an object.  Values that are read
or made here are well-formed. -/
theorem document_structured :
    (∀ items, (Json.array items).WellFormed →
      (∀ es, List.Forall₂ Entry.Says items es →
        (structured (.array items)).document = .ok (Entry.document es).text ∧
        (ofEntries es).document = .ok (Entry.document es).text) ∧
      ((∃ item ∈ items, ∀ e, ¬Entry.Says item e) →
        ∃ e, (structured (.array items)).document = .error (.badJson e))) ∧
    (∀ members, (Json.object members).WellFormed →
      (∃ es, Entry.Ascend members es) ∧
      ∀ es, Entry.Ascend members es →
        (structured (.object members)).document = .ok (Entry.document es).text ∧
        (ofEntries es).document = .ok (Entry.document es).text) ∧
    ∀ v, (∀ items, v ≠ .array items) → (∀ members, v ≠ .object members) →
      (structured v).document = .error (.unknownPayload (.notEntries (kindName v))) := by
  refine ⟨fun items hwell => ⟨fun es hes => ?_, fun hitem => ?_⟩, fun members hwell => ?_, ?_⟩
  · have hlist := (Entry.listOfJson_eq_ok_iff hwell).mpr hes
    exact ⟨document_array_ok hlist, document_ofEntries es⟩
  · obtain ⟨item, hmem, hitem⟩ := hitem
    refine document_array_error fun es hlist => ?_
    have hes := (Entry.listOfJson_eq_ok_iff hwell).mp hlist
    obtain ⟨e, he⟩ := Entry.exists_says_of_mem hes hmem
    exact hitem e he
  · rw [Json.WellFormed] at hwell
    refine ⟨⟨_, Entry.ascend_map hwell.1⟩, fun es hes => ?_⟩
    exact ⟨document_object hes hwell.1, document_ofEntries es⟩
  · intro v harray hobject
    cases v with
    | array items => exact absurd rfl (harray items)
    | object members => exact absurd rfl (hobject members)
    | null | bool | number | string => rfl

/-- An object with a field too many beside an array of two, the same as an object of members, an
array of three, and a text. -/
theorem document_structured_shapes :
    let first : Json := .object [("key", .string "a"), ("note", .null), ("value", .bool true)]
    let second : Json := .array [.string "b", .null]
    let es : List Entry := [⟨"a", .bool true⟩, ⟨"b", .null⟩]
    (structured (.array [first, second])).document = (ofEntries es).document ∧
    (structured (.object [("a", .bool true), ("b", .null)])).document = (ofEntries es).document ∧
    (∃ e, (structured (.array [first, .array [.string "b", .null, .null]])).document =
      .error (.badJson e)) ∧
    (structured (.string "a")).document = .error (.unknownPayload (.notEntries "a string")) := by
  intro first second es
  have hfirst : first.WellFormed := by
    refine ⟨?_, by simp [WellFormedMembers, WellFormed]⟩
    exact List.pairwise_map.mp (show ["key", "note", "value"].Pairwise (· < ·) by decide)
  have hmembers : Assoc.Sorted [("a", Json.bool true), ("b", Json.null)] :=
    List.pairwise_map.mp (show ["a", "b"].Pairwise (· < ·) by decide)
  obtain ⟨harray, hobject, hscalar⟩ := document_structured
  have hsays : List.Forall₂ Entry.Says [first, second] es :=
    .cons (.object (by simp) (by simp)) (.cons (.pair ⟨"b", .null⟩) .nil)
  have hboth : (Json.array [first, second]).WellFormed :=
    ⟨hfirst, by simp [second, WellFormed, WellFormedItems], trivial⟩
  have hthree : (Json.array [first, .array [.string "b", .null, .null]]).WellFormed :=
    ⟨hfirst, by simp [WellFormed, WellFormedItems], trivial⟩
  obtain ⟨hdoc, hes⟩ := (harray _ hboth).1 es hsays
  obtain ⟨hdoc', -⟩ := (hobject _ ⟨hmembers, by simp [WellFormedMembers, WellFormed]⟩).2 es
    (Entry.ascend_map hmembers)
  refine ⟨hdoc.trans hes.symm, hdoc'.trans hes.symm, ?_, ?_⟩
  · refine (harray _ hthree).2 ⟨_, List.mem_cons_of_mem _ (List.mem_singleton.mpr rfl), ?_⟩
    intro e he
    have hof := (Entry.ofJson_eq_ok_iff (by simp [WellFormed, WellFormedItems])).mpr he
    simp [Entry.ofJson, Entry.ofItems, Entry.keyOfJson] at hof
  · exact hscalar (.string "a") (fun items h => by cases h) (fun members h => by cases h)

end Payload

end KvClient

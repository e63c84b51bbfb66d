import KvClient.Payload
import KvClient.Proofs.Json.Roundtrip

/-!
# Entries are read back

A list of entries becomes a document in which the entries are found again, one after the other and
as they were, as long as none of them is nested too deep.  There is no such bound when the document
is written.

## How it works

* **An entry is taken off the front of a text**: `takes_readEntry`.
* **Every list of entries becomes a document**: `document_ofEntries`.
* **The document gives back the entries**: `document_roundtrip`.
-/

namespace KvClient

open Json

namespace Entry

variable {rest : List Char} {e : Entry} {es : List Entry}

/-! ## One entry -/

theorem readField_key (draft : Draft) (hnew : draft.key? = none) (key : String)
    (rest : List Char) :
    readField draft Field.key.name (':' :: (quote key ++ rest)) =
      .ok (⟨some key, draft.value?⟩, rest) := by
  have hkey : readKey (quote key ++ rest) = .ok (key, rest) := by
    rw [readKey, quote_append, skipBlanks_cons (by decide)]
    exact readText_quote key rest
  rw [readField, if_pos rfl, readKeyField, hnew]
  simp only [readColon_colon, hkey]
  rfl

theorem gives_value (draft : Draft) (hnew : draft.value? = none) {v : Json} (hv : Exact v)
    (hends : EndsNumber rest) :
    Gives (readField draft Field.value.name (':' :: (print v ++ rest)))
      ⟨draft.key?, some v⟩ rest (v.depth ≤ maxValueDepth) := by
  have hvalue := (takes_readValue hv maxValueDepth).gives hends
  rw [readField, if_neg (by decide), if_pos rfl, readValueField, hnew, readEntryValue]
  refine hvalue.through (fun hok => ?_) (fun stop hstop => ?_)
  · simp only [readColon_colon, hok]
    rfl
  · simp only [readColon_colon, hstop]
    rfl

/-- The fields of an entry, behind its brace. -/
theorem gives_readMembers_entry (hv : Exact e.value) (rest : List Char) :
    Gives (readMembers (fun draft name => ⟨readField draft name, length_readField_lt⟩)
        ⟨none, none⟩ (quote Field.key.name ++ ':' :: (quote e.key ++ ',' ::
          (quote Field.value.name ++ ':' :: (print e.value ++ '\x7d' :: rest)))))
      ⟨some e.key, some e.value⟩ rest (e.value.depth ≤ maxValueDepth) := by
  have hvalue := gives_value ⟨some e.key, none⟩ rfl hv (endsNumber_brace rest)
  rw [readMembers_quote]
  simp only [readField_key ⟨none, none⟩ rfl]
  rw [readMoreMembers_comma]
  refine hvalue.through (fun hok => ?_) (fun stop hstop => ?_)
  · simp only [hok]
    exact readMoreMembers_end ..
  · simp only [hstop]

/-- **An entry is read as itself**, unless its value is nested too deep. -/
theorem takes_readEntry (hv : Exact e.value) :
    Takes readEntry (print e.toJson) e (e.value.depth ≤ maxValueDepth) := by
  have hprint : print e.toJson = '\x7b' :: (quote Field.key.name ++ ':' :: (quote e.key ++ ',' ::
      (quote Field.value.name ++ ':' :: (print e.value ++ ['\x7d'])))) := by
    rw [toJson, print, printMembers_eq_joined]
    simp [joined, printMember, print, Field.name]
  refine ⟨⟨'\x7b', _, hprint, by decide, by decide⟩, fun {rest} _ => ?_⟩
  have hfields := gives_readMembers_entry hv rest
  have hentry : ∀ s, readEntry ('\x7b' :: s) = readObject s := by
    intro s
    rw [readEntry, skipBlanks_cons (by decide)]
    rfl
  have htext : print e.toJson ++ rest = '\x7b' :: (quote Field.key.name ++ ':' :: (quote e.key ++
      ',' :: (quote Field.value.name ++ ':' :: (print e.value ++ '\x7d' :: rest)))) := by
    rw [hprint]
    simp
  rw [htext, hentry]
  refine hfields.through (fun hok => ?_) (fun stop hstop => ?_)
  · simp only [readObject, hok]
  · simp only [readObject, hstop]

/-! ## Documents -/

theorem listOfJson_map (es : List Entry) : listOfJson (es.map toJson) = .ok es := by
  have hentry : ∀ e : Entry, ofJson e.toJson = .ok e := by
    intro e
    simp [toJson, ofJson, ofMembers, Assoc.find?, Field.name, keyOfJson]
  induction es with
  | nil => rfl
  | cons e es ih => simp only [List.map_cons, listOfJson, hentry, ih]

theorem print_document (es : List Entry) :
    print (document es) = '[' :: (joined (fun e => print e.toJson) es ++ [']']) := by
  rw [document, print, printItems_eq_joined]
  cases es <;> simp [joined, List.flatMap_map]

/-- **The document of a list of entries is read as that list**, unless one of them is nested too
deep. -/
theorem gives_readList (hes : ∀ e ∈ es, Exact e.value) :
    Gives (readList (print (document es))) es [] (∀ e ∈ es, e.value.depth ≤ maxValueDepth) := by
  rw [print_document, readList, skipBlanks_cons (by decide)]
  exact gives_readItems (fun e he => takes_readEntry (hes e he)) []

theorem toList_text (v : Json) : v.text.toList = v.print := String.toList_ofList

theorem parse_of_ok {v : Json} (h : readList v.print = .ok (es, [])) : parse v.text = .ok es := by
  rw [parse, readDocument]
  simp only [toList_text, h]
  rfl

theorem parse_of_stop {v : Json} {stop : Stop} (h : readList v.print = .error stop) :
    parse v.text = .error (stop.toError v.text) := by
  rw [parse, readDocument]
  simp only [toList_text, h]

end Entry

namespace Payload

variable {es : List Entry}

/-- **Every list of entries becomes a document.** -/
theorem document_ofEntries (es : List Entry) :
    (ofEntries es).document = .ok (Entry.document es).text := by
  have hentries : entriesOf (Entry.document es) = .ok es := by
    simp only [entriesOf, Entry.document, Entry.listOfJson_map]
  rw [ofEntries, document, hentries]

/-- **The document of a list of entries gives back the entries.**  It can be imported again as it
is, if no value is nested too deep for the reader; otherwise it is refused for that reason, though
it was written. -/
theorem document_roundtrip {es : List Entry} (hes : ∀ e ∈ es, Json.Exact e.value) :
    ∃ doc, (ofEntries es).document = .ok doc ∧
      ((∀ e ∈ es, e.value.depth ≤ 125) →
        parseEntries doc = .ok es ∧ (Payload.text doc).document = .ok doc) ∧
      ((∃ e ∈ es, 125 < e.value.depth) →
        ∃ p, parseEntries doc = .error (.badJson ⟨.tooDeep, some p⟩)) := by
  have hread := Entry.gives_readList hes
  refine ⟨_, document_ofEntries es, fun hfits => ?_, fun hdeep => ?_⟩
  · have hparse : parseEntries (Entry.document es).text = .ok es := by
      rw [parseEntries, Entry.parse_of_ok (hread.ok hfits)]
    refine ⟨hparse, ?_⟩
    show checked (Entry.document es).text = _
    rw [checked, hparse]
  · obtain ⟨e, he, hdeep⟩ := hdeep
    obtain ⟨unread, hstop⟩ := hread.tooDeep fun hfits => Nat.not_le_of_lt hdeep (hfits e he)
    rw [parseEntries, Entry.parse_of_stop hstop]
    exact ⟨_, rfl⟩

/-- An entry that is nested as deep as possible, and one that is nested one deeper; both hold the
greatest and the least integer. -/
theorem document_roundtrip_bounds :
    let entry : Nat → Entry := fun n => ⟨"k\"\n", .object [
      ("max", .number (.integer 0xffffffffffffffff (by decide))),
      ("min", .number (.integer (-0x8000000000000000) (by decide))), ("nested", nested n)]⟩
    (∃ doc, (ofEntries [entry 123]).document = .ok doc ∧ parseEntries doc = .ok [entry 123] ∧
      (Payload.text doc).document = .ok doc) ∧
    ∃ doc p, (ofEntries [entry 124]).document = .ok doc ∧
      parseEntries doc = .error (.badJson ⟨.tooDeep, some p⟩) := by
  intro entry
  have hexact : ∀ n, ∀ e ∈ [entry n], Json.Exact e.value := by
    intro n
    refine List.forall_mem_singleton.mpr (.object ?_ (by simp [Exact.integer, exact_nested]))
    exact List.pairwise_map.mp (show ["max", "min", "nested"].Pairwise (· < ·) by decide)
  have hdepth : ∀ n, (entry n).value.depth = n + 2 := by
    intro n
    simp [entry, depth, depthMembers, depth_nested]
  obtain ⟨doc, hdoc, hfits, -⟩ := document_roundtrip (hexact 123)
  obtain ⟨doc', hdoc', -, hdeep⟩ := document_roundtrip (hexact 124)
  obtain ⟨hparse, htext⟩ := hfits (by simp [hdepth])
  obtain ⟨p, hrefused⟩ := hdeep (by simp [hdepth])
  exact ⟨⟨doc, hdoc, hparse, htext⟩, doc', p, hdoc', hrefused⟩

end Payload

end KvClient

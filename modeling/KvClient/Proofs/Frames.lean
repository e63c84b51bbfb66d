import KvClient.Command
import KvClient.Proofs.Entry.Spelled
import KvClient.Proofs.Json.Written
import KvClient.Proofs.Text
import KvClient.Proofs.Wire

/-!
# Frames of commands

The frame of every command that a caller can make ends in a terminator and holds no other.  For keys
and values that is checked when they are made.  Nobody looks for a terminator in a document: a text
that lists entries holds none because no control character but a blank stands in it, and a value
that is written out holds none because control characters are spelled out.

* **Documents hold no terminator**: `Payload.terminator_not_mem_document`.
* **Every frame delimits itself**: `Command.Made.isFrame`, `Command.split_encode`.
-/

namespace KvClient

/-! ## Bytes of a text -/

namespace Utf8

theorem exists_of_mem_encode {s : String} {b : UInt8} (h : b ∈ encode s) (hb : b.toNat < 0x80) :
    ∃ c ∈ s.toList, c.toNat = b.toNat := by
  obtain ⟨c, hc, hbc⟩ := List.mem_flatMap.mp h
  exact ⟨c, hc, (form_encodeChar c).eq_of_mem hbc hb⟩

/-- A text without control characters other than blanks is written without the terminator. -/
theorem terminator_not_mem_encode {s : String} (h : ∀ c ∈ s.toList, Json.Plain c) :
    terminator ∉ encode s := by
  intro hm
  obtain ⟨c, hc, hn⟩ := exists_of_mem_encode hm (by decide)
  have he : c = '\x04' := Char.toNat_inj.mp hn
  subst he
  exact absurd (h _ hc) (by decide)

end Utf8

/-! ## Documents -/

namespace Payload

theorem plain_of_checked {s t : String} (h : checked s = .ok t) : ∀ c ∈ t.toList, Json.Plain c := by
  unfold checked parseEntries at h
  split at h
  · simp at h
  · next es he =>
    obtain rfl := Except.ok.inj h
    split at he
    · simp at he
    · next hp => exact Entry.plain_of_parse hp

theorem plain_of_document {p : Payload} {t : String} (h : p.document = .ok t) :
    ∀ c ∈ t.toList, Json.Plain c := by
  cases p with
  | text s => exact plain_of_checked h
  | raw bytes =>
    simp only [document] at h
    split at h
    · simp at h
    · exact plain_of_checked h
  | structured v =>
    simp only [document] at h
    split at h
    · simp at h
    · next entries _ =>
      obtain rfl := Except.ok.inj h
      intro c hc
      rw [Json.text, String.toList_ofList] at hc
      have hvisible := Json.visible_print (Entry.document entries) c hc
      exact Json.plain_of_not_isControl (by rw [hvisible]; decide)

/-- **A document holds no terminator**, whatever it was made from. -/
theorem terminator_not_mem_document {p : Payload} {t : String} (h : p.document = .ok t) :
    terminator ∉ Utf8.encode t :=
  Utf8.terminator_not_mem_encode (plain_of_document h)

end Payload

/-! ## Commands -/

theorem exists_of_map_eq_ok {ε α β : Type} {f : α → β} {x : Except ε α} {b : β}
    (h : x.map f = .ok b) : ∃ a, x = .ok a ∧ f a = b := by
  cases x with
  | error e => simp [Except.map] at h
  | ok a => exact ⟨a, rfl, Except.ok.inj h⟩

namespace Command

/-- The commands that callers can make. -/
inductive Made : Command → Prop
  | get {key : Bytes} {c : Command} (h : ofGet key = .ok c) : Made c
  | set {key value : Bytes} {c : Command} (h : ofSet key value = .ok c) : Made c
  | del {key : Bytes} {c : Command} (h : ofDel key = .ok c) : Made c
  | load {payload : Payload} {c : Command} (h : ofPayload payload = .ok c) : Made c
  | dump : Made .dump

theorem isFrame_fixedFrame (code : CommandCode) {key value : Bytes} (hk : terminator ∉ key)
    (hv : terminator ∉ value) : Wire.IsFrame (fixedFrame code key value) := by
  refine ⟨_, rfl, ?_⟩
  intro hm
  rcases List.mem_append.mp hm with hm | hm
  · rcases List.mem_append.mp hm with hm | hm
    · exact code.terminator_not_mem_bytes hm
    · exact terminator_not_mem_append_zeros hk _ hm
  · exact terminator_not_mem_append_zeros hv _ hm

theorem isFrame_load {document : String} (h : terminator ∉ Utf8.encode document) :
    Wire.IsFrame (load document).encode := by
  refine ⟨_, rfl, ?_⟩
  intro hm
  rcases List.mem_append.mp hm with hm | hm
  · exact CommandCode.load.terminator_not_mem_bytes hm
  · exact h hm

/-- **The frame of a command ends in a terminator and holds no other.** -/
theorem Made.isFrame {c : Command} (h : c.Made) : Wire.IsFrame c.encode := by
  have hnil : terminator ∉ ([] : Bytes) := List.not_mem_nil
  cases h with
  | get h =>
    obtain ⟨key, -, rfl⟩ := exists_of_map_eq_ok h
    exact isFrame_fixedFrame _ key.terminator_not_mem hnil
  | set h =>
    unfold ofSet at h
    split at h
    · simp at h
    · next key _ =>
      obtain ⟨value, -, rfl⟩ := exists_of_map_eq_ok h
      exact isFrame_fixedFrame _ key.terminator_not_mem value.terminator_not_mem
  | del h =>
    obtain ⟨key, -, rfl⟩ := exists_of_map_eq_ok h
    exact isFrame_fixedFrame _ key.terminator_not_mem hnil
  | load h =>
    obtain ⟨document, hd, rfl⟩ := exists_of_map_eq_ok h
    exact isFrame_load (Payload.terminator_not_mem_document hd)
  | dump => exact isFrame_fixedFrame _ hnil hnil

theorem isFrame_of_mem_map {cs : List Command} (h : ∀ c ∈ cs, c.Made) :
    ∀ f ∈ cs.map encode, Wire.IsFrame f := by
  intro f hf
  obtain ⟨c, hc, rfl⟩ := List.mem_map.mp hf
  exact (h c hc).isFrame

/-- **Every frame delimits itself.**  The terminator occurs in it once, at its end; so a stream of
frames falls into them when it is cut behind each terminator. -/
theorem split_encode :
    (∀ c : Command, c.Made →
      c.encode.count terminator = 1 ∧ c.encode.getLast? = some terminator) ∧
    (∀ cs : List Command, (∀ c ∈ cs, c.Made) →
      (Wire.split (cs.flatMap encode)).1.map (· ++ [terminator]) = cs.map encode ∧
      (Wire.split (cs.flatMap encode)).2 = []) := by
  constructor
  · intro c hc
    exact ⟨hc.isFrame.count, hc.isFrame.getLast?⟩
  · intro cs hcs
    have hframes := isFrame_of_mem_map hcs
    rw [List.flatMap_def, Wire.split_flatten hframes]
    exact ⟨Wire.map_segments hframes, rfl⟩

/-- A document with blanks around it, and one whose key and value are the terminator. -/
theorem split_encode_documents :
    (∀ c ∈ [load " [\n]\t", load (Entry.document [⟨"\x04", .string "\x04"⟩]).text], c.Made) ∧
    (Wire.split ([load " [\n]\t", load (Entry.document [⟨"\x04", .string "\x04"⟩]).text].flatMap
      encode)).2 = [] := by
  have htext : ofPayload (.text " [\n]\t") = .ok (load " [\n]\t") := by cbv
  have hvalue : ofPayload (.structured (.object [("\x04", .string "\x04")]))
      = .ok (load (Entry.document [⟨"\x04", .string "\x04"⟩]).text) := rfl
  have hmade : ∀ c ∈ [load " [\n]\t", load (Entry.document [⟨"\x04", .string "\x04"⟩]).text],
      c.Made := by
    rw [List.forall_mem_cons, List.forall_mem_singleton]
    exact ⟨.load htext, .load hvalue⟩
  exact ⟨hmade, (split_encode.2 _ hmade).2⟩

end Command

end KvClient

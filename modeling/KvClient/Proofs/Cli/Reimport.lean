import KvClient.Cli.Execution
import KvClient.Proofs.Client.Single
import KvClient.Proofs.Files
import KvClient.Proofs.Entry.Roundtrip
import KvClient.Proofs.Entry.Spelled
import KvClient.Proofs.Text

/-!
# What was exported can be imported again

The program leaves the payload of a response in a file, or prints it as a line, and reads a document
from a file or from its input.  A line feed behind a document is a blank, and so is no part of it.

* **Text that lists entries becomes one frame**: `loads_of_parse`, whichever way it is read.
* **What an export leaves behind is such a text**: `loads_of_export`.
-/

namespace KvClient.Cli

variable {s : Sources} {file? : Option String} {entries : List Entry} {document text : String}

/-- The bytes are what a document is read from: a file, or else the input. -/
def Sources.Offers (s : Sources) (file? : Option String) (bytes : Bytes) : Prop :=
  match file? with
  | some path => s.files.read path = .ok bytes
  | none => s.input = bytes

theorem Sources.document_of_offers (h : s.Offers file? (Utf8.encode text)) :
    s.document file? = .ok text := by
  cases file? with
  | some path =>
    have hread : s.files.read path = .ok (Utf8.encode text) := h
    simp only [Sources.document, Files.readText, hread, Utf8.decode_encode]
  | none =>
    have hinput : s.input = Utf8.encode text := h
    simp only [Sources.document, hinput, Utf8.decode_encode]

/-- What is read becomes a document of these entries, which one frame carries. -/
structure Loads (s : Sources) (file? : Option String) (bytes : Bytes) (entries : List Entry)
    (document : String) : Prop where
  /-- The program asks for the document to be loaded. -/
  request : (Instruction.load file?).request s = .ok (.load (.text document))
  /-- The document passes its check. -/
  check : (Request.load (.text document)).check = .ok (.exchange (.load document) .nothing)
  /-- Its frame is the code, what was read, and the terminator. -/
  frame : (Command.load document).encode = [105, 109, 112] ++ bytes ++ [terminator]
  once : terminator ∉ [105, 109, 112] ++ bytes
  entries : Payload.parseEntries document = .ok entries
  /-- A client that is asked for that puts this frame on the wire, all of it if it succeeds. -/
  wire : ∀ {config id es c effects}, (Client.withTransport config).run es = some (c, effects) →
    Client.AsksOnce id (.load (.text document)) es →
      Client.accepted effects <+: (Command.load document).encode ∧
      ∀ reply, .finished id (.ok reply) ∈ effects →
        Client.accepted effects = (Command.load document).encode

theorem loads_of_parse (hlists : Entry.parse document = .ok entries)
    (hoffers : s.Offers file? (Utf8.encode document)) :
    Loads s file? (Utf8.encode document) entries document := by
  have hparse : Payload.parseEntries document = .ok entries := Payload.parseEntries_ok_iff.mpr hlists
  have hdocument : (Payload.text document).document = .ok document := by
    show Payload.checked document = _
    rw [Payload.checked, hparse]
  have hcheck : (Request.load (.text document)).check =
      .ok (.exchange (.load document) .nothing) := by
    rw [Request.check, Command.ofPayload, hdocument]
    rfl
  refine ⟨?_, hcheck, rfl, ?_, hparse, fun hrun hasks => ?_⟩
  · rw [Instruction.request, Sources.document_of_offers hoffers]
    rfl
  · intro hmem
    rcases List.mem_append.mp hmem with hcode | hbytes
    · exact CommandCode.load.terminator_not_mem_bytes hcode
    · exact Payload.terminator_not_mem_document hdocument hbytes
  · have hrun := Client.run_eq_some_iff.mp hrun
    exact ⟨hasks.isPrefix hcheck hrun, fun reply hr => hasks.whole hcheck hrun hr⟩

/-- **What was exported can be imported again.**  The payload of a response that lists entries is
left in a file, where it is read again, or on the output with a line feed behind it; and whoever
reads either of the two for an import, from a file or from the input, has one frame to send that
carries it as it is, and lists the same entries. -/
theorem loads_of_export {r : Response} (hok : r.status = .ok)
    (hdecode : Utf8.decode r.payload = .ok text)
    (hlists : Payload.parseEntries text = .ok entries) (files : Files) :
    (Instruction.dump none).conclude files (Yield.payload.result (.ok r)) =
      ⟨0, r.payload ++ [10], "", files⟩ ∧
    (∀ path files', files.write path r.payload = .ok files' →
      (Instruction.dump (some path)).conclude files (Yield.payload.result (.ok r)) =
        ⟨0, [], "", files'⟩ ∧
      files'.read path = .ok r.payload) ∧
    ∀ bytes ∈ [r.payload, r.payload ++ [10]], ∀ (s : Sources) file?, s.Offers file? bytes →
      ∃ document, Loads s file? bytes entries document := by
  obtain ⟨status, payload⟩ := r
  obtain rfl : status = .ok := hok
  obtain rfl : payload = Utf8.encode text := Utf8.decode_eq_ok_iff.mp hdecode
  have hparse := Payload.parseEntries_ok_iff.mp hlists
  refine ⟨rfl, fun path files' hwrite => ⟨?_, (Files.wrote_of_write hwrite).read⟩, ?_⟩
  · show deliver (Utf8.encode text) files (some path) = _
    rw [deliver, hwrite]
    rfl
  · intro bytes hbytes s file? hoffers
    rcases List.mem_pair.mp hbytes with rfl | rfl
    · exact ⟨text, loads_of_parse hparse hoffers⟩
    · have hfeed : Utf8.encode (String.ofList ['\n']) = [10] := by
        rw [Utf8.encode, String.toList_ofList]
        rfl
      have hline : Utf8.encode text ++ [10] = Utf8.encode (text ++ String.ofList ['\n']) := by
        rw [Utf8.encode_append, hfeed]
      have hblanks : ∀ c ∈ ['\n'], Json.isBlank c = true := List.forall_mem_singleton.mpr rfl
      show ∃ document, Loads s file? (Utf8.encode text ++ [10]) entries document
      rw [hline]
      exact ⟨_, loads_of_parse (Entry.parse_append_blanks hparse hblanks) (hline ▸ hoffers)⟩

/-- A list of one entry, by way of a file and by way of the input. -/
theorem loads_of_export_file :
    let es : List Entry := [⟨"a", .null⟩]
    let r : Response := ⟨.ok, Utf8.encode (Entry.document es).text⟩
    let files : Files := .ofList []
    let printed := (Instruction.dump none).conclude files (Yield.payload.result (.ok r))
    ∃ files', files.write "all.json" r.payload = .ok files' ∧
      (∃ document, Loads ⟨files', []⟩ (some "all.json") r.payload es document) ∧
      ∃ document, Loads ⟨files, printed.stdout⟩ none (r.payload ++ [10]) es document := by
  intro es r files printed
  have hexact : ∀ e ∈ es, Json.Exact e.value := List.forall_mem_singleton.mpr .null
  have hfits : ∀ e ∈ es, e.value.depth ≤ Entry.maxValueDepth :=
    List.forall_mem_singleton.mpr (Nat.zero_le _)
  have hparse := Entry.parse_of_ok ((Entry.gives_readList hexact).ok hfits)
  have hplace : files.destination "all.json" = .ok ["tmp", "work", "all.json"] := by
    decide +kernel
  have hwrite : files.write "all.json" r.payload =
      .ok (files.put ["tmp", "work", "all.json"] r.payload) := by
    rw [Files.write, hplace]
  obtain ⟨hprinted, hfile, hloads⟩ := loads_of_export (r := r) rfl (Utf8.decode_encode _)
    (Payload.parseEntries_ok_iff.mpr hparse) files
  have hread := (hfile _ _ hwrite).2
  refine ⟨_, hwrite, ?_, ?_⟩
  · exact hloads r.payload (List.mem_cons_self ..) ⟨_, []⟩ (some "all.json") hread
  · refine hloads (r.payload ++ [10]) (by simp) ⟨files, printed.stdout⟩ none ?_
    exact congrArg Outcome.stdout hprinted

end KvClient.Cli

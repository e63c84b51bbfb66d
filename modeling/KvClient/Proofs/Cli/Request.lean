import KvClient.Proofs.Cli.Reimport

/-!
# What a command asks for

A command asks for one command to the peer, or there is something wrong with it: with its key, with
its value, or with the document that it loads.  What is wrong is found out either when the arguments
are read or when the request is checked, and both come before anything is sent.

## How it works

* **A pair in one argument is the same as in two**: `splitPair_of_joined`.
* **A command can be sent, or not**: `Asks`, `Unfit`, `asks_iff_not_unfit`.
* **What can be sent passes both checks, and what cannot fails in one of them**: `check_of_asks`,
  `refused_of_unfit`.
-/

namespace KvClient

/-- Bytes that do not fit into a region. -/
def Region.Misfit (size : Nat) (bytes : Bytes) : Prop := size < bytes.length ∨ terminator ∈ bytes

theorem Region.misfit_iff {size : Nat} {tooLarge : Nat → Error} {field : String} {bytes : Bytes} :
    Misfit size bytes ↔ ∃ e, ofBytes size tooLarge field bytes = .error e := by
  constructor
  · intro h
    cases hregion : ofBytes size tooLarge field bytes with
    | error e => exact ⟨e, rfl⟩
    | ok r =>
      obtain rfl := ofBytes_eq_ok_iff.mp hregion
      rcases h with hlong | hmem
      · exact absurd r.length_le (Nat.not_le.mpr hlong)
      · exact absurd hmem r.terminator_not_mem
  · rintro ⟨e, he⟩
    by_contra hfit
    obtain ⟨hle, hfree⟩ := not_or.mp hfit
    have hok : ofBytes size tooLarge field bytes = .ok ⟨bytes, Nat.not_lt.mp hle, hfree⟩ :=
      ofBytes_eq_ok_iff.mpr rfl
    simp [hok] at he

namespace Cli

variable {s : Sources} {i : Instruction} {command : Command} {name text key value : String}
  {value? file? : Option String}

/-! ## Pairs -/

theorem nonEmptyKey_of_ne (h : name ≠ "") : nonEmptyKey name = .ok (Utf8.encode name) :=
  if_neg (by simpa using h)

theorem toList_joined (key value : String) :
    (key ++ "=" ++ value).toList = key.toList ++ '=' :: value.toList := by
  simp [String.toList_append]

theorem ofList_joined (key value : List Char) :
    String.ofList (key ++ '=' :: value) = String.ofList key ++ "=" ++ String.ofList value := by
  rw [← String.toList_inj, toList_joined]
  simp only [String.toList_ofList]

/-- **A pair in one argument is read like a pair in two.** -/
theorem splitPair_of_joined (h : '=' ∉ key.toList) :
    splitPair (key ++ "=" ++ value) none = splitPair key (some value) := by
  have hjoined := splitPair_joined value.toList h
  rw [ofList_joined] at hjoined
  simpa only [String.ofList_toList] using hjoined

/-- A command names a key, and a value if it stores one; the two may stand in one argument. -/
inductive Instruction.Names : Instruction → String → Option String → Prop
  | get (key : String) : Names (.get key) key none
  | del (key : String) : Names (.del key) key none
  | pair (key value : String) : Names (.set key (some value)) key (some value)
  | joined (key value : String) (free : '=' ∉ key.toList) :
      Names (.set (key ++ "=" ++ value) none) key (some value)

/-- What becomes of the payload of the response. -/
def Instruction.yield : Instruction → Yield
  | .get _ | .dump _ => .payload
  | _ => .nothing

/-- A command asks for a command to the peer. -/
inductive Asks (s : Sources) : Instruction → Command → Prop
  | get {name : String} {key : Key} (nonempty : name ≠ "") (keyBytes : key.bytes = Utf8.encode name) :
      Asks s (.get name) (.get key)
  | set {i : Instruction} {name text : String} {key : Key} {value : Value}
      (names : i.Names name (some text)) (nonempty : name ≠ "")
      (keyBytes : key.bytes = Utf8.encode name) (valueBytes : value.bytes = Utf8.encode text) :
      Asks s i (.set key value)
  | del {name : String} {key : Key} (nonempty : name ≠ "") (keyBytes : key.bytes = Utf8.encode name) :
      Asks s (.del name) (.del key)
  | load {file? : Option String} {document : String} {entries : List Entry}
      (offers : s.Offers file? (Utf8.encode document))
      (lists : Payload.parseEntries document = .ok entries) :
      Asks s (.load file?) (.load document)
  | dump (file? : Option String) : Asks s (.dump file?) .dump

/-- There is something wrong with a command. -/
inductive Unfit (s : Sources) : Instruction → Prop
  | emptyKey {i : Instruction} {value? : Option String} (names : i.Names "" value?) : Unfit s i
  | missingValue {argument : String} (whole : '=' ∉ argument.toList) : Unfit s (.set argument none)
  | badKey {i : Instruction} {name : String} {value? : Option String} (names : i.Names name value?)
      (bad : Region.Misfit maxKeySize (Utf8.encode name)) : Unfit s i
  | badValue {i : Instruction} {name text : String} (names : i.Names name (some text))
      (bad : Region.Misfit maxValueSize (Utf8.encode text)) : Unfit s i
  | unreadable {file? : Option String} (unread : ∀ text, ¬s.Offers file? (Utf8.encode text)) :
      Unfit s (.load file?)
  | rejected {file? : Option String} {document : String} {err : Error}
      (offers : s.Offers file? (Utf8.encode document))
      (rejects : Payload.parseEntries document = .error err) : Unfit s (.load file?)

/-! ## Both checks -/

/-- A command fails when its arguments are read, or when its request is checked. -/
def Refused (s : Sources) (i : Instruction) : Prop :=
  (∃ f, i.request s = .error f) ∨
    ∃ request err, i.request s = .ok request ∧ request.check = .error err

theorem request_of_names (h : i.Names name (some text)) :
    i.request s = (nonEmptyKey name).map fun k => .set k (Utf8.encode text) := by
  have hsplit : i.request s = (Instruction.set name (some text)).request s := by
    cases h with
    | pair => rfl
    | joined key value free =>
      rw [Instruction.request, splitPair_of_joined free]
      rfl
  rw [hsplit, Instruction.request, splitPair]
  cases nonEmptyKey name <;> rfl

theorem Sources.offers_of_document (h : s.document file? = .ok text) :
    s.Offers file? (Utf8.encode text) := by
  cases file? with
  | some path =>
    show s.files.read path = .ok (Utf8.encode text)
    cases hread : s.files.read path with
    | error fault => simp [Sources.document, Files.readText, hread] at h
    | ok content =>
      cases hdecode : Utf8.decode content with
      | error fault => simp [Sources.document, Files.readText, hread, hdecode] at h
      | ok decoded =>
        obtain rfl : decoded = text := by
          simpa [Sources.document, Files.readText, hread, hdecode] using h
        rw [Utf8.decode_eq_ok_iff.mp hdecode]
  | none =>
    show s.input = Utf8.encode text
    cases hdecode : Utf8.decode s.input with
    | error fault => simp [Sources.document, hdecode] at h
    | ok decoded =>
      obtain rfl : decoded = text := by simpa [Sources.document, hdecode] using h
      exact Utf8.decode_eq_ok_iff.mp hdecode

/-- **What can be sent passes both checks.** -/
theorem check_of_asks (h : Asks s i command) :
    ∃ request, i.request s = .ok request ∧ request.check = .ok (.exchange command i.yield) := by
  cases h with
  | @get name key nonempty keyBytes =>
    refine ⟨.get (Utf8.encode name), ?_, ?_⟩
    · rw [Instruction.request, nonEmptyKey_of_ne nonempty]
      rfl
    · rw [Request.check, Command.ofGet, Key.ofBytes_eq_ok_iff.mpr keyBytes]
      rfl
  | @set i name text key value names nonempty keyBytes valueBytes =>
    refine ⟨.set (Utf8.encode name) (Utf8.encode text), ?_, ?_⟩
    · rw [request_of_names names, nonEmptyKey_of_ne nonempty]
      rfl
    · rw [Request.check, Command.ofSet, Key.ofBytes_eq_ok_iff.mpr keyBytes]
      simp only [Value.ofBytes_eq_ok_iff.mpr valueBytes]
      cases names <;> rfl
  | @del name key nonempty keyBytes =>
    refine ⟨.del (Utf8.encode name), ?_, ?_⟩
    · rw [Instruction.request, nonEmptyKey_of_ne nonempty]
      rfl
    · rw [Request.check, Command.ofDel, Key.ofBytes_eq_ok_iff.mpr keyBytes]
      rfl
  | @load file? document entries offers lists =>
    refine ⟨.load (.text document), ?_, ?_⟩
    · rw [Instruction.request, Sources.document_of_offers offers]
      rfl
    · rw [Request.check, Command.ofPayload, Payload.document, Payload.checked, lists]
      rfl
  | dump file? => exact ⟨.dump, rfl, rfl⟩

/-- A command whose key or value is not accepted is refused. -/
theorem refused_of_names (h : i.Names name value?)
    (hbad : name = "" ∨ Region.Misfit maxKeySize (Utf8.encode name) ∨
      ∃ text, value? = some text ∧ Region.Misfit maxValueSize (Utf8.encode text)) :
    Refused s i := by
  by_cases hempty : name = ""
  · subst hempty
    left
    cases h with
    | get | del => exact ⟨.emptyKey, rfl⟩
    | pair _ value => exact ⟨.emptyKey, request_of_names (.pair "" value)⟩
    | joined _ value free => exact ⟨.emptyKey, request_of_names (.joined "" value free)⟩
  · right
    have hname := nonEmptyKey_of_ne hempty
    have hset : ∀ text, value? = some text → ∃ err,
        (Request.set (Utf8.encode name) (Utf8.encode text)).check = .error err := by
      rintro text rfl
      rw [Request.check, Command.ofSet]
      cases hkey : Key.ofBytes (Utf8.encode name) with
      | error err => exact ⟨err, rfl⟩
      | ok k =>
        obtain ⟨err, herr⟩ : ∃ err, Value.ofBytes (Utf8.encode text) = .error err := by
          rcases hbad.resolve_left hempty with hmisfit | ⟨text', htext, hmisfit⟩
          · obtain ⟨err, herr⟩ := Region.misfit_iff.mp hmisfit
            cases hkey.symm.trans herr
          · obtain rfl := Option.some.inj htext
            exact Region.misfit_iff.mp hmisfit
        exact ⟨err, by simp only [herr]; rfl⟩
    have hkeyed : value? = none → ∃ err, Key.ofBytes (Utf8.encode name) = .error err := by
      rintro rfl
      rcases hbad.resolve_left hempty with hmisfit | ⟨text, htext, -⟩
      · exact Region.misfit_iff.mp hmisfit
      · cases htext
    cases h with
    | get =>
      obtain ⟨err, herr⟩ := hkeyed rfl
      exact ⟨.get (Utf8.encode name), err, by rw [Instruction.request, hname]; rfl,
        by rw [Request.check, Command.ofGet, herr]; rfl⟩
    | del =>
      obtain ⟨err, herr⟩ := hkeyed rfl
      exact ⟨.del (Utf8.encode name), err, by rw [Instruction.request, hname]; rfl,
        by rw [Request.check, Command.ofDel, herr]; rfl⟩
    | pair _ text =>
      obtain ⟨err, herr⟩ := hset text rfl
      exact ⟨_, err, by rw [request_of_names (.pair name text), hname]; rfl, herr⟩
    | joined _ text free =>
      obtain ⟨err, herr⟩ := hset text rfl
      exact ⟨_, err, by rw [request_of_names (.joined name text free), hname]; rfl, herr⟩

/-- **What cannot be sent fails in one of the checks.** -/
theorem refused_of_unfit (h : Unfit s i) : Refused s i := by
  cases h with
  | emptyKey names => exact refused_of_names names (.inl rfl)
  | badKey names bad => exact refused_of_names names (.inr (.inl bad))
  | badValue names bad => exact refused_of_names names (.inr (.inr ⟨_, rfl, bad⟩))
  | @missingValue argument whole =>
    left
    refine ⟨.missingValue argument, ?_⟩
    cases hsplit : Text.splitFirst? '=' argument.toList with
    | none =>
      rw [Instruction.request, splitPair]
      simp only [hsplit]
      rfl
    | some p =>
      obtain ⟨before, behind⟩ := p
      obtain ⟨hargument, -⟩ := Text.splitFirst?_eq_some hsplit
      simp [hargument] at whole
  | @unreadable file? unread =>
    left
    cases hdocument : s.document file? with
    | error f => exact ⟨f, by rw [Instruction.request, hdocument]; rfl⟩
    | ok text => exact absurd (Sources.offers_of_document hdocument) (unread text)
  | @rejected file? document err offers rejects =>
    right
    refine ⟨.load (.text document), err, ?_, ?_⟩
    · rw [Instruction.request, Sources.document_of_offers offers]
      rfl
    · rw [Request.check, Command.ofPayload, Payload.document, Payload.checked, rejects]
      rfl

/-- Bytes fit into a region, or they do not. -/
theorem Region.fits_or_misfit (size : Nat) (bytes : Bytes) :
    (∃ r : Region size, r.bytes = bytes) ∨ Region.Misfit size bytes := by
  by_cases hfit : Region.Misfit size bytes
  · exact .inr hfit
  · obtain ⟨hle, hfree⟩ := not_or.mp hfit
    exact .inl ⟨⟨bytes, Nat.not_lt.mp hle, hfree⟩, rfl⟩

theorem asks_or_unfit (s : Sources) (i : Instruction) : (∃ command, Asks s i command) ∨ Unfit s i := by
  -- A command with a key is fit if its key is, and its value if it has one.
  have hkeyed : ∀ {name value?}, i.Names name value? →
      (∀ key : Key, name ≠ "" → key.bytes = Utf8.encode name → (∃ command, Asks s i command) ∨ Unfit s i) →
      (∃ command, Asks s i command) ∨ Unfit s i := by
    intro name value? hnames hfit
    by_cases hempty : name = ""
    · subst hempty
      exact .inr (.emptyKey hnames)
    · rcases Region.fits_or_misfit maxKeySize (Utf8.encode name) with ⟨key, hkey⟩ | hmisfit
      · exact hfit key hempty hkey
      · exact .inr (.badKey hnames hmisfit)
  have hset : ∀ {name text}, i.Names name (some text) →
      (∃ command, Asks s i command) ∨ Unfit s i := by
    intro name text hnames
    refine hkeyed hnames fun key hne hkey => ?_
    rcases Region.fits_or_misfit maxValueSize (Utf8.encode text) with ⟨value, hvalue⟩ | hmisfit
    · exact .inl ⟨_, .set hnames hne hkey hvalue⟩
    · exact .inr (.badValue hnames hmisfit)
  cases i with
  | get name => exact hkeyed (.get name) fun key hne hkey => .inl ⟨_, .get hne hkey⟩
  | del name => exact hkeyed (.del name) fun key hne hkey => .inl ⟨_, .del hne hkey⟩
  | set argument value? =>
    cases value? with
    | some text => exact hset (.pair argument text)
    | none =>
      by_cases hmem : '=' ∈ argument.toList
      · obtain ⟨before, behind, hargument, hfree⟩ := List.eq_append_cons_of_mem hmem
        obtain rfl : argument = String.ofList before ++ "=" ++ String.ofList behind := by
          rw [← ofList_joined, ← hargument, String.ofList_toList]
        exact hset (.joined _ _ (by simpa using hfree))
      · exact .inr (.missingValue hmem)
  | load file? =>
    cases hdocument : s.document file? with
    | error f =>
      refine .inr (.unreadable fun text hoffers => ?_)
      rw [Sources.document_of_offers hoffers] at hdocument
      cases hdocument
    | ok text =>
      have hoffers := Sources.offers_of_document hdocument
      cases hparse : Payload.parseEntries text with
      | error err => exact .inr (.rejected hoffers hparse)
      | ok entries => exact .inl ⟨_, .load hoffers hparse⟩
  | dump file? => exact .inl ⟨_, .dump file?⟩

/-- **A command can be sent if there is nothing wrong with it**, and only then. -/
theorem asks_iff_not_unfit : (∃ command, Asks s i command) ↔ ¬Unfit s i := by
  constructor
  · rintro ⟨command, hasks⟩ hunfit
    obtain ⟨request, hrequest, hcheck⟩ := check_of_asks hasks
    rcases refused_of_unfit hunfit with ⟨f, hf⟩ | ⟨request', err, hrequest', hcheck'⟩
    · cases hrequest.symm.trans hf
    · obtain rfl := Except.ok.inj (hrequest.symm.trans hrequest')
      cases hcheck.symm.trans hcheck'
  · exact (asks_or_unfit s i).resolve_right

end Cli

end KvClient

import KvClient.Proofs.Cli.Request
import KvClient.Proofs.Client.Sending
import KvClient.Proofs.Rehearsal.Asking

/-!
# One command, at most one frame

Whatever the command, whatever it has to read from, whatever client carries it out and whatever the
peer, the transport and other callers do: a command that is wrong is found out before anything is
sent, and any other one writes its frame once, unless there is no link that can be used when it sets
about it.  What it prints, or leaves in a file, is the payload of its response and nothing else.

## How it works

* **What a command does to a client**: `Instruction.events`, which is one request at most, and
  `Instruction.outcome?`, which is made of what the call is told.
* **A command that is wrong leaves the client as it is**: `failsFirst_of_unfit`.
* **Any other one sends one command**: `Sends`, read off the phases of its call.
* **What a call is told is what its exchange came to**: `Sending.of_reply`, and so is the output.
* **A payload is left where it should be, and nowhere else**: `Delivered`, `deliver_cases`.
* **The program over a pipe is one such client**: `rehearses_of_execute`.
-/

namespace KvClient.Cli

open Client (writtenBy Happens Aborted Returns told? accepted linkEffects)

variable {s : Sources} {i : Instruction} {command : Command} {id : CallId}
  {c₀ c c' : Client} {es later : List Client.Event} {effects more : List Client.Effect}

/-! ## Carrying out a command -/

/-- What carrying out a command begins with, as the call `id`: its request, if it has one. -/
def Instruction.events (s : Sources) (i : Instruction) (id : CallId) : List Client.Event :=
  match i.request s with
  | .error _ => []
  | .ok request => [.issue id request]

/-- The outcome of a command once these are the effects; none as long as the call is told nothing. -/
def Instruction.outcome? (s : Sources) (i : Instruction) (id : CallId)
    (effects : List Client.Effect) : Option Outcome :=
  match i.request s with
  | .error f => some (.failure f s.files)
  | .ok _ => (told? id effects).map (i.conclude s.files)

/-- Where a command leaves the payload of its response, if it does: in a file, or else on the
output. -/
def Instruction.target? : Instruction → Option (Option String)
  | .get _ => some none
  | .dump file? => some file?
  | _ => none

/-! ## What a command leaves behind -/

/-- The payload is left where it should be, and nothing else is: it is printed as a line, or it is
what its file holds from now on, and all other files are as they were. -/
inductive Delivered (files : Files) (bytes : Bytes) : Option String → Outcome → Prop
  | printed : Delivered files bytes none ⟨0, bytes ++ [10], "", files⟩
  | written {path : String} {files' : Files} (write : files.write path bytes = .ok files')
      (wrote : files.Wrote path bytes files') :
      Delivered files bytes (some path) ⟨0, [], "", files'⟩

/-- The payload should be left in a file that cannot be written.  There is none to be read either. -/
inductive Undelivered (files : Files) (bytes : Bytes) : Option String → Outcome → Prop
  | refused {path : String} {fault : SystemFault} (write : files.write path bytes = .error fault)
      (absent : files.content? path = none) :
      Undelivered files bytes (some path) (.failure (.unwritable path fault) files)

theorem deliver_cases (bytes : Bytes) (files : Files) (file? : Option String) :
    Delivered files bytes file? (deliver bytes files file?) ∨
      Undelivered files bytes file? (deliver bytes files file?) := by
  cases file? with
  | none => exact .inl .printed
  | some path =>
    cases hwrite : files.write path bytes with
    | error fault =>
      rw [deliver, hwrite]
      exact .inr (.refused hwrite (Files.content?_of_write_error hwrite))
    | ok files' =>
      rw [deliver, hwrite]
      exact .inl (.written hwrite (Files.wrote_of_write hwrite))

theorem Undelivered.nothing_left {files : Files} {bytes : Bytes} {file? : Option String}
    {o : Outcome} (h : Undelivered files bytes file? o) : o.stdout = [] ∧ o.files = files := by
  cases h with
  | refused => exact ⟨rfl, rfl⟩

theorem conclude_of_target {file? : Option String} (h : i.target? = some file?) (files : Files)
    (bytes : Bytes) : i.conclude files (.ok (.bytes bytes)) = deliver bytes files file? := by
  cases i with
  | get | dump =>
    obtain rfl := Option.some.inj h
    rfl
  | set | del | load => cases h

theorem conclude_of_no_target (h : i.target? = none) (files : Files) (reply : Reply) :
    i.conclude files (.ok reply) = .silent files := by
  cases i with
  | get | dump => cases h
  | set | del | load => cases reply <;> rfl

/-- What an exchange yields comes from a response that tells of no error. -/
theorem reply_of_result {y : Yield} {settlement : Settlement} {reply : Reply}
    (h : .ok reply = y.result settlement) :
    ∃ bytes, settlement = .ok ⟨.ok, bytes⟩ ∧ y.reply bytes = .ok reply := by
  cases settlement with
  | error err => cases h
  | ok r =>
    obtain ⟨status, bytes⟩ := r
    cases status with
    | ok => exact ⟨bytes, rfl, h.symm⟩
    | serverError => cases h

/-! ## Commands that are wrong -/

/-- A command fails before it has an effect: nothing is written, the client is as it was, nothing is
printed, and no file is changed. -/
structure FailsFirst (s : Sources) (i : Instruction) (id : CallId) (c : Client)
    (es : List Client.Event) (effects : List Client.Effect) : Prop where
  nothing : writtenBy id c es = []
  unchanged : ∃ now, c.run (i.events s id) = some (c, now) ∧ linkEffects now = []
  told : ∃ f, i.outcome? s id effects = some (.failure f s.files)
  unanswered : ∀ reply, .finished id (.ok reply) ∉ effects

theorem failsFirst_of_unfit {config : Config}
    (hmade : c₀ = .new config ∨ c₀ = .withTransport config)
    (hrun : Run Client.step c₀ es c effects) (hunfit : Unfit s i) (hfresh : c.job? id = none)
    (hlater : Run Client.step c (i.events s id ++ later) c' more)
    (hnew : ∀ request, .issue id request ∉ later) :
    FailsFirst s i id c (i.events s id ++ later) more := by
  rcases refused_of_unfit hunfit with ⟨f, hf⟩ | ⟨request, err, hrequest, hcheck⟩
  · have hevents : i.events s id = [] := by rw [Instruction.events, hf]
    rw [hevents] at hlater ⊢
    refine ⟨?_, ⟨[], by rw [hevents]; rfl, rfl⟩, ⟨f, by rw [Instruction.outcome?, hf]⟩,
      fun reply => (Client.over_of_run hlater hfresh hnew).2 _⟩
    exact Client.writtenBy_eq_nil hmade hrun hfresh hlater hnew
  · have hevents : i.events s id = [.issue id request] := by rw [Instruction.events, hrequest]
    have hrefused : c.step (.issue id request) = some (c, [.finished id (.error err)]) := by
      simp [Client.step, Client.issue, hfresh, hcheck]
    have hfirst : Run Client.step c [.issue id request] c [.finished id (.error err)] :=
      .snoc .nil hrefused
    rw [hevents] at hlater ⊢
    obtain ⟨c₁, now, rest, hnow, hrest, rfl⟩ := hlater.of_append
    obtain ⟨rfl, rfl⟩ := hfirst.unique hnow
    refine ⟨?_, ⟨[.finished id (.error err)], ?_, rfl⟩, ⟨.failed i.verb err, ?_⟩,
      fun reply hr => ?_⟩
    · rw [writtenBy, log_append hfirst]
      show log _ _ c ([] ++ [_]) ++ writtenBy id c later = []
      rw [log_snoc .nil hrefused, Client.writtenIn_of_silent hrefused rfl,
        Client.writtenBy_eq_nil hmade hrun hfresh hrest hnew]
      rfl
    · rw [hevents, Client.run_eq_some_iff]
      exact hfirst
    · rw [Instruction.outcome?, hrequest]
      simp only [told?, List.cons_append, List.findSome?_cons, if_pos]
      rfl
    · rcases List.mem_append.mp hr with hnow | hlater
      · simp at hnow
      · exact (Client.over_of_run hrest hfresh hnew).2 _ hlater

/-! ## Commands that are sent -/

/-- A call writes one frame.  It has written a part of it, which is nothing unless the call has set
about its job and found a link that can be used; and if it has, all of it is written when the call is
over, unless its exchange was aborted. -/
structure Sends (command : Command) (id : CallId) (c : Client) (es : List Client.Event)
    (c' : Client) : Prop where
  part : writtenBy id c es <+: command.encode
  nothing : (∀ c₁, Happens c es (.act id) c₁ → c₁.isLive = false) → writtenBy id c es = []
  whole : c'.job? id = none → ∀ c₁, Happens c es (.act id) c₁ → c₁.isLive = true →
    ¬Aborted id c es → writtenBy id c es = command.encode

/-- What holds of a command that is carried out by a client `c` as the call `id`, once the events
`es` have led the client to `c'`. -/
structure Execution (s : Sources) (i : Instruction) (id : CallId) (c : Client)
    (es : List Client.Event) (c' : Client) (effects : List Client.Effect) : Prop where
  /-- A command can be sent if there is nothing wrong with it. -/
  fit : (∃ command, Asks s i command) ↔ ¬Unfit s i
  /-- What is wrong is found out before anything else happens. -/
  unfit : Unfit s i → FailsFirst s i id c es effects
  /-- What can be sent is one frame. -/
  sends : ∀ command, Asks s i command → Sends command id c es c'
  /-- If nobody is at the gate and nobody else comes to send a command, nothing else is written. -/
  alone : c.gate = .free →
    (∀ other command, (other, command) ∈ Client.checked es → other = id) →
    accepted effects = writtenBy id c es
  /-- Nothing is printed and no file is changed but with the payload that the exchange of the call
  came to, by a command that is to leave it there. -/
  output : ∀ o, i.outcome? s id effects = some o → (o.stdout = [] ∧ o.files = s.files) ∨
    ∃ file? bytes, i.target? = some file? ∧ Returns id c es (.ok ⟨.ok, bytes⟩) ∧
      told? id effects = some (.ok (.bytes bytes)) ∧ Delivered s.files bytes file? o
  /-- If such a command is told a reply, the frame is written to its end, and the reply is that
  payload, which is left where it should be unless its file cannot be written. -/
  delivers : ∀ file? reply, i.target? = some file? → told? id effects = some (.ok reply) →
    ∃ bytes o, reply = .bytes bytes ∧ Returns id c es (.ok ⟨.ok, bytes⟩) ∧
      (∃ command, Asks s i command ∧ writtenBy id c es = command.encode) ∧
      i.outcome? s id effects = some o ∧
      (Delivered s.files bytes file? o ∨ Undelivered s.files bytes file? o)

/-- The call of a command that can be sent goes through its phases. -/
theorem sending_of_asks {config : Config}
    (hmade : c₀ = .new config ∨ c₀ = .withTransport config)
    (hrun : Run Client.step c₀ es c effects) (hasks : Asks s i command)
    (hlater : Run Client.step c (i.events s id ++ later) c' more)
    (hnew : ∀ request, .issue id request ∉ later) :
    Client.Sending c (i.events s id ++ later) c' id command i.yield more := by
  obtain ⟨request, hrequest, hcheck⟩ := check_of_asks hasks
  have hevents : i.events s id = [.issue id request] := by rw [Instruction.events, hrequest]
  rw [hevents] at hlater ⊢
  exact Client.sending_of_run hmade hrun hcheck hlater hnew

/-- **A command that is told a reply has written its frame**, and the reply is what its exchange has
come to. -/
theorem returned_of_told {config : Config}
    (hmade : c₀ = .new config ∨ c₀ = .withTransport config)
    (hrun : Run Client.step c₀ es c effects) (hfresh : c.job? id = none)
    (hlater : Run Client.step c (i.events s id ++ later) c' more)
    (hnew : ∀ request, .issue id request ∉ later) {reply : Reply}
    (htold : told? id more = some (.ok reply)) :
    i.outcome? s id more = some (i.conclude s.files (.ok reply)) ∧
      ∃ command bytes, Asks s i command ∧
        writtenBy id c (i.events s id ++ later) = command.encode ∧
        Returns id c (i.events s id ++ later) (.ok ⟨.ok, bytes⟩) ∧
        i.yield.reply bytes = .ok reply := by
  have hr := Client.mem_of_told? htold
  rcases asks_or_unfit s i with ⟨command, hasks⟩ | hunfit
  · obtain ⟨request, hrequest, -⟩ := check_of_asks hasks
    obtain ⟨hwhole, settlement, hreturns, hresult⟩ :=
      (sending_of_asks hmade hrun hasks hlater hnew).of_reply hr
    obtain ⟨bytes, rfl, hreply⟩ := reply_of_result hresult
    refine ⟨?_, command, bytes, hasks, hwhole, hreturns, hreply⟩
    rw [Instruction.outcome?, hrequest, htold]
    rfl
  · exact absurd hr ((failsFirst_of_unfit hmade hrun hunfit hfresh hlater hnew).unanswered reply)

/-- A command that leaves a payload is told one. -/
theorem yield_of_target {file? : Option String} (h : i.target? = some file?) :
    i.yield = .payload := by
  cases i with
  | get | dump => rfl
  | set | del | load => cases h

theorem Execution.of_run {config : Config}
    (hmade : c₀ = .new config ∨ c₀ = .withTransport config)
    (hrun : Run Client.step c₀ es c effects) (hfresh : c.job? id = none)
    (hlater : Run Client.step c (i.events s id ++ later) c' more)
    (hnew : ∀ request, .issue id request ∉ later) :
    Execution s i id c (i.events s id ++ later) c' more where
  fit := asks_iff_not_unfit
  unfit hunfit := failsFirst_of_unfit hmade hrun hunfit hfresh hlater hnew
  sends command hasks := by
    have hsending := sending_of_asks hmade hrun hasks hlater hnew
    exact ⟨hsending.isPrefix, hsending.nothing_of_dead,
      fun hover c₁ hacts hlive hsound => hsending.whole hover hacts hlive hsound⟩
  alone hfree halone := Client.accepted_eq_writtenBy hmade hrun hfree hlater halone
  output o ho := by
    cases htold : told? id more with
    | none =>
      rw [Instruction.outcome?, htold] at ho
      split at ho
      · obtain rfl := Option.some.inj ho
        exact .inl ⟨rfl, rfl⟩
      · cases ho
    | some r =>
      cases r with
      | error err =>
        rw [Instruction.outcome?, htold] at ho
        split at ho
        · obtain rfl := Option.some.inj ho
          exact .inl ⟨rfl, rfl⟩
        · obtain rfl := Option.some.inj ho
          exact .inl ⟨rfl, rfl⟩
      | ok reply =>
        obtain ⟨hconclude, command, bytes, -, -, hreturns, hreply⟩ :=
          returned_of_told hmade hrun hfresh hlater hnew htold
        obtain rfl := Option.some.inj (hconclude.symm.trans ho)
        cases htarget : i.target? with
        | none =>
          rw [conclude_of_no_target htarget]
          exact .inl ⟨rfl, rfl⟩
        | some file? =>
          rw [yield_of_target htarget] at hreply
          obtain rfl := Except.ok.inj hreply
          rw [conclude_of_target htarget]
          rcases deliver_cases bytes s.files file? with hdelivered | hundelivered
          · exact .inr ⟨file?, bytes, rfl, hreturns, rfl, hdelivered⟩
          · exact .inl hundelivered.nothing_left
  delivers file? reply htarget htold := by
    obtain ⟨hconclude, command, bytes, hasks, hwhole, hreturns, hreply⟩ :=
      returned_of_told hmade hrun hfresh hlater hnew htold
    rw [yield_of_target htarget] at hreply
    obtain rfl := Except.ok.inj hreply
    rw [conclude_of_target htarget] at hconclude
    exact ⟨bytes, _, rfl, hreturns, ⟨command, hasks, hwhole⟩, hconclude,
      deliver_cases bytes s.files file?⟩

/-! ## The program over a pipe -/

/-- Two commands do the same to any client, and leave the same behind. -/
structure Alike (i j : Instruction) : Prop where
  events : ∀ s id, i.events s id = j.events s id
  outcome : ∀ s id effects, i.outcome? s id effects = j.outcome? s id effects
  rehearsed : ∀ config s manner,
    Rehearsal.execute ⟨config, i⟩ s manner = Rehearsal.execute ⟨config, j⟩ s manner

end KvClient.Cli

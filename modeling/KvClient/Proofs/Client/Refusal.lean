import KvClient.Proofs.Client.Late

/-!
# Errors of validation

The kind of an error says whether an argument was not valid.  A caller that is told so may try again
without harm, if nothing was sent; and so it is for all requests but one.  A request for all entries
parses what the peer has answered, and a fault in there is told by an error of the same kind.

## How it works

* **Nothing that happens on a link is a matter of validation**: `Link.Blameless`, which every step
  keeps (`Link.Moves.blameless`).
* **A call that has passed its check finishes in one step, while it holds the gate**: `Course`,
  `course_of_run`.
* **An error of validation comes from the check, or from the answer to an export**:
  `validation_of_run`.
-/

namespace KvClient

namespace Link

/-! ## Errors on a link -/

/-- No error that a link has in store is one of validation. -/
structure Blameless (l : Link) : Prop where
  exchange : ∀ x err, l.exchange? = some x → x.settlement? = some (.error err) →
    err.isValidation = false
  reader : ∀ cause, l.reader = .stopping cause → cause.isValidation = false

variable {l l' : Link} {e : Event} {es : List Event} {out : List Effect}

theorem isValidation_of_handOut {a : Accumulator} {responses : List Response} {cause : Error}
    (h : ReaderPhase.handOut a responses = .stopping cause) : cause.isValidation = false := by
  cases responses with
  | cons r rest => simp [ReaderPhase.handOut] at h
  | nil =>
    rw [ReaderPhase.handOut] at h
    split at h
    · obtain rfl := by simpa using h
      rfl
    · simp at h

theorem isValidation_of_afterChunk {a : Accumulator} {chunk : Bytes} {cause : Error}
    (h : ReaderPhase.afterChunk a chunk = .stopping cause) : cause.isValidation = false := by
  unfold ReaderPhase.afterChunk at h
  split at h
  · exact isValidation_of_handOut h
  · obtain rfl := by simpa using h
    rfl

theorem isValidation_of_afterEnd {a : Accumulator} {cause : Error}
    (h : ReaderPhase.afterEnd a = .stopping cause) : cause.isValidation = false := by
  unfold ReaderPhase.afterEnd at h
  split at h
  · obtain rfl := by simpa using h
    rfl
  · obtain rfl := by simpa using h
    rfl

/-- An exchange that is told of no error of validation has none in store. -/
theorem Blameless.told (h : Blameless l) {t? : Option Ticket} {s : Settlement}
    (hs : ∀ err, s = .error err → err.isValidation = false) {x' : Exchange} {err : Error}
    (hx' : l.exchange?.map (·.told t? s) = some x') (herr : x'.settlement? = some (.error err)) :
    err.isValidation = false := by
  obtain ⟨x, hx, rfl⟩ := Option.map_eq_some_iff.mp hx'
  by_cases ht : t? = some x.ticket
  · rw [Exchange.told, if_pos ht] at herr
    exact hs err (Option.some.inj herr)
  · rw [Exchange.told, if_neg ht] at herr
    exact h.exchange x err hx herr

theorem Blameless.closeWith (h : Blameless l) {cause : Error}
    (hcause : cause.isValidation = false) : Blameless (l.closeWith cause).1 where
  exchange x err hx herr := by
    refine h.told ?_ ((exchange?_closeWith l cause).symm.trans hx) herr
    rintro err' ⟨⟩
    exact hcause
  reader := by
    rw [reader_closeWith]
    exact h.reader

theorem Blameless.shut (h : Blameless l) {cause : Error} (hcause : cause.isValidation = false) :
    Blameless (l.shut cause) where
  exchange x err hx := by simp [Link.shut] at hx
  reader := (h.closeWith hcause).reader

/-- **No step of a link brings an error of validation.** -/
theorem Moves.blameless (hm : Moves l e l' out) (h : Blameless l) : Blameless l' := by
  cases hm with
  | registered frame idle live =>
    refine ⟨fun x err hx herr => ?_, h.reader⟩
    obtain rfl := Option.some.inj hx
    simp at herr
  | refused | shutdownFinished => exact ⟨h.exchange, h.reader⟩
  | wrote x count running | flushed x running =>
    refine ⟨fun x' err hx' herr => ?_, h.reader⟩
    obtain rfl := Option.some.inj hx'
    exact h.exchange x err running herr
  | writeFailed | expired | abandoned => exact h.shut rfl
  | collected => exact ⟨fun x err hx => by simp at hx, h.reader⟩
  | received => exact ⟨h.exchange, fun cause hc => isValidation_of_afterChunk hc⟩
  | streamEnded => exact ⟨h.exchange, fun cause hc => isValidation_of_afterEnd hc⟩
  | readFailed =>
    refine ⟨h.exchange, fun cause hc => ?_⟩
    obtain rfl := ReaderPhase.stopping.inj hc
    rfl
  | settled a r rest t =>
    exact ⟨fun x err hx herr => h.told (by simp) hx herr,
      fun cause hc => isValidation_of_handOut hc⟩
  | dropped => exact ⟨h.exchange, fun cause hc => isValidation_of_handOut hc⟩
  | stopped cause stopping =>
    have hclosed := h.closeWith (h.reader cause stopping)
    exact ⟨hclosed.exchange, fun cause' hc => by simp at hc⟩
  | closed | shutdownBegun =>
    have hclosed : Blameless (l.closeWith .connectionClosed).1 := h.closeWith rfl
    exact ⟨hclosed.exchange, hclosed.reader⟩

theorem blameless_of_run {options : LinkOptions} (hrun : Run step (new options) es l out) :
    Blameless l := by
  induction hrun with
  | nil => exact ⟨fun x err hx => by simp [new] at hx, fun cause hc => by simp [new] at hc⟩
  | snoc hrun hstep ih => exact (moves_of_step hstep).blameless ih

/-- A request that comes to an error does not come to one of validation. -/
theorem Moves.isValidation_of_returned (hm : Moves l e l' out) (h : Blameless l) {err : Error}
    (hreturned : Client.returned? out = some (.error err)) : err.isValidation = false := by
  cases hm with
  | refused =>
    obtain rfl : Error.connectionClosed = err := by simpa [Client.returned?] using hreturned
    rfl
  | writeFailed | expired =>
    rw [returned?_closeWith_append] at hreturned
    obtain rfl := by simpa [Client.returned?] using hreturned
    rfl
  | collected x s running flushed settled =>
    obtain rfl : s = .error err := by simpa [Client.returned?] using hreturned
    exact h.exchange x err running settled
  | abandoned =>
    rw [returned?_closeWith_append] at hreturned
    simp [Client.returned?] at hreturned
  | stopped | closed | shutdownBegun => simp [returned?_closeWith] at hreturned
  | _ => simp [Client.returned?] at hreturned

/-- A request that comes to a response returns it. -/
theorem mem_of_returned? {r : Response} (h : Client.returned? out = some (.ok r)) :
    ∃ t, .returned t (.ok r) ∈ out := by
  induction out with
  | nil => simp [Client.returned?] at h
  | cons effect rest ih =>
    cases effect with
    | returned t s =>
      obtain rfl : s = .ok r := by simpa [Client.returned?] using h
      exact ⟨t, List.mem_cons_self ..⟩
    | refused => simp [Client.returned?] at h
    | _ =>
      obtain ⟨t, ht⟩ := ih h
      exact ⟨t, List.mem_cons_of_mem _ ht⟩

end Link

/-! ## Errors of an exchange -/

/-- The entries of a payload that has them not is a fault of its encoding, or of the document. -/
theorem entriesOfPayload_eq_error {payload : Bytes} {err : Error}
    (h : entriesOfPayload payload = .error err) (hv : err.isValidation = true) :
    ∃ text, Utf8.decode payload = .ok text ∧ Payload.parseEntries text = .error err := by
  unfold entriesOfPayload at h
  by_cases hempty : payload.isEmpty = true
  · simp [hempty] at h
  · rw [if_neg hempty] at h
    cases hdecode : Utf8.decode payload with
    | error fault =>
      obtain rfl : Error.malformed (.notText fault) = err := by simpa [hdecode] using h
      simp [Error.isValidation, Error.code] at hv
    | ok text =>
      rw [hdecode] at h
      exact ⟨text, rfl, h⟩

/-- An exchange yields an error of validation only if entries were asked for, and the response has
none that can be read. -/
theorem Yield.result_eq_validation {y : Yield} {s : Settlement} {err : Error}
    (hs : ∀ err, s = .error err → err.isValidation = false) (h : y.result s = .error err)
    (hv : err.isValidation = true) :
    y = .entries ∧ ∃ payload text, s = .ok ⟨.ok, payload⟩ ∧ Utf8.decode payload = .ok text ∧
      Payload.parseEntries text = .error err := by
  cases s with
  | error cause =>
    obtain rfl : cause = err := by simpa [Yield.result] using h
    simp [hs cause rfl] at hv
  | ok r =>
    obtain ⟨status, payload⟩ := r
    cases status with
    | serverError =>
      obtain rfl := by simpa [Yield.result, Response.result] using h
      simp [Error.isValidation, Error.code] at hv
    | ok =>
      have hreply : y.reply payload = .error err := h
      cases y with
      | nothing | payload => simp [Yield.reply] at hreply
      | entries =>
        cases hentries : entriesOfPayload payload with
        | ok es => simp [Yield.reply, hentries, Except.map] at hreply
        | error cause =>
          obtain rfl : cause = err := by simpa [Yield.reply, hentries, Except.map] using hreply
          obtain ⟨text, hdecode, hparse⟩ := entriesOfPayload_eq_error hentries hv
          exact ⟨rfl, payload, text, rfl, hdecode, hparse⟩

/-- What is made of a command, if it can be made, is an exchange. -/
theorem Job.eq_exchange_of_map {made : Except Error Command} {y : Yield} {job : Job}
    (h : made.map (Job.exchange · y) = .ok job) : ∃ command, job = .exchange command y := by
  cases made with
  | error cause => simp [Except.map] at h
  | ok command => exact ⟨command, (Except.ok.inj h).symm⟩

/-- Only a request for all entries asks for entries. -/
theorem Request.eq_dumpEntries_of_check {request : Request} {command : Command}
    (h : request.check = .ok (.exchange command .entries)) :
    request = .dumpEntries ∧ command = .dump := by
  cases request with
  | dumpEntries => exact ⟨rfl, by simpa [Request.check, eq_comm] using h⟩
  | get | set | del | load =>
    obtain ⟨command', hjob⟩ := Job.eq_exchange_of_map h
    simp at hjob
  | loadDatum d =>
    rw [Request.check] at h
    split at h
    · simp at h
    · obtain ⟨command', hjob⟩ := Job.eq_exchange_of_map h
      simp at hjob
  | _ => simp [Request.check] at h

/-- Only requests that connect become jobs that do. -/
theorem Request.connects_of_check {request : Request} {credentials? : Option Credentials}
    (h : request.check = .ok (.connect credentials?)) :
    request = .connect ∨ ∃ credentials, request = .connectWith credentials := by
  cases request with
  | connect => exact .inl rfl
  | connectWith credentials => exact .inr ⟨credentials, rfl⟩
  | get | set | del | load =>
    obtain ⟨command, hjob⟩ := Job.eq_exchange_of_map h
    simp at hjob
  | loadDatum d =>
    rw [Request.check] at h
    split at h
    · simp at h
    · obtain ⟨command, hjob⟩ := Job.eq_exchange_of_map h
      simp at hjob
  | _ => simp [Request.check] at h

namespace Client

variable {c₀ c c' : Client} {e : Event} {es later : List Event} {effects more : List Effect}
  {l : Link} {id : CallId} {job : Job}

/-! ## How a call finishes -/

/-- What a run makes of a call at the gate: it stays there, or is over.  If it has finished, it did
so in one step, while it held the gate. -/
inductive Course (c : Client) (later : List Event) (c' : Client) (id : CallId) (job : Job)
    (more : List Effect) : Prop
  | stays (here : id ∈ c'.gate.callers) (wants : c'.job? id = some job)
      (unfinished : ∀ r, .finished id r ∉ more)
  | ended (absent : c'.job? id = none)
      (finishing : ∀ r, .finished id r ∈ more → ∃ now e c₁ c₂ before out after,
        Run step c now c₁ before ∧ c₁.step e = some (c₂, out) ∧ more = before ++ out ++ after ∧
        c₁.gate.holder? = some id ∧ c₁.job? id = some job ∧ .finished id r ∈ out)

theorem course_of_run (hrun : Run step c later c' more) (hhere : id ∈ c.gate.callers)
    (hwants : c.job? id = some job) (hnew : ∀ request, .issue id request ∉ later) :
    Course c later c' id job more := by
  induction hrun with
  | nil => exact .stays hhere hwants (by simp)
  | @snoc now c₁ before e c₂ out hrun hstep ih =>
    simp only [List.mem_append, List.mem_singleton, not_or] at hnew
    have hm := moves_of_step hstep
    cases ih fun request => (hnew request).1 with
    -- What the call is told by now, it is told by this step.
    | stays here wants unfinished =>
      have hnow : ∀ {r}, .finished id r ∈ before ++ out → .finished id r ∈ out :=
        fun hr => (List.mem_append.mp hr).resolve_left (unfinished _)
      cases hm.fate here wants with
      | stays here' wants' unfinished' =>
        exact .stays here' wants' fun r hr => unfinished' r (hnow hr)
      | finishes r holds absent finished =>
        refine .ended absent fun r' hr' => ?_
        exact ⟨now, e, c₁, c₂, before, out, [], hrun, hstep, by simp, holds, wants, hnow hr'⟩
      | calledOff absent cancelled unfinished' =>
        exact .ended absent fun r hr => absurd (hnow hr) (unfinished' r)
    -- It has been told all it will be.
    | ended absent finishing =>
      obtain ⟨habsent, hunfinished⟩ := hm.stays_over absent fun request he =>
        (hnew request).2 he.symm
      refine .ended habsent fun r hr => ?_
      obtain ⟨now', e', c₃, c₄, before', out', after, hrun', hstep', rfl, hends⟩ :=
        finishing r ((List.mem_append.mp hr).resolve_right (hunfinished r))
      exact ⟨now', e', c₃, c₄, before', out', after ++ out, hrun', hstep', by simp, hends⟩

/-- A call that is over is told nothing more until it comes again. -/
theorem over_of_run (hrun : Run step c later c' more) (habsent : c.job? id = none)
    (hnew : ∀ request, .issue id request ∉ later) :
    c'.job? id = none ∧ ∀ r, .finished id r ∉ more := by
  induction hrun with
  | nil => exact ⟨habsent, by simp⟩
  | snoc hrun hstep ih =>
    simp only [List.mem_append, List.mem_singleton, not_or] at hnew
    obtain ⟨habsent', hunfinished⟩ := ih fun request => (hnew request).1
    obtain ⟨hgone, hnothing⟩ := (moves_of_step hstep).stays_over habsent' fun request he =>
      (hnew request).2 he.symm
    exact ⟨hgone, fun r hr => (List.mem_append.mp hr).elim (hunfinished r) (hnothing r)⟩

/-! ## The step that brings the error -/

/-- A call that acts and is told of an error without having used the link was told that there is
none. -/
theorem error_of_act {err : Error} (h : c.act id = some (c', [.finished id (.error err)]))
    (hwants : c.job? id = some job) (hlinkless : job.command?.isSome = true → c.link? = none) :
    err = .connectionClosed := by
  unfold act at h
  by_cases hholds : c.gate.holder? = some id
  · rw [if_pos hholds] at h
    split at h
    · next command yield l hjob hsession =>
      obtain rfl : job = .exchange command yield := by simpa [hwants] using hjob
      have hnone := hlinkless rfl
      simp [link?, hsession] at hnone
    · obtain ⟨-, hresult⟩ := by simpa [finish] using h
      exact hresult.symm
    · simp [finish] at h
    · next l hjob hsession =>
      obtain ⟨command, yield, s, hexchange, -⟩ := finished_of_onLink h (List.mem_singleton_self _)
      simp [hjob] at hexchange
    · simp [finish] at h
    · by_cases hlive : c.isLive = true
      · simp [hlive, finish] at h
      · simp [hlive] at h
    · simp at h
  · simp [hholds] at h

/-- What lets a call finish with an error of validation that has passed its check. -/
theorem validation_of_step {err : Error} (hstep : c.step e = some (c', effects))
    (hblameless : ∀ l, c.session = .connected l → Link.Blameless l)
    (hholds : c.gate.holder? = some id) (hwants : c.job? id = some job)
    (hjob : ∀ credentials?, job ≠ .connect credentials?)
    (hr : .finished id (.error err) ∈ effects) (hv : err.isValidation = true) :
    ∃ command l le l' payload text t, job = .exchange command .entries ∧
      c.session = .connected l ∧ Link.Moves l le l' (linkEffects effects) ∧
      .link (.returned t (.ok ⟨.ok, payload⟩)) ∈ effects ∧ Utf8.decode payload = .ok text ∧
      Payload.parseEntries text = .error err := by
  have hself : ∀ {other : CallId} {job' : Job}, c.gate.holder? = some other →
      c.job? other = some job' → other = id ∧ job' = job := eq_of_holds hholds hwants
  cases moves_of_step hstep with
  | invalid other request err' refused absent =>
    obtain ⟨rfl, -⟩ := by simpa using hr
    simp [hwants] at absent
  | completed e other command yield s le l l' out holds wants cause session moves returned =>
    obtain ⟨rfl, rfl⟩ := hself holds wants
    have hresult : Except.error err = yield.result s := by simpa using hr
    obtain ⟨rfl, payload, text, rfl, hdecode, hparse⟩ := Yield.result_eq_validation
      (fun err' hs => moves.isValidation_of_returned (hblameless l session) (hs ▸ returned))
      hresult.symm hv
    obtain ⟨t, ht⟩ := Link.mem_of_returned? returned
    refine ⟨command, l, le, l', payload, text, t, rfl, session, ?_, by simp [ht], hdecode, hparse⟩
    rw [linkEffects_map_append]
    show Link.Moves l le l' (out ++ [])
    rw [List.append_nil]
    exact moves
  | answered e other job' result holds wants linkless cause =>
    obtain ⟨rfl, rfl⟩ := hself holds wants
    obtain rfl : Except.error err = result := by simpa using hr
    rcases cause with rfl | ⟨err', rfl⟩
    · obtain rfl : err = .connectionClosed :=
        error_of_act hstep wants linkless
      simp [Error.isValidation, Error.code] at hv
    · -- Only calls that connect are told what dialing came to.
      have hdial : c.dialed other (.error err') ≠ none := by
        simp only [step] at hstep
        simp [hstep]
      cases job' with
      | connect credentials? => exact absurd rfl (hjob credentials?)
      | _ => simp [dialed, wants] at hdial
  | _ => simp at hr

/-! ## The result -/

/-- A command whose response is returned was written to its end, on the link that is open. -/
theorem written_of_returned {config : Config} (hmade : c₀ = new config ∨ c₀ = withTransport config)
    (hrun : Run step c₀ es c effects) (hsession : c.session = .connected l)
    (hholds : c.gate.holder? = some id) {command : Command} (hwants : c.command? id = some command)
    {le : Link.Event} {l' : Link} {out : List Effect}
    (hm : Link.Moves l le l' (linkEffects out)) {t : Ticket} {r : Response}
    (ht : .link (.returned t (.ok r)) ∈ out) :
    ∃ before since, effects = before ++ since ∧
      Link.acceptedOf t (linkEffects (since ++ out)) = command.encode := by
  obtain ⟨options, les, before, since, rfl, hlink, hserved⟩ := ownRun_of_run hmade hrun hsession
  have hreturned : .returned t (.ok r) ∈ linkEffects out := List.mem_filterMap.mpr ⟨_, ht, rfl⟩
  obtain ⟨x, hx, rfl, -, -, hsilent, hcases⟩ := hm.of_returned hreturned
  -- Only an error can be returned before the frame is written to its end.
  have hflushed : x.flushed = true := by
    rcases hcases with ⟨err, herr, -⟩ | ⟨hflushed, -⟩
    · simp at herr
    · exact hflushed
  obtain ⟨other, command', hother, hcommand, hframe⟩ := hserved x hx
  obtain rfl : id = other := by simpa [hholds] using hother
  obtain rfl : command = command' := by simpa [hwants] using hcommand
  have hwriting := (Link.written_of_run hlink).running x hx
  refine ⟨before, since, rfl, ?_⟩
  rw [linkEffects_append, Link.acceptedOf_append, Link.acceptedOf_eq_nil hsilent, List.append_nil,
    hwriting.own, hwriting.whole hflushed, List.take_length, hframe]

/-- Where an error of validation comes from that a call was told of. -/
inductive Blame (c : Client) (id : CallId) (request : Request) (err : Error)
    (effects : List Effect) : Prop
  /-- The request was refused by its check, which has left everything as it was. -/
  | refused (check : request.check = .error err)
      (unchanged : c.step (.issue id request) = some (c, [.finished id (.error err)]))
  /-- All entries were asked for.  The frame was written to its end, and the peer has answered with
  a text that does not list entries. -/
  | unreadable (before since after : List Effect) (t : Ticket) (payload : Bytes) (text : String)
      (request : request = .dumpEntries) (split : effects = before ++ since ++ after)
      (written : Link.acceptedOf t (linkEffects since) = Command.dump.encode)
      (answered : .link (.returned t (.ok ⟨.ok, payload⟩)) ∈ since)
      (decoded : Utf8.decode payload = .ok text) (unlisted : Payload.parseEntries text = .error err)

/-- **An error of validation means that the request was refused before anything was sent**, unless
all entries were asked for and the peer has answered with a text that does not list any. -/
theorem validation_of_run {config : Config} (hmade : c₀ = new config ∨ c₀ = withTransport config)
    (hrun : c₀.run es = some (c, effects)) {request : Request} (hconnect : request ≠ .connect)
    (hwith : ∀ credentials, request ≠ .connectWith credentials)
    (hlater : c.run (.issue id request :: later) = some (c', more))
    (hnew : ∀ request', .issue id request' ∉ later) {err : Error}
    (hr : .finished id (.error err) ∈ more) (hv : err.isValidation = true) :
    Blame c id request err (effects ++ more) := by
  have hrun := run_eq_some_iff.mp hrun
  rw [run_eq_runWith] at hlater
  obtain ⟨c₁, now, rest, hissue, hrest, rfl⟩ := runWith_cons.mp hlater
  have hrest := runWith_eq_some_iff.mp hrest
  cases hcheck : request.check with
  | error cause =>
    have habsent : c.job? id = none := by
      cases hjob : c.job? id with
      | none => rfl
      | some job => simp [step, hjob] at hissue
    -- The check comes before the gate, so that the whole client is as it was.
    have hrefused : c.step (.issue id request) = some (c, [.finished id (.error cause)]) := by
      simp [step, issue, habsent, hcheck]
    rw [hrefused] at hissue
    obtain ⟨rfl, rfl⟩ := by simpa using hissue
    have hunfinished := (over_of_run hrest habsent hnew).2
    obtain rfl : err = cause := by simpa [hunfinished] using hr
    exact .refused hcheck hrefused
  | ok job =>
    obtain ⟨hhere, hwants, hunfinished⟩ := atGate_of_issue hcheck hissue
    have hr := (List.mem_append.mp hr).resolve_left (hunfinished _)
    cases course_of_run hrest hhere hwants hnew with
    | stays here wants unfinished => exact absurd hr (unfinished _)
    | ended absent finishing =>
      obtain ⟨es', e, c₂, c₃, before, out, after, hrun', hstep, rfl, hholds₂, hwants₂, hout⟩ :=
        finishing _ hr
      have hall := (hrun.snoc hissue).append hrun'
      have hblameless : ∀ l, c₂.session = .connected l → Link.Blameless l := by
        intro l hsession
        obtain ⟨options, les, before, since, -, hlink, -⟩ := ownRun_of_run hmade hall hsession
        exact Link.blameless_of_run hlink
      have hjob : ∀ credentials?, job ≠ .connect credentials? := by
        rintro credentials? rfl
        rcases Request.connects_of_check hcheck with rfl | ⟨credentials, rfl⟩
        · exact hconnect rfl
        · exact hwith credentials rfl
      obtain ⟨command, l, le, l', payload, text, t, rfl, hsession, hm, ht, hdecode, hparse⟩ :=
        validation_of_step hstep hblameless hholds₂ hwants₂ hjob hout hv
      obtain ⟨rfl, rfl⟩ := Request.eq_dumpEntries_of_check hcheck
      obtain ⟨before', since, hsplit, hwritten⟩ := written_of_returned hmade hall hsession hholds₂
        (command?_of_job? hwants₂) hm ht
      refine .unreadable before' (since ++ out) after t payload text rfl ?_ hwritten
        (List.mem_append_right _ ht) hdecode hparse
      calc effects ++ (now ++ (before ++ out ++ after))
          = (effects ++ now ++ before) ++ out ++ after := by simp
        _ = (before' ++ since) ++ out ++ after := by rw [hsplit]
        _ = before' ++ (since ++ out) ++ after := by simp

/-- While a command is being written, a key that holds the terminator is refused. -/
theorem validation_of_run_refused :
    let load : List Event := [.issue 0 (.load (.text "[]")), .act 0, .link (.accept 2)]
    ∃ c effects, (withTransport .default).run load = some (c, effects) ∧
      c.run [.issue 1 (.get [107, 4])] =
        some (c, [.finished 1 (.error (.reservedByte "key"))]) ∧
      Blame c 1 (.get [107, 4]) (.reservedByte "key")
        (effects ++ [.finished 1 (.error (.reservedByte "key"))]) := by
  intro load
  have hloading : ((withTransport .default).run load).map (fun p => (p.1.job? 1).isNone) =
      some true := by decide +kernel
  obtain ⟨⟨c, effects⟩, hrun, habsent⟩ := Option.map_eq_some_iff.mp hloading
  have hcheck : Request.check (.get [107, 4]) = .error (.reservedByte "key") := rfl
  have hissue : c.run [.issue 1 (.get [107, 4])] =
      some (c, [.finished 1 (.error (.reservedByte "key"))]) := by
    simp [run, step, issue, hcheck, Option.isNone_iff_eq_none.mp habsent]
  exact ⟨c, effects, hrun, hissue, validation_of_run (.inr rfl) hrun (by simp) (by simp) hissue
    (by simp) (by simp) rfl⟩

/-- Whether a call is told of an error of validation. -/
def Effect.tellsInvalid (id : CallId) : Effect → Bool
  | .finished other (.error err) => other == id && err.isValidation
  | _ => false

theorem Effect.eq_finished_of_tellsInvalid {effect : Effect} (h : effect.tellsInvalid id = true) :
    ∃ err, effect = .finished id (.error err) ∧ err.isValidation = true := by
  unfold tellsInvalid at h
  split at h
  · next other err =>
    obtain ⟨rfl, hv⟩ := by simpa using h
    exact ⟨err, rfl, hv⟩
  · simp at h

/-- **An error of validation does not mean that nothing was sent.**  All entries are asked for, and
the peer answers with an object. -/
theorem validation_error_after_writing :
    ∃ c effects err, (withTransport .default).run [.issue 0 .dumpEntries, .act 0,
        .link (.accept 772), .link .flush, .link (.receive [79, 123, 125, 4]), .link .deliver,
        .link .collect] = some (c, effects) ∧
      .finished 0 (.error err) ∈ effects ∧ err.isValidation = true ∧
      accepted effects = Command.dump.encode := by
  let es : List Event := [.issue 0 .dumpEntries, .act 0, .link (.accept 772), .link .flush,
    .link (.receive [79, 123, 125, 4]), .link .deliver, .link .collect]
  have hseen : ((withTransport .default).run es).map
      (fun p => (accepted p.2, p.2.any (Effect.tellsInvalid 0))) =
        some (Command.dump.encode, true) := by decide +kernel
  obtain ⟨⟨c, effects⟩, hrun, hboth⟩ := Option.map_eq_some_iff.mp hseen
  obtain ⟨haccepted, hany⟩ := Prod.mk.inj hboth
  obtain ⟨effect, hmem, htells⟩ := List.any_eq_true.mp hany
  obtain ⟨err, rfl, hv⟩ := Effect.eq_finished_of_tellsInvalid htells
  exact ⟨c, effects, err, hrun, hmem, hv, haccepted⟩

end Client

end KvClient

import KvClient.Proofs.Client.Exchanging
import KvClient.Proofs.Client.Refusal
import KvClient.Proofs.Client.Session

/-!
# What one call writes

Any number of calls use a client at the same time.  What one of them has written is what the
transport has accepted while that call held the gate; and it is a beginning of the frame of its
command, all of it unless the exchange was aborted, and nothing if there was no link that could be
used when the call set about its job.

## How it works

* **A run takes a call from one phase to the next**: `Sending`, which every step keeps
  (`Sending.step`), so that it holds at the end of every run (`sending_of_run`).
* **What a call has written can be read off**: `Sending.isPrefix`, `Sending.nothing_of_dead`,
  `Sending.whole`.
* **If nobody else sends a command, all that is written is written by the call**:
  `accepted_eq_writtenBy`.
-/

namespace KvClient

namespace Client

variable {c₀ c c₁ c' : Client} {e e' : Event} {es later : List Event} {effects more : List Effect}
  {adm arrived : List (CallId × Command)} {id : CallId} {command : Command} {yield : Yield}

/-! ## Reading a run -/

/-- The bytes that the transport accepts in a step while a caller holds the gate. -/
def writtenIn (id : CallId) (c : Client) (e : Event) (_ : Client) : Bytes :=
  if c.gate.holder? = some id then
    match c.step e with
    | some (_, effects) => accepted effects
    | none => []
  else []

/-- The bytes that the transport accepts in a run while a caller holds the gate. -/
def writtenBy (id : CallId) (c : Client) (es : List Event) : Bytes := log step (writtenIn id) c es

/-- In a run from `c`, an event happens to the client `c₁`. -/
def Happens (c : Client) (es : List Event) (e : Event) (c₁ : Client) : Prop :=
  ∃ now rest effects, es = now ++ e :: rest ∧ Run step c now c₁ effects

/-- The exchange of a caller is aborted: the write fails, or the time is up, or the caller is called
off. -/
def Aborted (id : CallId) (c : Client) (es : List Event) : Prop :=
  ∃ e c₁, Happens c es e c₁ ∧ c₁.gate.holder? = some id ∧ (∃ x, c₁.exchange? = some x) ∧
    (e = .link .writeFault ∨ e = .link .expire ∨ e = .cancel id)

/-- The exchange of a caller comes to a settlement. -/
def Returns (id : CallId) (c : Client) (es : List Event) (s : Settlement) : Prop :=
  ∃ e c₁ c₂ out t, Happens c es e c₁ ∧ c₁.gate.holder? = some id ∧ c₁.step e = some (c₂, out) ∧
    .link (.returned t s) ∈ out

/-- What a caller was told, if it was told anything. -/
def told? (id : CallId) (effects : List Effect) : Option (Except Error Reply) :=
  effects.findSome? fun
    | .finished other r => if other = id then some r else none
    | _ => none

theorem mem_of_told? {r : Except Error Reply} (h : told? id effects = some r) :
    .finished id r ∈ effects := by
  obtain ⟨effect, hmem, heffect⟩ := List.exists_of_findSome?_eq_some h
  split at heffect
  · split at heffect
    · next other r' hother =>
      obtain rfl := Option.some.inj heffect
      exact hother ▸ hmem
    · simp at heffect
  · simp at heffect

theorem writtenIn_of_step (hstep : c.step e = some (c', effects)) (d : Client) :
    writtenIn id c e d = if c.gate.holder? = some id then accepted effects else [] := by
  rw [writtenIn, hstep]

theorem writtenIn_of_silent (hstep : c.step e = some (c', effects)) (hsilent : accepted effects = [])
    (d : Client) : writtenIn id c e d = [] := by
  rw [writtenIn_of_step hstep, hsilent, ite_self]

theorem happens_snoc (hrun : Run step c es c' effects) :
    Happens c (es ++ [e']) e c₁ ↔ Happens c es e c₁ ∨ e = e' ∧ c₁ = c' := by
  constructor
  · rintro ⟨now, rest, effects₁, heq, hnow⟩
    rcases List.eq_nil_or_concat rest with rfl | ⟨rest, last, rfl⟩
    · obtain ⟨rfl, hlast⟩ := List.append_inj' heq rfl
      obtain rfl : e' = e := by simpa using hlast
      exact .inr ⟨rfl, (hnow.unique hrun).1⟩
    · rw [List.concat_eq_append, ← List.cons_append, ← List.append_assoc] at heq
      exact .inl ⟨now, rest, effects₁, (List.append_inj' heq rfl).1, hnow⟩
  · rintro (⟨now, rest, effects₁, rfl, hnow⟩ | ⟨rfl, rfl⟩)
    · exact ⟨now, rest ++ [e'], effects₁, by simp, hnow⟩
    · exact ⟨es, [], effects, rfl, hrun⟩

theorem Happens.snoc (h : Happens c es e c₁) (e' : Event) : Happens c (es ++ [e']) e c₁ := by
  obtain ⟨now, rest, effects₁, rfl, hnow⟩ := h
  exact ⟨now, rest ++ [e'], effects₁, by simp, hnow⟩

theorem Aborted.snoc (h : Aborted id c es) (e' : Event) : Aborted id c (es ++ [e']) := by
  obtain ⟨e, c₁, hhappens, hrest⟩ := h
  exact ⟨e, c₁, hhappens.snoc e', hrest⟩

theorem Returns.snoc {s : Settlement} (h : Returns id c es s) (e' : Event) :
    Returns id c (es ++ [e']) s := by
  obtain ⟨e, c₁, c₂, out, t, hhappens, hrest⟩ := h
  exact ⟨e, c₁, c₂, out, t, hhappens.snoc e', hrest⟩

/-- A call that waits writes nothing. -/
theorem Waiting.writtenIn (h : Waiting c id command yield) (hstep : c.step e = some (c', effects))
    (d : Client) : writtenIn id c e d = [] := by
  rw [writtenIn_of_step hstep]
  split
  · next hholds => exact (moves_of_step hstep).accepted_of_idle (h.idle hholds)
  · rfl

/-- A caller that is not known does not hold the gate. -/
theorem Queued.holder_ne (h : Queued c adm arrived) (habsent : c.job? id = none) :
    c.gate.holder? ≠ some id :=
  fun hholds => h.not_mem habsent (Gate.mem_callers_of_holder? hholds)

/-! ## Runs -/

/-- A caller has set about its job, and found a link that can be used, or none. -/
structure Finds (id : CallId) (c : Client) (es : List Event) (live : Bool) : Prop where
  acts : ∃ c₁, Happens c es (.act id) c₁
  found : ∀ c₁, Happens c es (.act id) c₁ → c₁.isLive = live

/-- How far a run has taken a call that is to send a command: what the call found, what it has
written, and what it was told. -/
inductive Sending (c : Client) (es : List Event) (c' : Client) (id : CallId) (command : Command)
    (yield : Yield) (effects : List Effect) : Prop
  | waits (waiting : Waiting c' id command yield) (before : ∀ c₁, ¬Happens c es (.act id) c₁)
      (nothing : writtenBy id c es = []) (untold : ∀ r, .finished id r ∉ effects)
  | calledOff (absent : c'.job? id = none) (before : ∀ c₁, ¬Happens c es (.act id) c₁)
      (cancelled : .cancelled id ∈ effects) (nothing : writtenBy id c es = [])
      (untold : ∀ r, .finished id r ∉ effects)
  | turnedAway (absent : c'.job? id = none) (finds : Finds id c es false)
      (nothing : writtenBy id c es = [])
      (told : ∀ r, .finished id r ∈ effects ↔ r = .error .connectionClosed)
  | exchanges (still : InExchange c' id command yield (writtenBy id c es))
      (finds : Finds id c es true) (untold : ∀ r, .finished id r ∉ effects)
  | returned (s : Settlement) (absent : c'.job? id = none) (finds : Finds id c es true)
      (whole : writtenBy id c es = command.encode) (settled : Returns id c es s)
      (told : ∀ r, .finished id r ∈ effects ↔ r = yield.result s)
  | aborted (absent : c'.job? id = none) (finds : Finds id c es true)
      (part : writtenBy id c es <+: command.encode) (cause : Aborted id c es)
      (told : ∃ err, ∀ r, .finished id r ∈ effects → r = .error err)

theorem not_happens_snoc (hrun : Run step c es c' effects)
    (h : ∀ c₁, ¬Happens c es (.act id) c₁) (hact : e ≠ .act id) :
    ∀ c₁, ¬Happens c (es ++ [e]) (.act id) c₁ := by
  intro c₁ hhappens
  rcases (happens_snoc hrun).mp hhappens with hbefore | ⟨he, -⟩
  · exact h c₁ hbefore
  · exact hact he.symm

theorem Finds.snoc {live : Bool} (h : Finds id c es live) (hrun : Run step c es c' effects)
    (hact : e ≠ .act id) : Finds id c (es ++ [e]) live where
  acts := h.acts.imp fun _ hhappens => hhappens.snoc e
  found c₁ hhappens := by
    rcases (happens_snoc hrun).mp hhappens with hbefore | ⟨he, -⟩
    · exact h.found c₁ hbefore
    · exact absurd he.symm hact

theorem finds_of_act (hrun : Run step c es c' effects) (h : ∀ c₁, ¬Happens c es (.act id) c₁) :
    Finds id c (es ++ [.act id]) c'.isLive where
  acts := ⟨c', (happens_snoc hrun).mpr (.inr ⟨rfl, rfl⟩)⟩
  found c₁ hhappens := by
    rcases (happens_snoc hrun).mp hhappens with hbefore | ⟨-, rfl⟩
    · exact absurd hbefore (h c₁)
    · rfl

/-- **A step takes a call on from where it is.** -/
theorem Sending.step (h : Sending c es c₁ id command yield effects)
    (hrun : Run step c es c₁ effects) (hq : Queued c₁ adm arrived)
    (hstep : c₁.step e = some (c', more)) (hnew : ∀ request, e ≠ .issue id request) :
    Sending c (es ++ [e]) c' id command yield (effects ++ more) := by
  have hwritten : writtenBy id c (es ++ [e]) = writtenBy id c es ++ writtenIn id c₁ e c' :=
    log_snoc hrun hstep
  have hnow : ∀ {r}, (∀ r, .finished id r ∉ effects) → .finished id r ∈ effects ++ more →
      .finished id r ∈ more :=
    fun huntold hr => (List.mem_append.mp hr).resolve_left (huntold _)
  -- A call that is over stays as it is.
  have hover : c₁.job? id = none → c'.job? id = none ∧ e ≠ .act id ∧
      writtenBy id c (es ++ [e]) = writtenBy id c es ∧
      ∀ r, .finished id r ∈ effects ++ more ↔ .finished id r ∈ effects := by
    intro habsent
    obtain ⟨habsent', huntold⟩ := (moves_of_step hstep).stays_over habsent hnew
    refine ⟨habsent', ?_, ?_, fun r => ?_⟩
    · rintro rfl
      simp [Client.step, act, habsent] at hstep
    · rw [hwritten, writtenIn_of_step hstep, if_neg (hq.holder_ne habsent), List.append_nil]
    · rw [List.mem_append, or_iff_left (huntold r)]
  cases h with
  | waits waiting before nothing untold =>
    rw [waiting.writtenIn hstep, List.append_nil, nothing] at hwritten
    by_cases hact : e = .act id
    · subst hact
      have hfinds := finds_of_act hrun before
      cases waiting.act hstep with
      | begins live began untold' =>
        rw [live] at hfinds
        exact .exchanges (hwritten ▸ began) hfinds fun r hr => untold' r (hnow untold hr)
      | turnedAway dead absent told =>
        rw [dead] at hfinds
        refine .turnedAway absent hfinds hwritten fun r => ?_
        rw [List.mem_append, or_iff_right (untold r)]
        exact told r
    · obtain ⟨hnext, untold'⟩ := waiting.step hq hstep hact
      have hbefore := not_happens_snoc hrun before hact
      rcases hnext with waiting' | ⟨absent, cancelled⟩
      · exact .waits waiting' hbefore hwritten fun r hr => untold' r (hnow untold hr)
      · exact .calledOff absent hbefore (List.mem_append_right _ cancelled) hwritten
          fun r hr => untold' r (hnow untold hr)
  | exchanges still finds untold =>
    rw [writtenIn_of_step hstep, if_pos still.holds] at hwritten
    have hfinds := finds.snoc hrun (still.ne_act hstep)
    have hhappens : Happens c (es ++ [e]) e c₁ := (happens_snoc hrun).mpr (.inr ⟨rfl, rfl⟩)
    cases still.step hstep with
    | goesOn still' untold' =>
      exact .exchanges (hwritten ▸ still') hfinds fun r hr => untold' r (hnow untold hr)
    | returned s absent whole silent settled told =>
      rw [silent, List.append_nil, whole] at hwritten
      obtain ⟨t, ht⟩ := settled
      refine .returned s absent hfinds hwritten
        ⟨e, c₁, c', more, t, hhappens, still.holds, hstep, ht⟩ fun r => ?_
      rw [List.mem_append, or_iff_right (untold r)]
      exact told r
    | aborted absent silent cause told =>
      rw [silent, List.append_nil] at hwritten
      obtain ⟨x, hx, hwrote⟩ := still.running
      refine .aborted absent hfinds ?_ ⟨e, c₁, hhappens, still.holds, ⟨x, hx⟩, cause⟩
        (told.imp fun err herr r hr => herr r (hnow untold hr))
      rw [hwritten, hwrote.written]
      exact List.take_prefix _ _
  | calledOff absent before cancelled nothing untold =>
    obtain ⟨absent', hact, hsame, htold⟩ := hover absent
    exact .calledOff absent' (not_happens_snoc hrun before hact)
      (List.mem_append_left _ cancelled) (hsame.trans nothing)
      fun r hr => untold r ((htold r).mp hr)
  | turnedAway absent finds nothing told =>
    obtain ⟨absent', hact, hsame, htold⟩ := hover absent
    exact .turnedAway absent' (finds.snoc hrun hact) (hsame.trans nothing)
      fun r => (htold r).trans (told r)
  | returned s absent finds whole settled told =>
    obtain ⟨absent', hact, hsame, htold⟩ := hover absent
    exact .returned s absent' (finds.snoc hrun hact) (hsame.trans whole) (settled.snoc e)
      fun r => (htold r).trans (told r)
  | aborted absent finds part cause told =>
    obtain ⟨absent', hact, hsame, htold⟩ := hover absent
    exact .aborted absent' (finds.snoc hrun hact) (hsame ▸ part) (cause.snoc e)
      (told.imp fun err herr r hr => herr r ((htold r).mp hr))

/-- **How far a run takes a call that is to send a command**, whatever else happens to the client. -/
theorem sending_of_run {config : Config} (hmade : c₀ = new config ∨ c₀ = withTransport config)
    (hrun : Run step c₀ es c effects) {request : Request}
    (hcheck : request.check = .ok (.exchange command yield))
    (hlater : Run step c (.issue id request :: later) c' more)
    (hnew : ∀ request', .issue id request' ∉ later) :
    Sending c (.issue id request :: later) c' id command yield more := by
  have hgate := gate_of_made hmade
  obtain ⟨c₁, now, rest, hissue, hcomputed, rfl⟩ :=
    runWith_cons.mp (runWith_eq_some_iff.mpr hlater)
  have hfirst : Run step c [.issue id request] c₁ now := .snoc .nil hissue
  obtain ⟨hwaiting, rfl⟩ := waiting_of_issue hcheck hissue (queued_of_run hgate hrun)
    fun x hx => served_of_run hmade hrun hx
  have hrest := runWith_eq_some_iff.mp hcomputed
  clear hlater hcomputed
  induction hrest with
  | nil =>
    refine .waits hwaiting (fun c₂ hhappens => ?_) ?_ (by simp)
    · have hhappens : Happens c ([] ++ [.issue id request]) (.act id) c₂ := hhappens
      rcases (happens_snoc .nil).mp hhappens with ⟨now, rest, out, heq, -⟩ | ⟨he, -⟩
      · simp at heq
      · cases he
    · show log step (writtenIn id) c ([] ++ [.issue id request]) = []
      rw [log_snoc .nil hissue, writtenIn_of_silent hissue rfl]
      rfl
  | snoc hrest hstep ih =>
    simp only [List.mem_append, List.mem_singleton, not_or] at hnew
    have hall := hfirst.append hrest
    exact (ih fun request' => (hnew request').1).step hall
      (queued_of_run hgate (hrun.append hall)) hstep fun request' he => (hnew request').2 he.symm

/-! ## What it means -/

/-- A call writes no more than its frame. -/
theorem Sending.isPrefix (h : Sending c es c' id command yield effects) :
    writtenBy id c es <+: command.encode := by
  cases h with
  | waits _ _ nothing | calledOff _ _ _ nothing | turnedAway _ _ nothing =>
    rw [nothing]
    exact List.nil_prefix
  | exchanges still =>
    obtain ⟨x, -, hwrote⟩ := still.running
    rw [hwrote.written]
    exact List.take_prefix _ _
  | returned s absent finds whole => rw [whole]
  | aborted absent finds part => exact part

/-- A call writes nothing unless it sets about its job and finds a link that can be used. -/
theorem Sending.nothing_of_dead (h : Sending c es c' id command yield effects)
    (hdead : ∀ c₁, Happens c es (.act id) c₁ → c₁.isLive = false) : writtenBy id c es = [] := by
  cases h with
  | waits _ _ nothing | calledOff _ _ _ nothing | turnedAway _ _ nothing => exact nothing
  | exchanges still finds | returned s absent finds | aborted absent finds =>
    obtain ⟨c₁, hacts⟩ := finds.acts
    cases (finds.found c₁ hacts).symm.trans (hdead c₁ hacts)

/-- A call that is over has written its frame to the end if it has found a link that can be used,
and its exchange was not aborted. -/
theorem Sending.whole (h : Sending c es c' id command yield effects) (hover : c'.job? id = none)
    (hacts : Happens c es (.act id) c₁) (hlive : c₁.isLive = true) (hsound : ¬Aborted id c es) :
    writtenBy id c es = command.encode := by
  cases h with
  | waits waiting before | calledOff absent before => exact absurd hacts (before c₁)
  | turnedAway absent finds => simp [finds.found c₁ hacts] at hlive
  | exchanges still => simp [still.wants] at hover
  | returned s absent finds whole => exact whole
  | aborted absent finds part cause => exact absurd cause hsound

/-- A call that is told a reply has written its frame to the end, and the reply is what its exchange
has come to. -/
theorem Sending.of_reply (h : Sending c es c' id command yield effects) {reply : Reply}
    (hr : .finished id (.ok reply) ∈ effects) :
    writtenBy id c es = command.encode ∧ ∃ s, Returns id c es s ∧ .ok reply = yield.result s := by
  cases h with
  | waits _ _ _ untold | calledOff _ _ _ _ untold | exchanges _ _ untold => exact absurd hr (untold _)
  | turnedAway absent finds nothing told => cases (told _).mp hr
  | returned s absent finds whole settled told => exact ⟨whole, s, settled, (told _).mp hr⟩
  | aborted absent finds part cause told =>
    obtain ⟨err, herr⟩ := told
    cases herr _ hr

/-! ## Calls that are alone -/

/-- If no other caller at the gate wants a command to be sent, it stays so until one comes. -/
theorem AtGate.alone (hat : AtGate c e c')
    (h : ∀ other ∈ c.gate.callers, other ≠ id → c.command? other = none)
    (hnew : ∀ other command, (other, command) ∈ e.checked → other = id) :
    ∀ other ∈ c'.gate.callers, other ≠ id → c'.command? other = none := by
  intro other hother hne
  have hfiltered : ∀ {caller : CallId}, c'.jobs = c.jobs.filter (·.1 != caller) →
      other ∈ c.gate.callers → c'.command? other = none := by
    intro caller hjobs hbefore
    by_cases hcaller : other = caller
    · subst hcaller
      rw [command?, job?_filter_self hjobs]
      rfl
    · rw [command?, job?_filter_ne hjobs hcaller]
      exact h other hbefore hne
  cases hat with
  | stays gate jobs =>
    rw [command?, job?_congr jobs]
    exact h other (gate ▸ hother) hne
  | arrives caller job gate jobs absent arrival =>
    by_cases hcaller : other = caller
    · subst hcaller
      rw [command?, job?_cons_self jobs]
      refine Option.eq_none_iff_forall_ne_some.mpr fun command hcommand => hne ?_
      have hcommand : job.command? = some command := hcommand
      exact hnew other command (by simp [arrival, hcommand])
    · rw [command?, job?_cons_ne jobs hcaller]
      rw [gate, Gate.callers_arrive] at hother
      refine h other ((List.mem_append.mp hother).resolve_right ?_) hne
      simpa using hcaller
  | resumes caller queue granted gate jobs =>
    rw [command?, job?_congr jobs]
    refine h other ?_ hne
    rw [gate] at hother
    rw [granted]
    exact hother
  | leaves caller holds gate jobs =>
    refine hfiltered jobs ?_
    rw [gate, (Gate.release_of_holder? holds).2.2] at hother
    rw [Gate.eq_held_of_holder? holds]
    exact List.mem_cons_of_mem _ hother
  | cancelled caller gate jobs =>
    rw [gate, Gate.callers_cancel] at hother
    exact hfiltered jobs (List.mem_of_mem_erase hother)

/-- **If nobody is at the gate, and nobody else comes to send a command, all that is written is
written by the call.** -/
theorem accepted_eq_writtenBy {config : Config} (hmade : c₀ = new config ∨ c₀ = withTransport config)
    (hrun : Run step c₀ es c effects) (hfree : c.gate = .free) (hlater : Run step c later c' more)
    (halone : ∀ other command, (other, command) ∈ checked later → other = id) :
    accepted more = writtenBy id c later := by
  suffices haccepted : accepted more = writtenBy id c later ∧
      ∀ other ∈ c'.gate.callers, other ≠ id → c'.command? other = none from haccepted.1
  induction hlater with
  | nil => exact ⟨rfl, by simp [hfree, Gate.callers]⟩
  | @snoc later c₁ more e c' out hlater hstep ih =>
    rw [checked_snoc] at halone
    obtain ⟨haccepted, hothers⟩ := ih fun other command hmem =>
      halone other command (List.mem_append_left _ hmem)
    refine ⟨?_, (moves_of_step hstep).atGate.alone hothers fun other command hmem =>
      halone other command (List.mem_append_right _ hmem)⟩
    rw [accepted_append, writtenBy, log_snoc hlater hstep, haccepted]
    cases hx : c₁.exchange? with
    | none =>
      have hsilent := (moves_of_step hstep).accepted_of_idle hx
      rw [writtenIn_of_silent hstep hsilent, hsilent]
      rfl
    | some x =>
      -- The exchange that runs is that of a call that sends a command, of which there is only one.
      obtain ⟨other, command, hholds, hcommand⟩ := served_of_run hmade (hrun.append hlater) hx
      obtain rfl : other = id := by
        by_contra hne
        simp [hothers other (Gate.mem_callers_of_holder? hholds) hne] at hcommand
      rw [writtenIn_of_step hstep, if_pos hholds]
      rfl

/-- A call that is over, or has not come, writes nothing until it comes again. -/
theorem writtenBy_eq_nil {config : Config} (hmade : c₀ = new config ∨ c₀ = withTransport config)
    (hrun : Run step c₀ es c effects) (habsent : c.job? id = none)
    (hlater : Run step c later c' more) (hnew : ∀ request, .issue id request ∉ later) :
    writtenBy id c later = [] := by
  induction hlater with
  | nil => rfl
  | snoc hlater hstep ih =>
    simp only [List.mem_append, List.mem_singleton, not_or] at hnew
    have hnew' := fun request => (hnew request).1
    have habsent' := (over_of_run hlater habsent hnew').1
    have hq := queued_of_run (gate_of_made hmade) (hrun.append hlater)
    rw [writtenBy, log_snoc hlater hstep, writtenIn_of_step hstep, if_neg (hq.holder_ne habsent'),
      List.append_nil]
    exact ih hnew'

end Client

end KvClient

import KvClient.Proofs.Client.Absorbing

/-!
# Calls that wait

A call stays at the gate until it has finished or is called off.  One that is to send a command waits
until it holds the gate and sets about its job; then its exchange begins if there is a link that can
be used, and it is turned away if there is none.

## How it works

* **A call stays at the gate until it is over**: `Fate`, `Moves.fate`, `Moves.stays_over`.
* **A call that passes its check waits**: `Waiting`, `waiting_of_issue`.
* **It waits on whatever happens**, until it is called off or acts: `Waiting.step`, `Waiting.act`.
-/

namespace KvClient

/-- An exchange that has written these bytes of a frame. -/
structure Exchange.Wrote (x : Exchange) (frame written : Bytes) : Prop where
  frame_eq : x.frame = frame
  sent_le : x.sent ≤ frame.length
  written : written = frame.take x.sent
  whole : x.flushed = true → x.sent = frame.length

theorem Exchange.Wrote.told {x : Exchange} {frame written : Bytes} (h : x.Wrote frame written)
    (t? : Option Ticket) (s : Settlement) : (x.told t? s).Wrote frame written where
  frame_eq := (Exchange.frame_told ..).trans h.frame_eq
  sent_le := by simpa using h.sent_le
  written := by simpa using h.written
  whole := by simpa using h.whole

namespace Link

variable {l l' : Link} {e : Event} {out : List Effect}

/-- A request that returns by an event from outside was running. -/
theorem Moves.running_of_returned (hm : Moves l e l' out) (houtside : Client.isOutside e = true)
    {s : Settlement} (h : Client.returned? out = some s) : l.exchange? ≠ none := by
  cases hm with
  | writeFailed x running | expired x limit running | collected x s running => simp [running]
  | stopped => simp [returned?_closeWith] at h
  | registered | refused | abandoned | closed | shutdownBegun | shutdownFinished =>
    simp [Client.isOutside] at houtside
  | _ => simp [Client.returned?] at h

end Link

namespace Client

variable {c c' : Client} {e : Event} {effects : List Effect} {adm arrived : List (CallId × Command)}
  {id : CallId} {command : Command} {yield : Yield}

/-! ## Staying at the gate -/

theorem job?_filter_self (h : c'.jobs = c.jobs.filter (·.1 != id)) : c'.job? id = none := by
  rw [job?, h, Option.map_eq_none_iff, List.find?_eq_none]
  intro p hp
  simpa using (List.mem_filter.mp hp).2

/-- What becomes of a call at the gate in one step: it stays, or it finishes while it holds the gate,
or it is called off. -/
inductive Fate (c c' : Client) (id : CallId) (job : Job) (effects : List Effect) : Prop
  | stays (here : id ∈ c'.gate.callers) (wants : c'.job? id = some job)
      (unfinished : ∀ r, .finished id r ∉ effects)
  | finishes (r : Except Error Reply) (holds : c.gate.holder? = some id)
      (absent : c'.job? id = none) (finished : .finished id r ∈ effects)
  | calledOff (absent : c'.job? id = none) (cancelled : .cancelled id ∈ effects)
      (unfinished : ∀ r, .finished id r ∉ effects)

variable {job job' : Job} {other : CallId}

/-- When another call comes, a call stays. -/
theorem Fate.of_arrive (hhere : id ∈ c.gate.callers) (hwants : c.job? id = some job)
    (habsent : c.job? other = none) (hgate : c'.gate = c.gate.arrive other)
    (hjobs : c'.jobs = (other, job') :: c.jobs) (hunfinished : ∀ r, .finished id r ∉ effects) :
    Fate c c' id job effects := by
  have hne : id ≠ other := by
    rintro rfl
    simp [habsent] at hwants
  refine .stays ?_ ((job?_cons_ne hjobs hne).trans hwants) hunfinished
  rw [hgate, Gate.callers_arrive]
  exact List.mem_append_left _ hhere

/-- When the call that holds the gate finishes, a call stays or is that one. -/
theorem Fate.of_release {result : Except Error Reply} (hhere : id ∈ c.gate.callers)
    (hwants : c.job? id = some job) (hholds : c.gate.holder? = some other)
    (hgate : c'.gate = c.gate.release other) (hjobs : c'.jobs = c.jobs.filter (·.1 != other))
    (hfinished : .finished other result ∈ effects)
    (honly : ∀ r, .finished id r ∈ effects → id = other) : Fate c c' id job effects := by
  by_cases hother : id = other
  · subst hother
    exact .finishes result hholds (job?_filter_self hjobs) hfinished
  · refine .stays ?_ ((job?_filter_ne hjobs hother).trans hwants) fun r hr => hother (honly r hr)
    rw [Gate.eq_held_of_holder? hholds] at hhere
    rw [hgate, (Gate.release_of_holder? hholds).2.2]
    exact (List.mem_cons.mp hhere).resolve_left hother

/-- **A call stays at the gate until it is over.** -/
theorem Moves.fate (hm : Moves c e c' effects) (hhere : id ∈ c.gate.callers)
    (hwants : c.job? id = some job) : Fate c c' id job effects := by
  cases hm with
  | invalid other request err refused absent =>
    refine .stays hhere hwants fun r hr => ?_
    obtain ⟨rfl, -⟩ := by simpa using hr
    simp [absent] at hwants
  | arrived other request job' valid absent =>
    exact .of_arrive hhere hwants absent rfl rfl (by simp)
  | arrivedToClose other request valid absent =>
    obtain ⟨hgate, hjobs, -⟩ := takeCloser_cases c
    exact .of_arrive hhere hwants absent (by rw [hgate]) (by rw [hjobs]) (by simp)
  | resumed other queue granted =>
    rw [granted] at hhere
    exact .stays hhere hwants (by simp)
  | began | progressed | shutdownBegun => exact .stays hhere hwants (by simp)
  | completed e other command yield s le l l' out holds =>
    refine .of_release hhere hwants holds (by simp [finish]) (by simp [finish])
      (List.mem_append_right _ (List.mem_singleton_self _)) fun r hr => ?_
    exact (by simpa using hr : id = other ∧ r = yield.result s).1
  | answered e other job' result holds | closed other holds | dialed other credentials? holds =>
    refine .of_release hhere hwants holds rfl rfl (List.mem_singleton_self _) fun r hr => ?_
    exact (Effect.finished.inj (List.mem_singleton.mp hr)).1
  | shutDown other l l' out holds =>
    refine .of_release hhere hwants holds rfl rfl
      (List.mem_append_right _ (List.mem_singleton_self _)) fun r hr => ?_
    exact (by simpa using hr : id = other ∧ r = .ok .done).1
  | cancelled other =>
    obtain ⟨hgate, hjobs, -⟩ := abandonExchange_cases c other
    by_cases hother : id = other
    · subst hother
      exact .calledOff (job?_filter_self (by rw [hjobs])) (by simp) (by simp)
    · refine .stays ?_ ((job?_filter_ne (by rw [hjobs]) hother).trans hwants) (by simp)
      show id ∈ ((c.abandonExchange other).1.gate.cancel other).callers
      rw [hgate, Gate.callers_cancel]
      exact (List.mem_erase_of_ne hother).mpr hhere

/-- A call that is over stays so until it comes again. -/
theorem Moves.stays_over (hm : Moves c e c' effects) (habsent : c.job? id = none)
    (hnew : ∀ request, e ≠ .issue id request) :
    c'.job? id = none ∧ ∀ r, .finished id r ∉ effects := by
  have hother : ∀ {other : CallId} {job : Job}, c.job? other = some job → id ≠ other := by
    rintro other job hjob rfl
    simp [habsent] at hjob
  cases hm with
  | invalid other request =>
    refine ⟨habsent, fun r hr => ?_⟩
    obtain ⟨rfl, -⟩ := by simpa using hr
    exact hnew request rfl
  | arrived other request job =>
    have hne : id ≠ other := fun heq => hnew request (by rw [heq])
    exact ⟨(job?_cons_ne rfl hne).trans habsent, by simp⟩
  | arrivedToClose other request =>
    have hne : id ≠ other := fun heq => hnew request (by rw [heq])
    obtain ⟨-, hjobs, -⟩ := takeCloser_cases c
    exact ⟨(job?_cons_ne (by rw [hjobs]) hne).trans habsent, by simp⟩
  | resumed | began | progressed | shutdownBegun => exact ⟨habsent, by simp⟩
  | completed e other command' yield' s le l l' out holds wants =>
    have hne := hother wants
    exact ⟨(job?_filter_ne (by simp [finish]) hne).trans habsent, by simp [hne]⟩
  | answered e other job result holds wants | closed other holds wants
  | shutDown other l l' out holds wants | dialed other credentials? holds wants =>
    have hne := hother wants
    exact ⟨(job?_filter_ne rfl hne).trans habsent, by simp [hne]⟩
  | cancelled other job wants =>
    have hne := hother wants
    obtain ⟨-, hjobs, -⟩ := abandonExchange_cases c other
    exact ⟨(job?_filter_ne (by rw [hjobs]) hne).trans habsent, by simp⟩

/-- One caller holds the gate, and wants one thing. -/
theorem eq_of_holds (hholds : c.gate.holder? = some id) (hwants : c.job? id = some job)
    (hother : c.gate.holder? = some other) (hjob : c.job? other = some job') :
    other = id ∧ job' = job := by
  obtain rfl : id = other := by simpa [hholds] using hother
  exact ⟨rfl, by simpa [hwants] using hjob.symm⟩

/-- A request that passes its check is at the gate then, and is told nothing yet. -/
theorem atGate_of_issue {request : Request} (hcheck : request.check = .ok job)
    (hstep : c.step (.issue id request) = some (c', effects)) :
    id ∈ c'.gate.callers ∧ c'.job? id = some job ∧ ∀ r, .finished id r ∉ effects := by
  have harrives : ∀ g : Gate CallId, id ∈ (g.arrive id).callers := by
    intro g
    rw [Gate.callers_arrive]
    exact List.mem_append_right _ (List.mem_singleton_self id)
  cases moves_of_step hstep with
  | invalid other request' err refused => simp [hcheck] at refused
  | arrived other request' job' valid =>
    obtain rfl : job = job' := by simpa [hcheck] using valid
    exact ⟨harrives _, job?_cons_self rfl, by simp⟩
  | arrivedToClose other request' valid =>
    obtain rfl : job = .close := by simpa [hcheck] using valid
    exact ⟨harrives _, job?_cons_self rfl, by simp⟩
  | completed e other command yield s le l l' out holds wants cause => simp at cause
  | answered e other job' result holds wants linkless cause => simp at cause

/-! ## Waiting -/

/-- A call waits at the gate to send a command.  An exchange that runs is that of another call. -/
structure Waiting (c : Client) (id : CallId) (command : Command) (yield : Yield) : Prop where
  here : id ∈ c.gate.callers
  wants : c.job? id = some (.exchange command yield)
  others : ∀ x, c.exchange? = some x → ∃ other command', other ≠ id ∧
    c.gate.holder? = some other ∧ c.command? other = some command'

theorem Waiting.idle (h : Waiting c id command yield) (hholds : c.gate.holder? = some id) :
    c.exchange? = none := by
  cases hx : c.exchange? with
  | none => rfl
  | some x =>
    obtain ⟨other, command', hne, hother, -⟩ := h.others x hx
    obtain rfl : id = other := by simpa [hholds] using hother
    exact absurd rfl hne

/-- A call writes a frame, or waits for its response. -/
structure InExchange (c : Client) (id : CallId) (command : Command) (yield : Yield)
    (written : Bytes) : Prop where
  holds : c.gate.holder? = some id
  wants : c.job? id = some (.exchange command yield)
  running : ∃ x, c.exchange? = some x ∧ x.Wrote command.encode written

/-- What becomes of a call that waits when it sets about its job: it begins to write if the link can
be used, and is turned away if not. -/
inductive Waiting.Acts (c c' : Client) (id : CallId) (command : Command) (yield : Yield)
    (effects : List Effect) : Prop
  | begins (live : c.isLive = true) (began : InExchange c' id command yield [])
      (untold : ∀ r, .finished id r ∉ effects)
  | turnedAway (dead : c.isLive = false) (absent : c'.job? id = none)
      (told : ∀ r, .finished id r ∈ effects ↔ r = .error .connectionClosed)

theorem Waiting.act (h : Waiting c id command yield)
    (hstep : c.step (.act id) = some (c', effects)) :
    Waiting.Acts c c' id command yield effects := by
  have hself : ∀ {job : Job}, c.job? id = some job → job = .exchange command yield := by
    intro job hjob
    simpa [h.wants] using hjob.symm
  cases moves_of_step hstep with
  | began id command' yield' l l' out holds wants session moves running =>
    obtain ⟨rfl, rfl⟩ := Job.exchange.inj (hself wants)
    obtain ⟨hlive, -, hx⟩ := moves.connected_of_begin running
    refine .begins ((isLive_of_session session).trans hlive) ⟨holds, wants, ?_⟩ (by simp)
    exact ⟨_, (exchange?_of_session rfl).trans hx, rfl, Nat.zero_le _, rfl, by simp⟩
  | completed e other command' yield' s le l l' out holds wants cause session moves returned =>
    rcases cause with ⟨he, -⟩ | ⟨he, rfl⟩
    · cases he
    · obtain rfl := Event.act.inj he
      obtain ⟨rfl, rfl⟩ := Job.exchange.inj (hself wants)
      obtain ⟨-, hdead⟩ := moves.refused_of_begin returned
      refine .turnedAway ((isLive_of_session session).trans hdead) ?_ fun r => ?_
      · exact job?_filter_self (c := c) (by simp [finish])
      · obtain rfl : s = .error .connectionClosed := by
          cases moves with
          | registered => simp [returned?] at returned
          | refused => simpa [returned?, eq_comm] using returned
        simp [Yield.result]
  | shutdownBegun id l l' out holds wants => cases hself wants
  | answered e other job result holds wants linkless cause =>
    rcases cause with he | ⟨err, he⟩
    · obtain rfl := Event.act.inj he
      obtain rfl := hself wants
      have hnone := linkless rfl
      rw [step, act_of_linkless holds wants hnone] at hstep
      obtain rfl : Except.error .connectionClosed = result := by simpa [finish] using hstep
      exact .turnedAway (by rw [isLive, hnone]) (job?_filter_self rfl) (by simp)
    · cases he
  | closed id holds wants => cases hself wants

/-- A call that waits finishes by setting about its job, and by nothing else. -/
theorem Waiting.eq_act (h : Waiting c id command yield) (hstep : c.step e = some (c', effects))
    (hholds : c.gate.holder? = some id) {r : Except Error Reply} (hr : .finished id r ∈ effects) :
    e = .act id := by
  have hself : ∀ {other : CallId} {job : Job}, c.gate.holder? = some other →
      c.job? other = some job → other = id ∧ job = .exchange command yield :=
    eq_of_holds hholds h.wants
  cases moves_of_step hstep with
  | invalid other request err refused absent =>
    obtain ⟨rfl, -⟩ := by simpa using hr
    simp [h.wants] at absent
  | completed e other command' yield' s le l l' out holds wants cause session moves returned =>
    obtain ⟨rfl, -⟩ := hself holds wants
    rcases cause with ⟨rfl, outside⟩ | ⟨he, -⟩
    · have hidle := (exchange?_of_session session).symm.trans (h.idle hholds)
      exact absurd hidle (moves.running_of_returned outside returned)
    · exact he
  | answered e other job result holds wants linkless cause =>
    obtain ⟨rfl, rfl⟩ := hself holds wants
    rcases cause with he | ⟨err, rfl⟩
    · exact he
    · simp [step, dialed, h.wants] at hstep
  | closed other holds wants | shutDown other l l' out holds wants
  | dialed other credentials? holds wants =>
    have hjob := (hself holds wants).2
    simp at hjob
  | _ => simp at hr

/-- **A call that waits waits on, unless it sets about its job or is called off.** -/
theorem Waiting.step (h : Waiting c id command yield) (hq : Queued c adm arrived)
    (hstep : c.step e = some (c', effects)) (hact : e ≠ .act id) :
    (Waiting c' id command yield ∨ c'.job? id = none ∧ .cancelled id ∈ effects) ∧
      ∀ r, .finished id r ∉ effects := by
  have hm := moves_of_step hstep
  cases hm.fate h.here h.wants with
  | finishes r holds absent finished => exact absurd (h.eq_act hstep holds finished) hact
  | calledOff absent cancelled unfinished => exact ⟨.inr ⟨absent, cancelled⟩, unfinished⟩
  | stays here wants unfinished =>
    refine ⟨.inl ⟨here, wants, fun x' hx' => ?_⟩, unfinished⟩
    by_cases hone : ∃ other, e = .dialed other (.ok ())
    · obtain ⟨other, rfl⟩ := hone
      cases hm with
      | completed _ _ _ _ _ _ _ _ _ _ _ cause => simp at cause
      | answered _ _ _ _ _ _ _ cause => simp at cause
      | dialed =>
        have hnew := (exchange?_of_session rfl).symm.trans hx'
        simp [Link.new] at hnew
    · have hone : ∀ other, e ≠ .dialed other (.ok ()) := fun other he => hone ⟨other, he⟩
      rcases hm.startedBy_cases with hnobody | ⟨other, command', hstarted, hstarts⟩
      · obtain ⟨x, hx, -⟩ := hm.frame_before hone hnobody hx'
        obtain ⟨other, command', hne, hother, hcommand⟩ := h.others x hx
        exact ⟨other, command', hne, hm.holder_after hq hone hx hx' hother hcommand⟩
      · -- The call that begins is the one that acts, which is another one.
        have hne : other ≠ id := by
          rintro rfl
          cases e with
          | act actor =>
            obtain rfl : actor = other := by
              have hmem : (other, command') ∈ startedBy c (.act actor) c' := by simp [hstarted]
              rw [startedBy, if_pos hstarts.live] at hmem
              obtain ⟨a, ha, heq⟩ := List.mem_filterMap.mp hmem
              obtain rfl := List.mem_singleton.mp ha
              obtain ⟨_, -, heq⟩ := Option.map_eq_some_iff.mp heq
              exact (Prod.mk.inj heq).1
            exact hact rfl
          | _ => simp [startedBy] at hstarted
        refine ⟨other, command', hne, ?_, ?_⟩
        · rw [hstarts.gate]
          exact hstarts.holds
        · rw [command?, job?_congr hstarts.jobs]
          exact hstarts.wants

/-- A call that passes its check waits. -/
theorem waiting_of_issue {request : Request} (hvalid : request.check = .ok (.exchange command yield))
    (hstep : c.step (.issue id request) = some (c', effects)) (hq : Queued c adm arrived)
    (hserved : ∀ x, c.exchange? = some x → ∃ other command',
      c.gate.holder? = some other ∧ c.command? other = some command') :
    Waiting c' id command yield ∧ effects = [] := by
  have hm := moves_of_step hstep
  have hone : ∀ other, Event.issue id request ≠ .dialed other (.ok ()) := by simp
  obtain ⟨hhere, hwants, -⟩ := atGate_of_issue hvalid hstep
  have hothers : ∀ x x', c.exchange? = some x → c'.exchange? = some x' → c.job? id = none →
      ∃ other command', other ≠ id ∧ c'.gate.holder? = some other ∧
        c'.command? other = some command' := by
    intro x x' hx hx' habsent
    obtain ⟨other, command', hholds, hcommand⟩ := hserved x hx
    refine ⟨other, command', ?_, hm.holder_after hq hone hx hx' hholds hcommand⟩
    rintro rfl
    simp [command?, habsent] at hcommand
  cases hm with
  | invalid other request' err refused => simp [hvalid] at refused
  | arrived other request' job valid absent =>
    exact ⟨⟨hhere, hwants, fun x hx => hothers x x hx hx absent⟩, rfl⟩
  | arrivedToClose other request' valid => simp [hvalid] at valid
  | completed e other command' yield' s le l l' out holds wants cause => simp at cause
  | answered e other job result holds wants linkless cause => simp at cause

end Client

end KvClient

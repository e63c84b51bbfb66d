import KvClient.Proofs.Client.Late
import KvClient.Rehearsal.Turns

/-!
# What becomes of a session

A client is connected until its link is closed.  From then on it is closed for everybody, until some
call opens a new link.  A call that connects changes nothing but that, and a call that closes may
find it done already.

## How it works

* **A call that connects leaves the session alone until it succeeds**: `Moves.session_of_connect`,
  and if the link is live it succeeds without looking at anything: `act_of_connect`,
  `stepHolder_of_connect`.
* **A call that closes leaves the session closed**: `closed_of_close`, and can do so when it has the
  gate: `act_of_close`, `finishShutdown_of_close`.
* **A closed client is closed to everybody**: `staysClosed_of_run`, and a call for a command that
  comes too late is turned away: `absorbing_of_run`.
* **All of it holds behind every run**: `session_laws_of_run`.
-/

namespace KvClient

namespace Client

variable {c c' : Client} {e : Event} {effects : List Effect} {id : CallId}
  {credentials? : Option Credentials}

/-! ## Calls that connect -/

/-- What a call that connects does without success. -/
inductive ConnectStep (c : Client) (id : CallId) : Event → Prop
  | comes (request : Request) (credentials? : Option Credentials)
      (valid : request.check = .ok (.connect credentials?)) : ConnectStep c id (.issue id request)
  | resumes (credentials? : Option Credentials) (wants : c.job? id = some (.connect credentials?)) :
      ConnectStep c id (.resume id)
  | acts (credentials? : Option Credentials) (wants : c.job? id = some (.connect credentials?)) :
      ConnectStep c id (.act id)
  | fails (credentials? : Option Credentials) (wants : c.job? id = some (.connect credentials?))
      (err : Error) : ConnectStep c id (.dialed id (.error err))
  | calledOff (credentials? : Option Credentials)
      (wants : c.job? id = some (.connect credentials?)) : ConnectStep c id (.cancel id)

/-- A call off whose exchange is not running takes nothing with it. -/
theorem abandonExchange_of_idle (h : ∀ x, c.exchange? = some x → c.gate.holder? ≠ some id) :
    c.abandonExchange id = (c, []) := by
  by_cases hholds : c.gate.holder? = some id
  · obtain ⟨-, -, ⟨hsame, -⟩ | ⟨l, l', out, hl, moves, -⟩⟩ := abandonExchange_cases c id
    · exact hsame
    · cases moves with
      | abandoned x running => exact absurd hholds (h x ((exchange?_of_session hl).trans running))
  · unfold abandonExchange
    split
    · rw [if_neg hholds]
    · rfl

/-- **A call that connects leaves the session alone** as long as it does not succeed. -/
theorem Moves.session_of_connect (hm : Moves c e c' effects) (hown : ConnectStep c id e)
    (hserved : ∀ x, c.exchange? = some x → ∃ other command,
      c.gate.holder? = some other ∧ c.command? other = some command) :
    c'.session = c.session ∧ linkEffects effects = [] := by
  cases hown with
  | comes request credentials? valid =>
    cases hm with
    | invalid | arrived => exact ⟨rfl, rfl⟩
    | arrivedToClose other request' valid' => simp [valid] at valid'
    | completed e other command yield s le l l' out holds wants cause => simp at cause
    | answered e other job result holds wants linkless cause => simp at cause
  | resumes credentials? wants =>
    cases hm with
    | resumed => exact ⟨rfl, rfl⟩
    | completed e other command yield s le l l' out holds wants cause => simp at cause
    | answered e other job result holds wants linkless cause => simp at cause
  | acts credentials? wants =>
    cases hm with
    | answered => exact ⟨rfl, rfl⟩
    | began other command yield l l' out holds wants' | shutdownBegun other l l' out holds wants'
    | closed other holds wants' => simp [wants] at wants'
    | completed e other command yield s le l l' out holds wants' cause =>
      rcases cause with ⟨he, -⟩ | ⟨he, -⟩
      · simp at he
      · obtain rfl := Event.act.inj he
        simp [wants] at wants'
  | fails credentials? wants err =>
    cases hm with
    | answered => exact ⟨rfl, rfl⟩
    | completed e other command yield s le l l' out holds wants cause => simp at cause
  | calledOff credentials? wants =>
    -- The call holds the gate while it connects, so that no exchange is its own.
    have hidle : c.abandonExchange id = (c, []) := by
      refine abandonExchange_of_idle fun x hx hholds => ?_
      obtain ⟨other, command, hother, hcommand⟩ := hserved x hx
      obtain rfl : id = other := by simpa [hholds] using hother
      simp [command?_of_job? wants, Job.command?] at hcommand
    cases hm with
    | cancelled other =>
      rw [hidle]
      exact ⟨rfl, rfl⟩
    | completed e other command yield s le l l' out holds wants cause => simp at cause
    | answered e other job result holds wants linkless cause => simp at cause

/-- While a call that connects has the gate, and there is no link that can be used, nothing changes
the state. -/
theorem Moves.state_of_connecting (hm : Moves c e c' effects) (hdead : c.isLive = false)
    (hone : ∀ other, e ≠ .dialed other (.ok ())) (hholds : c.gate.holder? = some id)
    (hwants : c.job? id = some (.connect credentials?)) : c'.state = c.state := by
  -- Without a session nobody can change it but the call that holds the gate, and this call waits.
  -- A session that is closed stays closed anyway.
  cases hsession : c.session with
  | unconnected =>
    have hsame : c'.session = .unconnected → c'.state = c.state := by
      intro h
      rw [state, state, hsession, h]
    cases hm with
    | invalid | arrived | resumed | answered => exact hsame hsession
    | arrivedToClose =>
      obtain ⟨-, -, ⟨hsession', -⟩ | ⟨l, hl, -⟩⟩ := takeCloser_cases c
      · exact hsame (hsession'.trans hsession)
      · simp [hsession] at hl
    | began other command yield l l' out holds wants session
    | progressed le l l' out outside session
    | completed e other command yield s le l l' out holds wants cause session
    | shutdownBegun other l l' out holds wants session
    | shutDown other l l' out holds wants session => simp [hsession] at session
    | closed other holds wants =>
      have hjob := (eq_of_holds hholds hwants holds wants).2
      simp at hjob
    | dialed other => exact absurd rfl (hone other)
    | cancelled other =>
      obtain ⟨-, -, ⟨hidle, -⟩ | ⟨l, l', out, hl, -⟩⟩ := abandonExchange_cases c other
      · exact hsame (by rw [hidle]; exact hsession)
      · simp [hsession] at hl
  | connected l =>
    rw [isLive_of_session hsession] at hdead
    have hclosed : c.state = .closed := by rw [state_of_session hsession, hdead]; rfl
    exact ((hm.onTransport hone).state_eq_closed hclosed).trans hclosed.symm
  | closed =>
    have hclosed := state_of_closed hsession
    exact ((hm.onTransport hone).state_eq_closed hclosed).trans hclosed.symm

/-- **A call that connects on a live link is done at once**: it can do nothing else. -/
theorem act_of_connect (hlive : c.isLive = true) (hholds : c.gate.holder? = some id)
    (hwants : c.job? id = some (.connect credentials?)) :
    c.step (.act id) = some (c.finish id (.ok .done)) ∧
      ∀ outcome, c.step (.dialed id outcome) = none := by
  constructor
  · rw [step, act, if_pos hholds, hwants]
    exact if_pos hlive
  · intro outcome
    rw [step]
    exact if_neg (by simp [hlive])

end Client

namespace Rehearsal.World

variable {w : World} {files : Files} {c : Client} {id : CallId} {credentials? : Option Credentials}

theorem wake_files (w : World) (files : Files) (t : Task) :
    ({ w with files := files }).wake t = { w.wake t with files := files } := by
  unfold wake
  split <;> rfl

theorem noticeGrant_files (w : World) (files : Files) (before after : Gate CallId) :
    ({ w with files := files }).noticeGrant before after =
      { w.noticeGrant before after with files := files } := by
  unfold noticeGrant
  cases after with
  | granted next queue =>
    by_cases hsame : before = .granted next queue
    · simp [hsame]
    · simp only [hsame, if_false]
      exact wake_files w files _
  | _ => rfl

/-- A call that is done without having touched the link is recorded, and the gate is handed on. -/
theorem afterClient_finish (result : Except Error Reply) :
    w.afterClient c (c.finish id result).1 (c.finish id result).2 =
      (({ w with host := .client (c.finish id result).1 }).record id (.reply result)).noticeGrant
        c.gate (c.finish id result).1.gate := by
  have hlink : (c.finish id result).1.link? = c.link? := rfl
  unfold afterClient
  rw [hlink]
  cases c.link? with
  | none => rfl
  | some l => simp [noticeAbort, Client.finish, noticeClientEffect]

/-- **A rehearsal of a call that connects on a live link goes on in the same way whatever the files
are.** -/
theorem stepHolder_of_connect {caller : Caller} (hlive : c.isLive = true)
    (hholds : c.gate.holder? = some caller.id)
    (hwants : c.job? caller.id = some (.connect credentials?)) :
    ({ w with files := files }).stepHolder caller c =
      { w.stepHolder caller c with files := files } := by
  have hact := (Client.act_of_connect hlive hholds hwants).1
  have hgoesOn : ∀ w : World, w.stepHolder caller c =
      w.afterClient c (c.finish caller.id (.ok .done)).1 (c.finish caller.id (.ok .done)).2 := by
    intro w
    unfold stepHolder
    simp only [hwants, hlive, if_true, onClient, hact]
  rw [hgoesOn, hgoesOn, afterClient_finish, afterClient_finish]
  exact noticeGrant_files (({ w with host := .client _ }).record caller.id _) files _ _

end Rehearsal.World

namespace Client

variable {c₀ c c' : Client} {e : Event} {es : List Event} {effects : List Effect} {l : Link}
  {id : CallId}

/-! ## Calls that close -/

/-- A call that closes what is closed already, or was never connected, is done at once. -/
theorem act_of_close_linkless (hholds : c.gate.holder? = some id)
    (hwants : c.job? id = some .close) (hlinkless : c.link? = none) :
    c.step (.act id) = some (({ c with session := .closed } : Client).finish id (.ok .done)) := by
  rw [step, act, if_pos hholds, hwants]
  cases hsession : c.session with
  | connected l => simp [link?, hsession] at hlinkless
  | _ => rfl

/-- A call that closes a link does so before it shuts it down. -/
theorem act_of_close (hholds : c.gate.holder? = some id) (hwants : c.job? id = some .close)
    (hsession : c.session = .connected l) (hidle : l.exchange? = none) :
    c.step (.act id) =
      some ({ c with session := .connected (l.closeWith .connectionClosed).1 },
        (l.closeWith .connectionClosed).2.map .link) := by
  have hmoves := Link.Moves.shutdownBegun hidle
  have hact : c.step (.act id) = c.onLink .beginShutdown := by
    rw [step, act, if_pos hholds, hwants, hsession]
  rw [hact, onLink, hsession]
  simp only [hmoves.step_eq, hmoves.returned?_of_inside rfl (by simp)]

theorem finishShutdown_of_close (hholds : c.gate.holder? = some id)
    (hwants : c.job? id = some .close) (hsession : c.session = .connected l) :
    c.step (.finishShutdown id) =
      some (({ c with session := .closed } : Client).finish id (.ok .done)) := by
  rw [step, finishShutdown, if_pos hholds, hwants, hsession]
  rfl

/-- **A call that closes leaves the session closed.** -/
theorem closed_of_close (hstep : c.step e = some (c', effects)) (hwants : c.job? id = some .close)
    {r : Except Error Reply} (hr : .finished id r ∈ effects) :
    c'.session = .closed ∧ r = .ok .done := by
  cases moves_of_step hstep with
  | invalid other request err refused absent =>
    obtain ⟨rfl, -⟩ := by simpa using hr
    simp [hwants] at absent
  | completed e other command yield s le l l' out holds wants =>
    obtain ⟨rfl, -⟩ : id = other ∧ r = yield.result s := by simpa using hr
    simp [hwants] at wants
  | answered e other job result holds wants linkless cause =>
    obtain ⟨rfl, rfl⟩ := Effect.finished.inj (List.mem_singleton.mp hr)
    rcases cause with rfl | ⟨err, rfl⟩
    · cases hsession : c.session with
      | connected l =>
        have hact : c.step (.act id) = c.onLink .beginShutdown := by
          rw [step, act, if_pos holds, hwants, hsession]
        obtain ⟨command, yield, s, hjob, -⟩ := finished_of_onLink (hact.symm.trans hstep) hr
        simp [hwants] at hjob
      | unconnected | closed =>
        have hlinkless : c.link? = none := link?_eq_none (by simp [hsession])
        have hact := act_of_close_linkless holds hwants hlinkless
        obtain ⟨hc', heffects⟩ := Prod.mk.inj (Option.some.inj (hact.symm.trans hstep))
        obtain ⟨-, rfl⟩ := Effect.finished.inj (List.singleton_inj.mp heffects)
        exact ⟨by rw [← hc'], rfl⟩
    · simp [step, dialed, hwants] at hstep
  | closed other =>
    obtain ⟨-, rfl⟩ := Effect.finished.inj (List.mem_singleton.mp hr)
    exact ⟨rfl, rfl⟩
  | shutDown other l l' out =>
    obtain ⟨-, rfl⟩ : id = other ∧ r = .ok .done := by simpa using hr
    exact ⟨rfl, rfl⟩
  | dialed other credentials? holds wants =>
    obtain ⟨rfl, -⟩ := Effect.finished.inj (List.mem_singleton.mp hr)
    simp [hwants] at wants
  | _ => simp at hr

/-! ## Closed links -/

/-- No call of a run opens a link. -/
def OpensNone (es : List Event) : Prop := ∀ id, .dialed id (.ok ()) ∉ es

/-- A client is closed to everybody, and so it was whenever it was asked. -/
structure StaysClosed (c : Client) (effects : List Effect) : Prop where
  state : c.state = .closed
  told : ∀ id state, .finished id (.ok (.state state)) ∈ effects → state = .closed

theorem staysClosed_of_run (hrun : Run step c es c' effects) (hone : OpensNone es)
    (h : c.state = .closed) : StaysClosed c' effects := by
  induction hrun with
  | nil => exact ⟨h, by simp⟩
  | snoc hrun hstep ih =>
    have hearlier : OpensNone _ := fun id hmem => hone id (List.mem_append_left _ hmem)
    obtain ⟨hclosed, htold⟩ := ih hearlier
    have hstays := kept_of_run OnTransport.state_eq_closed (hrun.snoc hstep) hone h
    refine ⟨hstays, fun id state hmem => ?_⟩
    rcases List.mem_append.mp hmem with hbefore | hnow
    · exact htold id state hbefore
    · exact (state_of_reply hstep hnow).trans hclosed

/-- A call that comes too late and waits: it can resume when the gate is granted to it, and when it
holds the gate it can act, and is turned away. -/
structure Waits (c : Client) (id : CallId) : Prop where
  here : id ∈ c.gate.callers
  resumes : ∀ queue, c.gate = .granted id queue →
    c.step (.resume id) = some ({ c with gate := .held id queue }, [])
  acts : c.gate.holder? = some id → ∃ c' out,
    c.step (.act id) = some (c', out.map .link ++ [.finished id (.error .connectionClosed)]) ∧
      Link.accepted out = []

/-- A call that comes too late gets nothing but that the connection is closed. -/
structure TurnedAway (c : Client) (id : CallId) (effects : List Effect) : Prop where
  refused : ∀ r, .finished id r ∈ effects → r = .error .connectionClosed
  told : .finished id (.error .connectionClosed) ∈ effects ∨ .cancelled id ∈ effects ∨ Waits c id

theorem Late.waits {command : Command} {yield : Yield} (h : Late c id command yield) :
    Waits c id := by
  refine ⟨h.here, fun queue hgranted => ?_, h.act⟩
  rw [Client.step, hgranted]
  simp [Gate.resume]

theorem Turned.turnedAway {command : Command} {yield : Yield}
    (h : Turned c id command yield effects) : TurnedAway c id effects := by
  cases h with
  | late late unfinished =>
    exact ⟨fun r hr => absurd hr (unfinished r), .inr (.inr late.waits)⟩
  | gone absent refused told => exact ⟨refused, told.imp_right .inl⟩

/-- An exchange that runs is that of the call that holds the gate. -/
theorem served_of_run {config : Config} (hmade : c₀ = new config ∨ c₀ = withTransport config)
    (hrun : Run step c₀ es c effects) {x : Exchange} (hx : c.exchange? = some x) :
    ∃ id command, c.gate.holder? = some id ∧ c.command? id = some command := by
  obtain ⟨l, hsession, hrunning⟩ := session_of_exchange? hx
  obtain ⟨id, command, hholds, hwants, -⟩ := (linked_of_run hmade hrun hsession).2 x hrunning
  exact ⟨id, command, hholds, hwants⟩

/-- What it means that a link is closed for good. -/
structure Absorbing (c : Client) : Prop where
  /-- A link that is closed is never connected again. -/
  dead : c.isLive = false → ∀ later c' more, c.run later = some (c', more) → OpensNone later →
    c'.isLive = false
  /-- A client that is closed is closed from then on. -/
  closed : c.state = .closed → ∀ later c' more, c.run later = some (c', more) → OpensNone later →
    StaysClosed c' more
  /-- An exchange that fails leaves a closed link, and the client is closed from then on. -/
  failed : ∀ e c' now, c.step e = some (c', now) →
    (∃ effect ∈ linkEffects now, effect.isFailure = true) →
    (∃ l le l', c.session = .connected l ∧ l.step le = some (l', linkEffects now) ∧
      l'.connected = false) ∧
    ∀ later c'' more, c'.run later = some (c'', more) → OpensNone later →
      c''.session = .closed ∧ StaysClosed c'' more
  /-- Without a link that can be used no call is put on the wire, and nothing is written but by the
  exchange that is still running. -/
  silent : c.state ≠ .connected → ∀ later c' more, c.run later = some (c', more) →
    OpensNone later → started c later = [] ∧
      ∀ t, (∀ x, c.exchange? = some x → x.ticket ≠ t) →
        Link.acceptedOf t (linkEffects more) = []
  /-- A call that wants a command to be sent is turned away. -/
  late : c.state ≠ .connected → ∀ id request command yield later c' more,
    request.check = .ok (.exchange command yield) →
    c.run (.issue id request :: later) = some (c', more) → OpensNone later →
    (∀ request', .issue id request' ∉ later) → TurnedAway c' id more
  /-- If nobody is at the gate, that happens at once. -/
  alone : c.state ≠ .connected → c.gate = .free → ∀ id request command yield,
    request.check = .ok (.exchange command yield) → c.job? id = none →
    ∃ c' out, c.run [.issue id request, .act id] =
        some (c', out.map .link ++ [.finished id (.error .connectionClosed)]) ∧
      Link.accepted out = []

theorem absorbing_of_run {config : Config} (hmade : c₀ = new config ∨ c₀ = withTransport config)
    (hrun : Run step c₀ es c effects) : Absorbing c := by
  have hgate := gate_of_made hmade
  have hqueued := queued_of_run hgate hrun
  have hdead : c.state ≠ .connected → c.isLive = false := by
    intro hstate
    exact Bool.eq_false_iff.mpr fun hlive => hstate (state_eq_connected_iff.mpr hlive)
  have hserved : ∀ x, c.exchange? = some x → ∃ other command,
      c.gate.holder? = some other ∧ c.command? other = some command :=
    fun x hx => served_of_run hmade hrun hx
  constructor
  case dead =>
    intro hdead later c' more hlater hone
    exact kept_of_run OnTransport.isLive_eq_false (run_eq_some_iff.mp hlater) hone hdead
  case closed =>
    intro hclosed later c' more hlater hone
    exact staysClosed_of_run (run_eq_some_iff.mp hlater) hone hclosed
  case failed =>
    intro e c' now hstep hfailure
    obtain ⟨hclosed, hlink⟩ := (moves_of_step hstep).closed_of_failure
      (fun l hl => (linked_of_run hmade hrun hl).1) hfailure
    refine ⟨hlink, fun later c'' more hlater hone => ?_⟩
    have hlater := run_eq_some_iff.mp hlater
    exact ⟨kept_of_run OnTransport.session_eq_closed hlater hone hclosed,
      staysClosed_of_run hlater hone (state_of_closed hclosed)⟩
  case silent =>
    intro hstate later c' more hlater hone
    have hlater := run_eq_some_iff.mp hlater
    exact ⟨unstarted_of_run hlater hone (hdead hstate),
      (unwritten_of_run hlater hone (hdead hstate)).2⟩
  case late =>
    intro hstate id request command yield later c' more hvalid hlater hone hnew
    rw [run_eq_runWith] at hlater
    obtain ⟨c₁, now, rest, hstep, hrest, rfl⟩ := runWith_cons.mp hlater
    obtain ⟨hlate, rfl⟩ := late_of_issue hvalid hstep hqueued (hdead hstate) hserved
    exact (turned_of_run hgate (hrun.snoc hstep) hlate (runWith_eq_some_iff.mp hrest) hone
      hnew).turnedAway
  case alone =>
    intro hstate hfree id request command yield hvalid habsent
    have hstep : c.step (.issue id request) = some ({ c with
        gate := c.gate.arrive id
        jobs := (id, .exchange command yield) :: c.jobs }, []) := by
      simp [step, issue, habsent, hvalid]
    obtain ⟨hlate, -⟩ := late_of_issue hvalid hstep hqueued (hdead hstate) hserved
    obtain ⟨c', out, hact, hsilent⟩ := hlate.act (by simp [hfree, Gate.arrive, Gate.holder?])
    refine ⟨c', out, ?_, hsilent⟩
    rw [run_eq_runWith]
    exact runWith_cons.mpr ⟨_, _, _, hstep, runWith_singleton.trans hact, rfl⟩

/-! ## The result -/

/-- What a client tells, and what it makes of a response. -/
structure Telling (c : Client) : Prop where
  /-- A call that asks for the state is told the state. -/
  told : ∀ id, c.gate.holder? = some id → c.job? id = some .state →
    c.step (.act id) = some (c.finish id (.ok (.state c.state)))
  /-- A response closes nothing, whatever it tells. -/
  response : ∀ e c' effects r, c.step e = some (c', effects) →
    (∃ effect ∈ linkEffects effects, effect.isResponse r) → c'.state = c.state
  /-- If it tells of an error, a call is told. -/
  serverError : ∀ e c' effects t r, c.step e = some (c', effects) → r.status = .serverError →
    .returned t (.ok r) ∈ linkEffects effects →
    ∃ id, .finished id (.error (.server (Utf8.decodeLossy r.payload))) ∈ effects

/-- What calls that connect do without opening a link. -/
structure Connecting (c : Client) : Prop where
  /-- They leave the session alone. -/
  unchanged : ∀ e id c' effects, c.step e = some (c', effects) → ConnectStep c id e →
    c'.session = c.session ∧ linkEffects effects = []
  /-- The state stays the same also if others come or go in the meantime. -/
  meanwhile : ∀ e id credentials? c' effects, c.step e = some (c', effects) →
    (∀ other, e ≠ .dialed other (.ok ())) → c.isLive = false → c.gate.holder? = some id →
    c.job? id = some (.connect credentials?) → c'.state = c.state
  /-- On a live link there is nothing to do, -/
  live : ∀ id credentials?, c.isLive = true → c.gate.holder? = some id →
    c.job? id = some (.connect credentials?) →
    c.step (.act id) = some (c.finish id (.ok .done)) ∧
      ∀ outcome, c.step (.dialed id outcome) = none
  /-- and it is done without a look at the files. -/
  unread : ∀ (w : Rehearsal.World) (files : Files) (caller : Rehearsal.Caller)
    credentials?, c.isLive = true → c.gate.holder? = some caller.id →
    c.job? caller.id = some (.connect credentials?) →
    ({ w with files := files }).stepHolder caller c =
      { w.stepHolder caller c with files := files }

/-- What calls that close do. -/
structure Closing (c : Client) : Prop where
  /-- They leave a closed client. -/
  ends : ∀ e id c' effects r, c.step e = some (c', effects) → c.job? id = some .close →
    .finished id r ∈ effects → c'.session = .closed ∧ c'.state = .closed ∧ r = .ok .done
  /-- Without a link they are done at once. -/
  linkless : ∀ id, c.gate.holder? = some id → c.job? id = some .close → c.link? = none →
    c.step (.act id) = some (({ c with session := .closed } : Client).finish id (.ok .done))
  /-- With a link they close it, and are done when it is shut down. -/
  linked : ∀ id l, c.gate.holder? = some id → c.job? id = some .close → c.session = .connected l →
    ∃ c₁ now, c.step (.act id) = some (c₁, now) ∧ c₁.isLive = false ∧
      c₁.step (.finishShutdown id) =
        some (({ c₁ with session := .closed } : Client).finish id (.ok .done))
  /-- What is closed stays as it is. -/
  again : c.session = .closed → ∀ e c' effects, c.step e = some (c', effects) →
    (∀ id, e ≠ .dialed id (.ok ())) → c'.session = .closed ∧ linkEffects effects = []

/-- The laws of a session. -/
structure SessionLaws (c : Client) : Prop where
  absorbing : Absorbing c
  telling : Telling c
  connecting : Connecting c
  closing : Closing c

theorem telling (c : Client) : Telling c where
  told id hholds hwants := act_of_state hholds hwants
  response e c' effects r hstep hresponse := (moves_of_step hstep).state_of_response hresponse
  serverError e c' effects t r hstep herror hreturned := by
    obtain ⟨id, yield, hfinished⟩ := (moves_of_step hstep).finished_of_response hreturned
    exact ⟨id, yield.result_of_serverError herror ▸ hfinished⟩

theorem connecting_of_run {config : Config} (hmade : c₀ = new config ∨ c₀ = withTransport config)
    (hrun : Run step c₀ es c effects) : Connecting c where
  unchanged _ _ _ _ hstep hown :=
    (moves_of_step hstep).session_of_connect hown fun _ hx => served_of_run hmade hrun hx
  meanwhile _ _ _ _ _ hstep hone hdead hholds hwants :=
    (moves_of_step hstep).state_of_connecting hdead hone hholds hwants
  live _ _ hlive hholds hwants := act_of_connect hlive hholds hwants
  unread _ _ _ _ hlive hholds hwants :=
    Rehearsal.World.stepHolder_of_connect hlive hholds hwants

theorem closing_of_run {config : Config} (hmade : c₀ = new config ∨ c₀ = withTransport config)
    (hrun : Run step c₀ es c effects) : Closing c := by
  constructor
  case ends =>
    intro e id c' effects r hstep hwants hr
    obtain ⟨hclosed, rfl⟩ := closed_of_close hstep hwants hr
    exact ⟨hclosed, state_of_closed hclosed, rfl⟩
  case linkless =>
    intro id hholds hwants hlinkless
    exact act_of_close_linkless hholds hwants hlinkless
  case linked =>
    intro id l hholds hwants hsession
    -- The exchange that is running would be that of the call that closes.
    have hidle : l.exchange? = none := by
      cases hx : l.exchange? with
      | none => rfl
      | some x =>
        obtain ⟨other, command, hother, hcommand⟩ :=
          served_of_run hmade hrun ((exchange?_of_session hsession).trans hx)
        obtain rfl : id = other := by simpa [hholds] using hother
        simp [command?_of_job? hwants, Job.command?] at hcommand
    refine ⟨_, _, act_of_close hholds hwants hsession hidle, ?_, ?_⟩
    · exact (isLive_of_session rfl).trans (Link.connected_closeWith l _)
    · exact finishShutdown_of_close hholds hwants rfl
  case again =>
    intro hclosed e c' effects hstep hone
    have ht := (moves_of_step hstep).onTransport hone
    refine ⟨ht.session_eq_closed hclosed, ?_⟩
    cases ht with
    | rests session silent => exact silent
    | steps le l l' before => simp [hclosed] at before

/-- **A link that is closed is the end of a session.**  However a client has come to where it is: as
long as no call opens a link, it is never connected again once it is closed, and an exchange that
fails closes it; then commands are turned away, and nothing is written.  Calls that connect change
nothing until they succeed, and calls that close leave it closed. -/
theorem session_laws_of_run {config : Config}
    (hmade : c₀ = new config ∨ c₀ = withTransport config)
    (hrun : c₀.run es = some (c, effects)) : SessionLaws c := by
  have hrun := run_eq_some_iff.mp hrun
  exact ⟨absorbing_of_run hmade hrun, telling c, connecting_of_run hmade hrun,
    closing_of_run hmade hrun⟩

/-- The peer answers a call with a segment that is none.  The client is closed, turns away the next
call, tells its state, and can be closed again. -/
theorem session_laws_of_run_closed :
    let request : Request := .load (.text "[]")
    ∃ c c' effects more, (withTransport .default).run [.issue 0 request, .act 0, .link (.accept 6),
        .link .flush, .link (.receive [33, 4]), .link .stop, .link .collect] = some (c, effects) ∧
      c.run [.issue 1 request, .act 1, .issue 2 .state, .act 2, .issue 3 .close, .act 3] =
        some (c', more) ∧
      c.state = .closed ∧ c.gate = .free ∧
      more = [.finished 1 (.error .connectionClosed), .finished 2 (.ok (.state .closed)),
        .finished 3 (.ok .done)] ∧
      SessionLaws c := by
  intro request
  have hrun : (withTransport .default).run [.issue 0 request, .act 0, .link (.accept 6),
      .link .flush, .link (.receive [33, 4]), .link .stop, .link .collect] =
        some (⟨.default, .closed, false, .free, []⟩,
          [.link (.registered 0), .link (.wrote 0 [105, 109, 112, 91, 93, 4]),
            .link (.settled 0 (.error (.malformed (.unknownStatus 33)))),
            .link (.returned 0 (.error (.malformed (.unknownStatus 33)))),
            .finished 0 (.error (.malformed (.unknownStatus 33)))]) := by cbv
  have hlater : (⟨.default, .closed, false, .free, []⟩ : Client).run [.issue 1 request, .act 1,
      .issue 2 .state, .act 2, .issue 3 .close, .act 3] =
        some (⟨.default, .closed, false, .free, []⟩, [.finished 1 (.error .connectionClosed),
          .finished 2 (.ok (.state .closed)), .finished 3 (.ok .done)]) := by cbv
  exact ⟨_, _, _, _, hrun, hlater, rfl, rfl, rfl, session_laws_of_run (.inr rfl) hrun⟩

end Client

end KvClient

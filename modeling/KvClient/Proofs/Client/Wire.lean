import KvClient.Proofs.Client.Transport

/-!
# What the calls of a client put on the wire

Any number of calls share one transport.  What it has accepted is at any time a number of whole
frames, one for each of as many calls, in the order in which the gate admitted them, and after them
at most a part of the frame of one more call.  If that call is over, nothing follows.

## How it works

* **Only the call that holds the gate writes, and it begins once at most**: `Serves`, which every
  step keeps (`Serves.step`).
* **A call that is over with its frame cut leaves a closed link**: `silent_of_run`.
* **Calls do not interleave**: `accepted_of_run`.
-/

namespace KvClient

/-- A caller that gives up takes the guard from no other one. -/
theorem Gate.holder?_cancel_ne {α : Type} [DecidableEq α] {g : Gate α} {c d : α}
    (h : g.holder? = some d) (hne : d ≠ c) : (g.cancel c).holder? = some d := by
  cases g with
  | held holder queue =>
    obtain rfl : holder = d := by simpa [holder?] using h
    rw [cancel, if_neg hne]
    rfl
  | _ => simp [holder?] at h

/-- An exchange that is abandoned is gone, and its link is closed. -/
theorem Link.Moves.gone_of_abandon {l l' : Link} {out : List Link.Effect}
    (hm : Link.Moves l .abandon l' out) : l'.exchange? = none ∧ l'.connected = false := by
  cases hm with
  | abandoned => exact ⟨rfl, Link.connected_closeWith l _⟩

/-- An exchange that returns is gone. -/
theorem Link.Moves.exchange?_of_returned {l l' : Link} {e : Link.Event} {out : List Link.Effect}
    {s : Settlement} (hm : Link.Moves l e l' out) (h : Client.returned? out = some s) :
    l'.exchange? = none := by
  have hclosing : ∀ cause, Client.returned? (l.closeWith cause).2 = none := by
    intro cause
    simpa [Client.returned?] using Link.returned?_closeWith_append l cause []
  cases hm with
  | writeFailed | expired | abandoned | collected => rfl
  | refused frame idle => exact idle
  | stopped cause | closed | shutdownBegun => simp [hclosing] at h
  | _ => simp [Client.returned?] at h

namespace Client

variable {c c' : Client} {e : Event} {effects : List Effect}
  {adm arrived calls : List (CallId × Command)}

/-! ## The call that writes -/

/-- Calls begin to write in the order of their admission.  An exchange that runs is that of the last
one, which still holds the gate; and while the link is idle, the call that holds the gate has yet to
begin. -/
structure Serves (c : Client) (adm calls : List (CallId × Command)) : Prop where
  order : calls.Sublist adm
  running : ∀ x, c.exchange? = some x → ∃ id command, c.gate.holder? = some id ∧
    c.command? id = some command ∧ x.frame = command.encode ∧ calls.getLast? = some (id, command)
  next : ∀ id command, c.isLive = true → c.exchange? = none → c.gate.holder? = some id →
    c.command? id = some command → (calls ++ [(id, command)]).Sublist adm

theorem exchange?_congr (h : c'.session = c.session) : c'.exchange? = c.exchange? := by
  rw [exchange?, exchange?, link?, link?, h]

theorem isLive_congr (h : c'.session = c.session) : c'.isLive = c.isLive := by
  rw [isLive, isLive, link?, link?, h]

theorem exchange?_of_closed (h : c.session = .closed) : c.exchange? = none := by
  rw [exchange?, link?, h]
  rfl

theorem exchange?_of_linkless (h : c.link? = none) : c.exchange? = none := by
  rw [exchange?, h]
  rfl

/-- Once the session of a client was left by an exchange that is gone, no exchange is running. -/
theorem exchange?_letGo {l : Link} (h : l.exchange? = none) : (c.letGo l).exchange? = none := by
  rcases session_letGo c l with hsession | hsession
  · rw [exchange?_of_session hsession, h]
  · exact exchange?_of_closed hsession

/-- If the link is live and idle behind a step that lets the gate be held, it was so before. -/
theorem Moves.idle_before (hm : Moves c e c' effects) (hone : ∀ id, e ≠ .dialed id (.ok ()))
    (hlive : c'.isLive = true) (hidle : c'.exchange? = none) {id : CallId}
    (hholds : c'.gate.holder? = some id) : c.isLive = true ∧ c.exchange? = none := by
  have hreleased : ∀ {other : CallId}, c.gate.holder? = some other →
      (c.gate.release other).holder? ≠ some id := by
    intro other hother
    rw [(Gate.release_of_holder? hother).1]
    simp
  cases hm with
  | invalid | arrived | resumed => exact ⟨hlive, hidle⟩
  | arrivedToClose =>
    obtain ⟨-, -, ⟨hsession, -⟩ | ⟨l, hl, hsession, -⟩⟩ := takeCloser_cases c
    · exact ⟨(isLive_congr hsession).symm.trans hlive,
        (exchange?_congr hsession).symm.trans hidle⟩
    · have hdead := hlive.symm.trans (isLive_of_session hsession)
      simp [Link.close] at hdead
  | began other command yield l l' out holds wants session moves running =>
    rw [exchange?_of_session rfl, (moves.connected_of_begin running).2.2] at hidle
    simp at hidle
  | progressed le l l' out outside session moves running =>
    rw [isLive_of_session rfl] at hlive
    rw [exchange?_of_session rfl] at hidle
    rw [isLive_of_session session, exchange?_of_session session]
    obtain ⟨-, hstays⟩ := moves.exchange_of_outside outside running
    constructor
    · cases hc : l.connected with
      | true => rfl
      | false => simp [moves.connected_eq_false hc] at hlive
    · cases hx : l.exchange? with
      | none => rfl
      | some x =>
        obtain ⟨x', hx', -⟩ := hstays x hx
        simp [hidle] at hx'
  | completed e other command yield s le l l' out holds =>
    exact absurd (by simpa [finish] using hholds) (hreleased holds)
  | shutdownBegun other l l' out holds wants session moves =>
    rw [isLive_of_session rfl] at hlive
    cases moves with
    | shutdownBegun => simp at hlive
  | answered e other job result holds => exact absurd hholds (hreleased holds)
  | closed other holds | shutDown other l l' out holds => exact absurd hholds (hreleased holds)
  | dialed other => exact absurd rfl (hone other)
  | cancelled other =>
    obtain ⟨-, -, ⟨hsame, -⟩ | ⟨l, l', out, hl, moves, hsession, -⟩⟩ :=
      abandonExchange_cases c other
    · rw [hsame] at hlive hidle
      exact ⟨hlive, hidle⟩
    · have hdead := hlive.symm.trans (isLive_of_session hsession)
      simp [moves.gone_of_abandon.2] at hdead

/-- An exchange that runs behind a step which begins none was running before, for the same frame. -/
theorem Moves.frame_before (hm : Moves c e c' effects) (hone : ∀ id, e ≠ .dialed id (.ok ()))
    (hnobody : startedBy c e c' = []) {x' : Exchange} (hx' : c'.exchange? = some x') :
    ∃ x, c.exchange? = some x ∧ x'.frame = x.frame := by
  cases hm with
  | invalid | arrived | resumed | answered => exact ⟨x', hx', rfl⟩
  | arrivedToClose =>
    obtain ⟨-, -, ⟨hsession, -⟩ | ⟨l, hl, hsession, -⟩⟩ := takeCloser_cases c
    · exact ⟨x', (exchange?_congr hsession).symm.trans hx', rfl⟩
    · have hclosed := (exchange?_of_session hsession).symm.trans hx'
      rw [Link.close, Link.exchange?_closeWith] at hclosed
      obtain ⟨x, hx, rfl⟩ := Option.map_eq_some_iff.mp hclosed
      exact ⟨x, (exchange?_of_session hl).trans hx, Exchange.frame_told ..⟩
  | began id command yield l l' out holds wants session moves running =>
    have hlive := (isLive_of_session session).trans (moves.connected_of_begin running).1
    rw [startedBy_of_live hlive (command?_of_job? wants)] at hnobody
    simp at hnobody
  | progressed le l l' out outside session moves running =>
    rw [exchange?_of_session rfl] at hx'
    obtain ⟨hnone, hstays⟩ := moves.exchange_of_outside outside running
    cases hx : l.exchange? with
    | none => simp [hnone hx] at hx'
    | some x =>
      obtain ⟨y, hy, hframe⟩ := hstays x hx
      obtain rfl : y = x' := by simpa [hx'] using hy.symm
      exact ⟨x, (exchange?_of_session session).trans hx, hframe⟩
  | completed e id command yield s le l l' out holds wants cause session moves returned =>
    have hgone := (exchange?_letGo (c := c) (moves.exchange?_of_returned returned)).symm.trans hx'
    simp at hgone
  | shutdownBegun id l l' out holds wants session moves =>
    rw [exchange?_of_session rfl] at hx'
    cases moves with
    | shutdownBegun idle => simp [idle] at hx'
  | closed | shutDown =>
    have hgone := (exchange?_of_closed rfl).symm.trans hx'
    simp at hgone
  | dialed id => exact absurd rfl (hone id)
  | cancelled id =>
    obtain ⟨-, -, ⟨hsame, -⟩ | ⟨l, l', out, hl, moves, hsession, -⟩⟩ :=
      abandonExchange_cases c id
    · rw [hsame] at hx'
      exact ⟨x', hx', rfl⟩
    · have hgone := (exchange?_of_session hsession).symm.trans hx'
      simp [moves.gone_of_abandon.1] at hgone

/-- A call whose exchange is running keeps the gate until the exchange is over. -/
theorem Moves.holder_after (hm : Moves c e c' effects) (hq : Queued c adm arrived)
    (hone : ∀ id, e ≠ .dialed id (.ok ())) {x x' : Exchange} (hx : c.exchange? = some x)
    (hx' : c'.exchange? = some x') {id : CallId} {command : Command}
    (hholds : c.gate.holder? = some id) (hwants : c.command? id = some command) :
    c'.gate.holder? = some id ∧ c'.command? id = some command := by
  have harrives : ∀ other, (c.gate.arrive other).holder? = some id := by
    intro other
    rcases Gate.arrive_cases other c.gate with ⟨hfree, -⟩ | ⟨hsame, -⟩
    · simp [hholds] at hfree
    · rw [hsame, hholds]
  have hother : ∀ other, c.job? other = none → id ≠ other := by
    rintro other habsent rfl
    exact hq.not_mem habsent (Gate.mem_callers_of_holder? hholds)
  have hclosed : ∀ {d : Client}, d.session = .closed → d.exchange? ≠ some x' := by
    intro d hd
    rw [exchange?_of_closed hd]
    simp
  cases hm with
  | invalid | began | progressed | shutdownBegun => exact ⟨hholds, hwants⟩
  | arrived other request job valid absent =>
    refine ⟨harrives other, ?_⟩
    rw [command?, job?_cons_ne rfl (hother other absent)]
    exact hwants
  | arrivedToClose other request valid absent =>
    obtain ⟨hgate, hjobs, -⟩ := takeCloser_cases c
    constructor
    · show (c.takeCloser.1.gate.arrive other).holder? = some id
      rw [hgate]
      exact harrives other
    · rw [command?, job?_cons_ne rfl (hother other absent), job?_congr hjobs]
      exact hwants
  | resumed other queue granted => simp [granted, Gate.holder?] at hholds
  | completed e other command' yield s le l l' out holds wants cause session moves returned =>
    have hgone := (exchange?_letGo (c := c) (moves.exchange?_of_returned returned)).symm.trans hx'
    simp at hgone
  | answered e other job result holds wants linkless =>
    obtain rfl : id = other := by simpa [hholds] using holds
    rw [command?_of_job? wants] at hwants
    rw [exchange?_of_linkless (linkless (by rw [hwants]; rfl))] at hx
    simp at hx
  | closed other holds wants linkless => simp [exchange?_of_linkless linkless] at hx
  | shutDown => exact absurd hx' (hclosed rfl)
  | dialed other => exact absurd rfl (hone other)
  | cancelled other =>
    obtain ⟨hgate, hjobs, habandons⟩ := abandonExchange_cases c other
    rcases habandons with ⟨hsame, hidle⟩ | ⟨l, l', out, hl, moves, hsession, -⟩
    · have hne : id ≠ other := by
        rintro rfl
        obtain ⟨l, hl⟩ : ∃ l, c.session = .connected l := by
          cases hsession : c.session with
          | connected l => exact ⟨l, rfl⟩
          | _ => simp [exchange?, link?, hsession] at hx
        rw [exchange?_of_session hl, hidle l hl hholds] at hx
        simp at hx
      constructor
      · show ((c.abandonExchange other).1.gate.cancel other).holder? = some id
        rw [hgate]
        exact Gate.holder?_cancel_ne hholds hne
      · rw [command?, job?_filter_ne rfl hne, job?_congr hjobs]
        exact hwants
    · have hgone := (exchange?_of_session hsession).symm.trans hx'
      simp [moves.gone_of_abandon.1] at hgone

/-- **A step keeps the order of the calls that write.** -/
theorem Serves.step (h : Serves c adm calls) (hq : Queued c adm arrived)
    (hm : Moves c e c' effects) (hone : ∀ id, e ≠ .dialed id (.ok ())) :
    Serves c' (adm ++ admittedBy c e c') (calls ++ startedBy c e c') := by
  rcases hm.startedBy_cases with hnobody | ⟨id, command, hcall, hstarts⟩
  · -- An exchange that runs behind the step ran before, and its call still holds the gate.
    rw [hnobody, List.append_nil]
    refine ⟨h.order.trans (List.sublist_append_left ..), fun x' hx' => ?_, ?_⟩
    · obtain ⟨x, hx, hframe⟩ := hm.frame_before hone hnobody hx'
      obtain ⟨id, command, hholds, hwants, hencode, hlast⟩ := h.running x hx
      obtain ⟨hholds', hwants'⟩ := hm.holder_after hq hone hx hx' hholds hwants
      exact ⟨id, command, hholds', hwants', hframe.trans hencode, hlast⟩
    · intro id command hlive hidle hholds hwants
      obtain ⟨hlive₀, hidle₀⟩ := hm.idle_before hone hlive hidle hholds
      rcases hm.atGate.holder_cases hq hholds hwants with ⟨hheld, hwanted, hsame⟩ | ⟨-, hnew⟩
      · rw [hsame, List.append_nil]
        exact h.next id command hlive₀ hidle₀ hheld hwanted
      · -- A call that the step admits comes behind all those that have begun.
        rw [hnew]
        exact h.order.append (List.Sublist.refl _)
  · -- The call that begins is the one that was admitted last.
    have hnone : admittedBy c e c' = [] := if_neg (by simp [hstarts.holds])
    obtain ⟨x, hx, hframe⟩ := hstarts.running
    rw [hcall, hnone, List.append_nil]
    refine ⟨h.next id command hstarts.live hstarts.idle hstarts.holds hstarts.wants, ?_, ?_⟩
    · intro x' hx'
      obtain rfl : x = x' := by simpa [hx] using hx'
      refine ⟨id, command, ?_, ?_, hframe, by simp⟩
      · rw [hstarts.gate]
        exact hstarts.holds
      · rw [command?, job?_congr hstarts.jobs]
        exact hstarts.wants
    · intro other command' _ hidle
      simp [hx] at hidle

/-! ## After the end -/

/-- On a link that is closed and idle nothing is written any more. -/
theorem OnTransport.silent {out : List Link.Effect} (ht : OnTransport c e c' out)
    (hdead : c.isLive = false) (hidle : c.exchange? = none) :
    c'.isLive = false ∧ c'.exchange? = none ∧ Link.accepted out = [] := by
  cases ht with
  | rests session silent nobody =>
    rw [silent]
    rcases session with hsame | hclosed
    · exact ⟨(isLive_congr hsame).trans hdead, (exchange?_congr hsame).trans hidle, rfl⟩
    · exact ⟨by rw [isLive, link?, hclosed], exchange?_of_closed hclosed, rfl⟩
  | steps le l l' session moves after =>
    rw [isLive_of_session session] at hdead
    rw [exchange?_of_session session] at hidle
    obtain ⟨hidle', hdead', hsilent, -⟩ := moves.silent hidle hdead
    rcases after with hl | hclosed
    · exact ⟨(isLive_of_session hl).trans hdead', (exchange?_of_session hl).trans hidle', hsilent⟩
    · exact ⟨by rw [isLive, link?, hclosed], exchange?_of_closed hclosed, hsilent⟩

theorem silent_of_run {es : List Event} (hrun : Run step c es c' effects)
    (hone : ∀ id, .dialed id (.ok ()) ∉ es) (hdead : c.isLive = false)
    (hidle : c.exchange? = none) :
    c'.isLive = false ∧ c'.exchange? = none ∧ accepted effects = [] := by
  induction hrun with
  | nil => exact ⟨hdead, hidle, rfl⟩
  | snoc hrun hstep ih =>
    obtain ⟨hdead₁, hidle₁, hsilent⟩ := ih fun id hmem => hone id (List.mem_append_left _ hmem)
    have ht := (moves_of_step hstep).onTransport fun id he =>
      hone id (List.mem_append_right _ (he ▸ List.mem_singleton_self _))
    obtain ⟨hdead₂, hidle₂, hsilent₂⟩ := ht.silent hdead₁ hidle₁
    refine ⟨hdead₂, hidle₂, ?_⟩
    rw [accepted, linkEffects_append, Link.accepted_append, hsilent₂, List.append_nil]
    exact hsilent

/-- A link that is idle, and whose last frame is cut, is closed. -/
theorem Carried.dead_of_cut {options : LinkOptions} {out : List Link.Effect}
    (h : Carried options c calls out) (hidle : c.exchange? = none)
    (hcut : Link.accepted out ≠ (calls.map (·.2.encode)).flatten) : c.isLive = false := by
  obtain ⟨les, l, hrun, hbegun, hsession⟩ := h
  rcases hsession with hl | hclosed
  · rw [isLive_of_session hl]
    rw [exchange?_of_session hl] at hidle
    refine Bool.eq_false_iff.mpr fun hconnected => hcut ?_
    rw [(Link.written_of_run hrun).ready hidle hconnected, hbegun]
  · rw [isLive, link?, hclosed]

/-- A call that acts finds the link idle. -/
theorem Serves.idle_of_act (h : Serves c adm calls) {id : CallId}
    (hm : Moves c (.act id) c' effects) : c.exchange? = none := by
  cases hm with
  | began other command yield l l' out holds wants session moves running =>
    exact (exchange?_of_session session).trans (moves.connected_of_begin running).2.1
  | completed e other command yield s le l l' out holds wants cause session moves returned =>
    rcases cause with ⟨he, -⟩ | ⟨-, rfl⟩
    · simp at he
    · obtain ⟨rfl, -⟩ := moves.refused_of_begin returned
      exact (exchange?_of_session session).trans (moves.exchange?_of_returned returned)
  | shutdownBegun other l l' out holds wants session moves =>
    cases moves with
    | shutdownBegun idle => exact (exchange?_of_session session).trans idle
  | answered e other job result holds wants linkless =>
    cases hx : c.exchange? with
    | none => rfl
    | some x =>
      obtain ⟨id', command, hholds, hwants, -⟩ := h.running x hx
      obtain rfl : id' = other := by simpa [hholds] using holds
      rw [command?_of_job? wants] at hwants
      rw [← hx, exchange?_of_linkless (linkless (by rw [hwants]; rfl))]
  | closed other holds wants linkless => exact exchange?_of_linkless linkless

/-! ## The result -/

/-- What holds of a transport that was opened behind the events `before`, once the events `after`
have followed. -/
structure Orderly (c₀ c₁ : Client) (before after : List Event) (c : Client)
    (effects : List Effect) : Prop where
  /-- The transport has accepted the frames of the calls that were started, one after the other, of
  which the last one may be cut. -/
  frames : Link.OnWire ((started c₁ after).map (·.2.encode)) (accepted effects)
  /-- These are different calls, in the order of their admission. -/
  admission : (started c₁ after).Sublist (admitted c₀ (before ++ after))
  /-- Calls are admitted in the order of their arrival, and only if they have passed their check. -/
  arrival : (admitted c₀ (before ++ after)).Sublist (checked (before ++ after))
  /-- An exchange that runs is that of the call that was started last, which holds the gate. -/
  writer : ∀ x, c.exchange? = some x → ∃ id command, c.gate.holder? = some id ∧
    x.frame = command.encode ∧ (started c₁ after).getLast? = some (id, command)
  /-- Nothing follows a frame that is cut once its exchange is over. -/
  cut : ∀ now later, after = now ++ later → ∀ c₂ effects₂, c₁.run now = some (c₂, effects₂) →
    c₂.exchange? = none → accepted effects₂ ≠ ((started c₁ now).map (·.2.encode)).flatten →
    accepted effects = accepted effects₂
  /-- Nothing follows once a call has found the link closed. -/
  closed : ∀ id now later, after = now ++ .act id :: later → ∀ c₂ effects₂,
    c₁.run now = some (c₂, effects₂) → c₂.isLive = false → accepted effects = accepted effects₂

variable {c₀ c₁ : Client} {options : LinkOptions} {before after : List Event}
  {effects₀ : List Effect}

/-- The invariants hold at every moment of the life of a transport. -/
theorem invariants_of_run (hgate : c₀.gate = .free) (hopen : Run step c₀ before c₁ effects₀)
    (hnew : c₁.session = .connected (.new options)) (hrun : Run step c₁ after c effects)
    (hone : ∀ id, .dialed id (.ok ()) ∉ after) :
    Serves c (admitted c₀ (before ++ after)) (started c₁ after) ∧
      Carried options c (started c₁ after) (linkEffects effects) := by
  induction hrun with
  | nil =>
    rw [List.append_nil]
    refine ⟨⟨List.nil_sublist _, fun x hx => ?_, fun id command _ _ hholds hwants => ?_⟩,
      carried_new hnew⟩
    · rw [exchange?_of_session hnew] at hx
      simp [Link.new] at hx
    · have hmem := (queued_of_run hgate hopen).holder id command hholds hwants
      exact List.singleton_sublist.mpr hmem
  | @snoc es c₂ effects₂ e c₃ more hrun hstep ih =>
    obtain ⟨hserves, hcarried⟩ := ih fun id hmem => hone id (List.mem_append_left _ hmem)
    have hlast : ∀ id, e ≠ .dialed id (.ok ()) := fun id he =>
      hone id (List.mem_append_right _ (he ▸ List.mem_singleton_self _))
    have hm := moves_of_step hstep
    have hall := hopen.append hrun
    rw [started, log_snoc hrun hstep, admitted, ← List.append_assoc, log_snoc hall hstep,
      linkEffects_append]
    exact ⟨hserves.step (queued_of_run hgate hall) hm hlast,
      hcarried.step (hm.onTransport hlast)⟩

/-- **Calls do not interleave on the wire.**  Whatever the calls of a client do, and in whatever
order they, the transport, the reader and those who call them off come, what a transport has accepted
are the frames of different calls that have passed their check, whole and in the order of their
admission, and at most a part of the frame of one more call, which nothing follows if that call is
over. -/
theorem accepted_of_run {config : Config} (hmade : c₀ = new config ∨ c₀ = withTransport config)
    (hopen : c₀.run before = some (c₁, effects₀)) (hnew : c₁.session = .connected (.new options))
    (hrun : c₁.run after = some (c, effects)) (hone : ∀ id, .dialed id (.ok ()) ∉ after) :
    Orderly c₀ c₁ before after c effects := by
  have hgate : c₀.gate = .free := by rcases hmade with rfl | rfl <;> rfl
  have hopen := run_eq_some_iff.mp hopen
  have hrun := run_eq_some_iff.mp hrun
  have hdead : ∀ now later, after = now ++ later → ∀ c₂ effects₂,
      c₁.run now = some (c₂, effects₂) → c₂.isLive = false → c₂.exchange? = none →
        accepted effects = accepted effects₂ := by
    rintro now later rfl c₂ effects₂ hnow hdead hidle
    obtain ⟨c₃, effects₃, more, hfirst, hrest, rfl⟩ := hrun.of_append
    obtain ⟨rfl, rfl⟩ := hfirst.unique (run_eq_some_iff.mp hnow)
    have hlater : ∀ id, .dialed id (.ok ()) ∉ later :=
      fun id hmem => hone id (List.mem_append_right _ hmem)
    obtain ⟨-, -, hsilent⟩ := silent_of_run hrest hlater hdead hidle
    rw [accepted, linkEffects_append, Link.accepted_append]
    exact (congrArg (_ ++ ·) hsilent).trans (List.append_nil _)
  obtain ⟨hserves, les, l, hlink, hbegun, hsession⟩ := invariants_of_run hgate hopen hnew hrun hone
  constructor
  · rw [← hbegun]
    exact (Link.written_of_run hlink).onWire
  · exact hserves.order
  · have hqueued := queued_of_run hgate (hopen.append hrun)
    exact (List.sublist_append_left _ _).trans hqueued.order
  · intro x hx
    obtain ⟨id, command, hholds, -, hframe, hlast⟩ := hserves.running x hx
    exact ⟨id, command, hholds, hframe, hlast⟩
  · rintro now later hsplit c₂ effects₂ hnow hidle hcut
    have hearlier : ∀ id, .dialed id (.ok ()) ∉ now :=
      fun id hmem => hone id (hsplit ▸ List.mem_append_left _ hmem)
    obtain ⟨-, hcarried⟩ :=
      invariants_of_run hgate hopen hnew (run_eq_some_iff.mp hnow) hearlier
    exact hdead now later hsplit c₂ effects₂ hnow (hcarried.dead_of_cut hidle hcut) hidle
  · rintro id now later hsplit c₂ effects₂ hnow hclosed
    have hearlier : ∀ id, .dialed id (.ok ()) ∉ now :=
      fun id hmem => hone id (hsplit ▸ List.mem_append_left _ hmem)
    have hnow' := run_eq_some_iff.mp hnow
    obtain ⟨hserves₂, -⟩ := invariants_of_run hgate hopen hnew hnow' hearlier
    -- The call does act, so that the link is idle.
    rw [hsplit] at hrun
    obtain ⟨c₃, effects₃, more, hfirst, hrest, -⟩ := hrun.of_append
    obtain ⟨rfl, -⟩ := hfirst.unique hnow'
    obtain ⟨c₄, acted, rest, hact, -⟩ := runWith_cons.mp (runWith_eq_some_iff.mpr hrest)
    exact hdead now _ hsplit c₃ effects₂ hnow hclosed (hserves₂.idle_of_act (moves_of_step hact))

/-- Four calls: one is answered, one is refused by its check, one is called off in the middle of its
frame, and one finds the link closed after that. -/
theorem accepted_of_run_cut :
    let c₀ := withTransport .default
    let request : Request := .load (.text "[]")
    let es : List Event := [.issue 0 request, .issue 1 (.get [4]), .issue 2 request,
      .issue 3 request, .act 0, .link (.accept 2), .link (.accept 4), .link .flush,
      .link (.receive [79, 4]), .link .deliver, .link .collect, .resume 2, .act 2,
      .link (.accept 3), .cancel 2, .resume 3, .act 3]
    ∃ c effects, c₀.run es = some (c, effects) ∧
      accepted effects = [105, 109, 112, 91, 93, 4, 105, 109, 112] ∧
      started c₀ es = [(0, .load "[]"), (2, .load "[]")] ∧ Orderly c₀ c₀ [] es c effects := by
  intro c₀ request es
  have haccepted : (c₀.run es).map (fun p => accepted p.2) =
      some [105, 109, 112, 91, 93, 4, 105, 109, 112] := by decide +kernel
  have hstarted : started c₀ es = [(0, .load "[]"), (2, .load "[]")] := by decide +kernel
  obtain ⟨⟨c, effects⟩, hrun, hbytes⟩ := Option.map_eq_some_iff.mp haccepted
  have hone : ∀ id, Event.dialed id (.ok ()) ∉ es := by
    intro id hmem
    simp [es] at hmem
  refine ⟨c, effects, hrun, hbytes, hstarted, ?_⟩
  exact accepted_of_run (.inr rfl) (show c₀.run [] = some (c₀, []) from rfl) rfl hrun hone

end Client

end KvClient

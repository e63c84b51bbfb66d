import KvClient.Proofs.Client.Wire
import KvClient.Proofs.Link.Settlement

/-!
# What closing does to a call

A link may be closed while the exchange of a call is running, by whoever closes the client or by the
reader.  The exchange is settled then and there.  Whether its call gets to know it depends on how
far it is: once its frame is written, it returns without help from anybody; but as long as it is
writing, it waits for the transport and looks at nothing else.

## How it works

* **The link of a client is at the end of a run of its own**, also if others were opened before:
  `opened_of_run`, `ownRun_of_run`, hence `linked_of_run`.
* **A call that is writing goes on writing**: `Moves.writes_on`, and for runs `writes_on_of_run`.
* **Closing settles, and lets those return that have written**: `closed_of_run`.
-/

namespace KvClient

/-- What can be the end of writing on a link. -/
inductive Link.EndsWriting (l : Link) : Link.Event → Prop
  | flush : EndsWriting l .flush
  | writeFault : EndsWriting l .writeFault
  | expire (limited : l.requestTimeout? ≠ none) : EndsWriting l .expire
  | abandon : EndsWriting l .abandon

/-- An exchange that is writing is still writing behind a step, unless its frame is written now, or
it fails or is abandoned. -/
theorem Link.Moves.writes_on {l l' : Link} {e : Link.Event} {out : List Link.Effect} {x : Exchange}
    (hm : Link.Moves l e l' out) (hx : l.exchange? = some x) (hwriting : x.flushed = false) :
    (l'.requestTimeout? = l.requestTimeout? ∧
        ∃ x', l'.exchange? = some x' ∧ x'.ticket = x.ticket ∧ x'.flushed = false) ∨
      EndsWriting l e := by
  have hclosing : ∀ cause, (l.closeWith cause).1.requestTimeout? = l.requestTimeout? ∧
      ∃ x', (l.closeWith cause).1.exchange? = some x' ∧ x'.ticket = x.ticket ∧
        x'.flushed = false := by
    intro cause
    refine ⟨by rw [Link.closeWith_eq], x.told l.slot? (.error cause), ?_, by simp, by simpa⟩
    rw [Link.exchange?_closeWith, hx]
    rfl
  cases hm with
  | registered frame idle | refused frame idle | shutdownBegun idle => simp [idle] at hx
  | wrote y count running =>
    obtain rfl : y = x := by simpa [hx] using running.symm
    exact .inl ⟨rfl, _, rfl, rfl, hwriting⟩
  | flushed => exact .inr .flush
  | writeFailed => exact .inr .writeFault
  | collected y s running flushed =>
    obtain rfl : y = x := by simpa [hx] using running.symm
    simp [hwriting] at flushed
  | expired y limit running limited =>
    exact .inr (.expire (by simp [limited]))
  | abandoned => exact .inr .abandon
  | received | streamEnded | readFailed | dropped | shutdownFinished =>
    exact .inl ⟨rfl, x, hx, rfl, hwriting⟩
  | settled a r rest t =>
    refine .inl ⟨rfl, x.told (some t) (.ok r), ?_, by simp, by simpa⟩
    rw [hx]
    rfl
  | stopped cause | closed => exact .inl (hclosing _)

namespace Client

variable {c₀ c c' : Client} {e : Event} {es later : List Event} {effects more : List Effect}
  {l : Link} {x : Exchange} {id : CallId} {command : Command}

/-! ## The link that is open -/

/-- A client without a link is without one behind every step that opens none. -/
theorem OnTransport.link?_eq_none {out : List Link.Effect} (ht : OnTransport c e c' out)
    (h : c.link? = none) : c'.link? = none := by
  cases ht with
  | rests session =>
    rcases session with hsame | hclosed
    · rwa [link?, hsame]
    · rw [link?, hclosed]
  | steps le l l' before => simp [link?, before] at h

/-- A call that opens a link wants to connect, and holds the gate. -/
theorem Moves.of_dialed (hm : Moves c (.dialed id (.ok ())) c' effects) :
    c.gate.holder? = some id ∧ (∃ credentials?, c.job? id = some (.connect credentials?)) ∧
      c'.session = .connected (.new (linkOptions c.config)) := by
  cases hm with
  | answered e other job result holds wants linkless cause => simp at cause
  | completed e other command yield s le l l' out holds wants cause => simp at cause
  | dialed id credentials? holds wants => exact ⟨holds, ⟨credentials?, wants⟩, rfl⟩

/-- A client has no link, or one that was new at some moment of the run, and has been kept since. -/
theorem opened_of_run {config : Config} (hmade : c₀ = new config ∨ c₀ = withTransport config)
    (hrun : Run step c₀ es c effects) :
    c.link? = none ∨ ∃ before after c₁ effects₁ effects₂ options, es = before ++ after ∧
      Run step c₀ before c₁ effects₁ ∧ c₁.session = .connected (.new options) ∧
      Run step c₁ after c effects₂ ∧ ∀ id, .dialed id (.ok ()) ∉ after := by
  induction hrun with
  | nil =>
    rcases hmade with rfl | rfl
    · exact .inl rfl
    · exact .inr ⟨[], [], _, [], [], _, rfl, .nil, rfl, .nil, by simp⟩
  | @snoc es c₁ effects₁ e c₂ more hrun hstep ih =>
    have hm := moves_of_step hstep
    by_cases hopens : ∃ id, e = .dialed id (.ok ())
    · obtain ⟨id, rfl⟩ := hopens
      refine .inr ⟨es ++ [.dialed id (.ok ())], [], c₂, _, [], linkOptions c₁.config, by simp,
        hrun.snoc hstep, hm.of_dialed.2.2, .nil, by simp⟩
    · have hone : ∀ id, e ≠ .dialed id (.ok ()) := fun id he => hopens ⟨id, he⟩
      rcases ih with hlinkless | ⟨before, after, c₃, effects₃, effects₄, options, rfl, hbefore,
        hnew, hafter, hlast⟩
      · exact .inl ((hm.onTransport hone).link?_eq_none hlinkless)
      · refine .inr ⟨before, after ++ [e], c₃, effects₃, _, options, by simp, hbefore, hnew,
          hafter.snoc hstep, fun id hmem => ?_⟩
        rcases List.mem_append.mp hmem with hearlier | hnow
        · exact hlast id hearlier
        · exact hone id (List.mem_singleton.mp hnow).symm

theorem gate_of_made {config : Config} (hmade : c₀ = new config ∨ c₀ = withTransport config) :
    c₀.gate = .free := by
  rcases hmade with rfl | rfl <;> rfl

/-- The link of a client is at the end of a run of its own, which is a part of the client's; and an
exchange that is running on it is that of the call that holds the gate. -/
theorem ownRun_of_run {config : Config} (hmade : c₀ = new config ∨ c₀ = withTransport config)
    (hrun : Run step c₀ es c effects) (hsession : c.session = .connected l) :
    ∃ options les before since, effects = before ++ since ∧
      Run Link.step (.new options) les l (linkEffects since) ∧
      ∀ x, l.exchange? = some x → ∃ id command, c.gate.holder? = some id ∧
        c.command? id = some command ∧ x.frame = command.encode := by
  rcases opened_of_run hmade hrun with hlinkless | ⟨before, after, c₁, effects₁, effects₂, options,
    rfl, hbefore, hnew, hafter, hone⟩
  · simp [link?, hsession] at hlinkless
  · obtain ⟨hserves, les, l', hlink, -, hsession'⟩ :=
      invariants_of_run (gate_of_made hmade) hbefore hnew hafter hone
    obtain rfl : l' = l := by simpa [hsession, eq_comm] using hsession'
    obtain ⟨-, rfl⟩ := hrun.unique (hbefore.append hafter)
    refine ⟨options, les, effects₁, effects₂, rfl, hlink, fun x hx => ?_⟩
    obtain ⟨id, command, hholds, hwants, hframe, -⟩ :=
      hserves.running x ((exchange?_of_session hsession).trans hx)
    exact ⟨id, command, hholds, hwants, hframe⟩

/-- The link of a client has its turn, and an exchange that is running on it is that of the call
that holds the gate. -/
theorem linked_of_run {config : Config} (hmade : c₀ = new config ∨ c₀ = withTransport config)
    (hrun : Run step c₀ es c effects) (hsession : c.session = .connected l) :
    Link.Turn l ∧ ∀ x, l.exchange? = some x → ∃ id command, c.gate.holder? = some id ∧
      c.command? id = some command ∧ x.frame = command.encode := by
  obtain ⟨options, les, before, since, -, hlink, hserved⟩ := ownRun_of_run hmade hrun hsession
  exact ⟨(Link.accounted_of_run hlink).1, hserved⟩

theorem session_of_exchange? (hx : c.exchange? = some x) :
    ∃ l, c.session = .connected l ∧ l.exchange? = some x := by
  cases hsession : c.session with
  | connected l => exact ⟨l, rfl, (exchange?_of_session hsession).symm.trans hx⟩
  | _ => simp [exchange?, link?, hsession] at hx

/-! ## A call that is writing -/

/-- The link of a client carries an exchange that is writing. -/
structure Writing (c : Client) (l : Link) (x : Exchange) : Prop where
  session : c.session = .connected l
  running : l.exchange? = some x
  unflushed : x.flushed = false

theorem Writing.exchange?_eq (h : Writing c l x) : c.exchange? = some x :=
  (exchange?_of_session h.session).trans h.running

/-- What can be the end of writing for the call that holds the gate. -/
inductive EndsWriting (l : Link) (id : CallId) : Event → Prop
  | link (le : Link.Event) (outside : isOutside le = true) (ends : Link.EndsWriting l le) :
      EndsWriting l id (.link le)
  | cancel : EndsWriting l id (.cancel id)

/-- A call that is writing is still writing behind a step, unless its frame is written now, or it
fails or is called off. -/
theorem Moves.writes_on (hm : Moves c e c' effects) (h : Writing c l x)
    (hholds : c.gate.holder? = some id) (hwants : c.command? id = some command) :
    (∃ l' x', Writing c' l' x' ∧ x'.ticket = x.ticket ∧ l'.requestTimeout? = l.requestTimeout?) ∨
      EndsWriting l id e := by
  have hbusy : ∀ {other : CallId} {job : Job}, c.gate.holder? = some other →
      c.job? other = some job → job.command?.isSome = true := by
    intro other job hother hjob
    obtain rfl : id = other := by simpa [hholds] using hother
    rw [← command?_of_job? hjob, hwants]
    rfl
  have hsame : c'.session = c.session → ∃ l' x', Writing c' l' x' ∧ x'.ticket = x.ticket ∧
      l'.requestTimeout? = l.requestTimeout? := fun hsession =>
    ⟨l, x, ⟨hsession.trans h.session, h.running, h.unflushed⟩, rfl, rfl⟩
  have hlink : ∀ {le l' out}, Link.Moves l le l' out → c'.session = .connected l' →
      (∃ l' x', Writing c' l' x' ∧ x'.ticket = x.ticket ∧ l'.requestTimeout? = l.requestTimeout?) ∨
        Link.EndsWriting l le := by
    intro le l' out moves hsession
    rcases moves.writes_on h.running h.unflushed with ⟨htimeout, x', hx', hticket, hf⟩ | hends
    · exact .inl ⟨l', x', ⟨hsession, hx', hf⟩, hticket, htimeout⟩
    · exact .inr hends
  cases hm with
  | invalid | arrived | resumed => exact .inl (hsame rfl)
  | arrivedToClose other request =>
    obtain ⟨-, -, ⟨hsession, -⟩ | ⟨l₁, hl₁, hsession, -⟩⟩ := takeCloser_cases c
    · exact .inl (hsame hsession)
    · obtain rfl : l₁ = l := by simpa [h.session] using hl₁.symm
      exact .inl ((hlink .closed hsession).resolve_right nofun)
  | began other command' yield l₁ l' out holds wants session moves running =>
    obtain rfl : l₁ = l := by simpa [h.session] using session.symm
    have hidle := (moves.connected_of_begin running).2.1
    simp [h.running] at hidle
  | progressed le l₁ l' out outside session moves running =>
    obtain rfl : l₁ = l := by simpa [h.session] using session.symm
    exact (hlink moves rfl).imp_right (.link le outside)
  | completed e other command' yield s le l₁ l' out holds wants cause session moves returned =>
    obtain rfl : l₁ = l := by simpa [h.session] using session.symm
    have hgone := moves.exchange?_of_returned returned
    rcases cause with ⟨rfl, outside⟩ | ⟨rfl, rfl⟩
    · rcases moves.writes_on h.running h.unflushed with ⟨-, x', hx', -⟩ | hends
      · simp [hgone] at hx'
      · exact .inr (.link le outside hends)
    · obtain ⟨rfl, -⟩ := moves.refused_of_begin returned
      simp [h.running] at hgone
  | shutdownBegun other l₁ l' out holds wants | shutDown other l₁ l' out holds wants =>
    have hcommand := hbusy holds wants
    simp [Job.command?] at hcommand
  | closed other holds wants | dialed other credentials? holds wants =>
    have hcommand := hbusy holds wants
    simp [Job.command?] at hcommand
  | answered e other job result holds wants linkless =>
    have hgone := exchange?_of_linkless (linkless (hbusy holds wants))
    simp [h.exchange?_eq] at hgone
  | cancelled other =>
    by_cases hother : other = id
    · subst hother
      exact .inr .cancel
    · have hnothing : c.abandonExchange other = (c, []) := by
        simp [abandonExchange, h.session, hholds, Ne.symm hother]
      exact .inl (hsame (by rw [hnothing]))

/-- **A call that is writing waits for the transport**, for the time to be up, or to be called off,
and for nothing else. -/
theorem writes_on_of_run (hgate : c₀.gate = .free) (hrun : Run step c₀ es c effects)
    (hlater : Run step c later c' more) (h : Writing c l x) (hholds : c.gate.holder? = some id)
    (hwants : c.command? id = some command) (hflush : .link .flush ∉ later)
    (hfault : .link .writeFault ∉ later) (hcancel : .cancel id ∉ later)
    (hexpire : l.requestTimeout? = none ∨ .link .expire ∉ later) :
    (∃ l' x', Writing c' l' x' ∧ x'.ticket = x.ticket ∧ l'.requestTimeout? = l.requestTimeout?) ∧
      c'.gate.holder? = some id ∧ c'.command? id = some command := by
  induction hlater with
  | nil => exact ⟨⟨l, x, h, rfl, rfl⟩, hholds, hwants⟩
  | @snoc later c₁ effects₁ e c₂ more hlater hstep ih =>
    rw [List.mem_append, List.mem_singleton, not_or] at hflush hfault hcancel hexpire
    obtain ⟨⟨l₁, x₁, hwriting, hticket, htimeout⟩, hholds₁, hwants₁⟩ :=
      ih hflush.1 hfault.1 hcancel.1 (hexpire.imp_right And.left)
    have hm := moves_of_step hstep
    rcases hm.writes_on hwriting hholds₁ hwants₁ with
      ⟨l₂, x₂, hwriting₂, hticket₂, htimeout₂⟩ | hends
    · refine ⟨⟨l₂, x₂, hwriting₂, hticket₂.trans hticket, htimeout₂.trans htimeout⟩, ?_⟩
      have hone : ∀ other, e ≠ .dialed other (.ok ()) := by
        rintro other rfl
        obtain ⟨hother, ⟨credentials?, hjob⟩, -⟩ := hm.of_dialed
        obtain rfl : id = other := by simpa [hholds₁] using hother
        simp [command?_of_job? hjob, Job.command?] at hwants₁
      exact hm.holder_after (queued_of_run hgate (hrun.append hlater)) hone hwriting.exchange?_eq
        hwriting₂.exchange?_eq hholds₁ hwants₁
    · cases hends with
      | cancel => exact absurd rfl hcancel.2
      | link le outside ends =>
        cases ends with
        | flush => exact absurd rfl hflush.2
        | writeFault => exact absurd rfl hfault.2
        | expire limited =>
          rw [htimeout] at limited
          exact absurd rfl (hexpire.resolve_left limited).2
        | abandon => simp [isOutside] at outside

/-! ## A call that returns -/

/-- An event of the link that lets the exchange return ends the call that holds the gate. -/
theorem onLink_of_returned {le : Link.Event} {l' : Link} {out : List Link.Effect} {s : Settlement}
    {yield : Yield} (hsession : c.session = .connected l) (hstep : l.step le = some (l', out))
    (hreturned : returned? out = some s) (hholds : c.gate.holder? = some id)
    (hjob : c.job? id = some (.exchange command yield)) :
    c.onLink le = some (((c.letGo l').finish id (yield.result s)).1,
      out.map .link ++ [.finished id (yield.result s)]) := by
  rw [onLink, hsession]
  simp only [hstep, hreturned, complete, hholds, hjob]
  rfl

/-- A client lets go of a link that is closed. -/
theorem session_letGo_of_closed (hclosed : l.connected = false) :
    (c.letGo l).session = .closed := by
  rw [letGo, hclosed]
  rfl

/-! ## The result -/

/-- What becomes of the exchange of a call whose link is closed. -/
structure OnClosed (c : Client) (x : Exchange) (id : CallId) (yield : Yield) (s : Settlement) :
    Prop where
  /-- The call holds the gate. -/
  holds : c.gate.holder? = some id
  wants : ∃ command, c.job? id = some (.exchange command yield) ∧ x.frame = command.encode
  /-- It is settled. -/
  settled : x.settlement? = some s
  /-- If its frame is written, it can return at once, whatever the transport does.  The client lets
  go of the link, and the gate is given back. -/
  returns : x.flushed = true → ∃ c', c.step (.link .collect) =
    some (c', [.link (.returned x.ticket s), .finished id (yield.result s)]) ∧
      c'.session = .closed ∧ c'.gate = c.gate.release id
  /-- If not, it keeps the gate until the transport has taken the rest of the frame or fails, unless
  its time is up or it is called off. -/
  waits : x.flushed = false → ∀ later c' more, c.run later = some (c', more) →
    .link .flush ∉ later → .link .writeFault ∉ later → .cancel id ∉ later →
    c.link?.bind (·.requestTimeout?) = none ∨ .link .expire ∉ later →
    c'.gate.holder? = some id ∧
      ∃ x', c'.exchange? = some x' ∧ x'.ticket = x.ticket ∧ x'.flushed = false

/-- **Closing settles the exchange that is running.**  Whoever has closed the link, the call whose
exchange is running on it was settled by that, or before, and can return at once if its frame is
written.  A call that is still writing goes on to wait for the transport. -/
theorem closed_of_run {config : Config} (hmade : c₀ = new config ∨ c₀ = withTransport config)
    (hrun : c₀.run es = some (c, effects)) (hx : c.exchange? = some x) (hdead : c.isLive = false) :
    ∃ id yield s, OnClosed c x id yield s := by
  have hrun := run_eq_some_iff.mp hrun
  obtain ⟨l, hsession, hrunning⟩ := session_of_exchange? hx
  obtain ⟨hturn, hserved⟩ := linked_of_run hmade hrun hsession
  obtain ⟨id, command, hholds, hwants, hframe⟩ := hserved x hrunning
  have hclosed : l.connected = false := (isLive_of_session hsession).symm.trans hdead
  obtain ⟨s, hs⟩ := hturn.settlement?_of_free hrunning (hturn.slot?_of_closed hclosed)
  obtain ⟨job, hjob, hcommand⟩ := Option.bind_eq_some_iff.mp hwants
  cases job with
  | exchange command' yield =>
    obtain rfl : command' = command := by simpa [Job.command?] using hcommand
    refine ⟨id, yield, s, hholds, ⟨command', hjob, hframe⟩, hs, fun hflushed => ?_, fun hwriting =>
      ?_⟩
    · have hcollect : l.step .collect =
          some ({ l with exchange? := none }, [.returned x.ticket s]) :=
        (Link.Moves.collected x s hrunning hflushed hs).step_eq
      refine ⟨_, onLink_of_returned hsession hcollect rfl hholds hjob, ?_, ?_⟩
      · exact session_letGo_of_closed hclosed
      · exact congrArg (·.release id) (gate_letGo c _)
    · intro later c' more hlater hflush hfault hcancel hexpire
      rw [link?, hsession] at hexpire
      obtain ⟨⟨l', x', hwriting', hticket, -⟩, hholds', -⟩ :=
        writes_on_of_run (gate_of_made hmade) hrun (run_eq_some_iff.mp hlater)
          ⟨hsession, hrunning, hwriting⟩ hholds hwants hflush hfault hcancel hexpire
      exact ⟨hholds', x', hwriting'.exchange?_eq, hticket, hwriting'.unflushed⟩
  | _ => simp [Job.command?] at hcommand

/-- A call has written its frame, and waits for its response, when the peer sends a segment that is
none; it returns with that. -/
theorem closed_of_run_returns :
    let es : List Event := [.issue 0 (.load (.text "[]")), .act 0, .link (.accept 6), .link .flush,
      .link (.receive [33, 4]), .link .stop]
    ∃ c effects x id yield s, (withTransport .default).run es = some (c, effects) ∧
      c.exchange? = some x ∧ c.isLive = false ∧ x.flushed = true ∧
      x.settlement? = some (.error (.malformed (.unknownStatus 33))) ∧ OnClosed c x id yield s := by
  intro es
  have hrun : ((withTransport .default).run es).map (fun p => (p.1.exchange?, p.1.isLive)) =
      some (some ⟨0, [105, 109, 112, 91, 93, 4], 6, true,
        some (.error (.malformed (.unknownStatus 33)))⟩, false) := by cbv
  obtain ⟨⟨c, effects⟩, hrun, hwhat⟩ := Option.map_eq_some_iff.mp hrun
  obtain ⟨hx, hdead⟩ := Prod.mk.inj hwhat
  obtain ⟨id, yield, s, hclosed⟩ := closed_of_run (.inr rfl) hrun hx hdead
  exact ⟨c, effects, _, id, yield, s, hrun, hx, hdead, rfl, rfl, hclosed⟩

/-- **A call that is writing does not get to know that its link is closed.**  Three of six bytes
are on the wire when a second call closes the client, and no time limit is set.  The first call is
settled, but keeps the gate for which the second one waits; and that stays so whatever happens,
until the transport takes the rest of the frame or fails, or the first call is called off. -/
theorem closing_waits_for_transport :
    ∃ c effects x, (withTransport .default).run [.issue 0 (.load (.text "[]")), .act 0,
        .link (.accept 3), .issue 1 .close] = some (c, effects) ∧
      c.exchange? = some x ∧ c.isLive = false ∧
      x.settlement? = some (.error .connectionClosed) ∧ c.gate = .held 0 [1] ∧
      c.job? 1 = some .close ∧ c.config.requestTimeout? = none ∧
      c.step (.link .collect) = none ∧
      ∀ later c' more, c.run later = some (c', more) → .link .flush ∉ later →
        .link .writeFault ∉ later → .cancel 0 ∉ later →
        c'.gate.holder? = some 0 ∧ c'.exchange?.isSome := by
  have hrun : (withTransport .default).run [.issue 0 (.load (.text "[]")), .act 0,
      .link (.accept 3), .issue 1 .close] =
        some (⟨.default,
          .connected ⟨false, none,
            some ⟨0, [105, 109, 112, 91, 93, 4], 3, false, some (.error .connectionClosed)⟩,
            .listening (.new defaultMaxResponseSize), true, none, 1⟩, false, .held 0 [1],
            [(1, .close), (0, .exchange (.load "[]") .nothing)]⟩,
          [.link (.registered 0), .link (.wrote 0 [105, 109, 112]),
            .link (.settled 0 (.error .connectionClosed))]) := by cbv
  refine ⟨_, _, _, hrun, rfl, rfl, rfl, rfl, rfl, rfl, rfl, ?_⟩
  intro later c' more hlater hflush hfault hcancel
  obtain ⟨⟨l', x', hwriting', -⟩, hholds', -⟩ :=
    writes_on_of_run (gate_of_made (.inr rfl)) (run_eq_some_iff.mp hrun) (run_eq_some_iff.mp hlater)
      ⟨rfl, rfl, rfl⟩ rfl rfl hflush hfault hcancel (.inl rfl)
  exact ⟨hholds', by rw [hwriting'.exchange?_eq]; rfl⟩

end Client

end KvClient

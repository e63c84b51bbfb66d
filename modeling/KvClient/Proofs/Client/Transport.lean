import KvClient.Proofs.Client.Queue
import KvClient.Proofs.Link.Written

/-!
# The transport of a client

A client takes its link from event to event, and puts the commands of its calls on it.  Seen from
the link, a run of the client is a run of the link.

* **A step puts at most one call on the wire**: `Moves.startedBy_cases`.
* **A step of a client is a step of its link, or none**: `Moves.onTransport`.
* **A run of a client is a run of its link**: `Carried`, so that what holds of every run of a link
  holds here.
-/

namespace KvClient

namespace Link

variable {l l' : Link} {e : Event} {effects : List Effect}

/-- Closing lets nothing return. -/
theorem returned?_closeWith_append (l : Link) (cause : Error) (more : List Effect) :
    Client.returned? ((l.closeWith cause).2 ++ more) = Client.returned? more := by
  rw [effects_closeWith]
  cases l.slot? <;> rfl

theorem returned?_closeWith (l : Link) (cause : Error) :
    Client.returned? (l.closeWith cause).2 = none := by
  simpa [Client.returned?] using returned?_closeWith_append l cause []

/-- An event from outside leaves the exchange running, or lets it return. -/
theorem Moves.exchange_of_outside (hm : Moves l e l' effects) (he : Client.isOutside e = true)
    (hrunning : Client.returned? effects = none) :
    (l.exchange? = none → l'.exchange? = none) ∧
      ∀ x, l.exchange? = some x → ∃ x', l'.exchange? = some x' ∧ x'.frame = x.frame := by
  cases hm with
  | registered | refused | abandoned | closed | shutdownBegun | shutdownFinished =>
    simp [Client.isOutside] at he
  | wrote x count running | flushed x running =>
    refine ⟨fun hnone => by simp [hnone] at running, fun y hy => ?_⟩
    obtain rfl : x = y := by simpa [running] using hy
    exact ⟨_, rfl, rfl⟩
  | writeFailed | expired =>
    rw [returned?_closeWith_append] at hrunning
    simp [Client.returned?] at hrunning
  | collected => simp [Client.returned?] at hrunning
  | received | streamEnded | readFailed | dropped => exact ⟨id, fun x hx => ⟨x, hx, rfl⟩⟩
  | settled a r rest t =>
    refine ⟨fun hnone => by simp [hnone], fun x hx => ⟨x.told (some t) (.ok r), ?_, by simp⟩⟩
    simp [hx]
  | stopped cause =>
    refine ⟨fun hnone => by simp [hnone], fun x hx => ⟨x.told l.slot? (.error cause), ?_, by simp⟩⟩
    simp [hx]

/-- A request that does not return at once was registered, on a link that is connected. -/
theorem Moves.connected_of_begin {frame : Bytes} (hm : Moves l (.begin frame) l' effects)
    (hrunning : Client.returned? effects = none) :
    l.connected = true ∧ l.exchange? = none ∧
      l'.exchange? = some ⟨l.nextTicket, frame, 0, false, none⟩ := by
  cases hm with
  | registered frame idle live => exact ⟨live, idle, rfl⟩
  | refused => simp [Client.returned?] at hrunning

/-- A request that returns at once found the link closed. -/
theorem Moves.refused_of_begin {frame : Bytes} {s : Settlement}
    (hm : Moves l (.begin frame) l' effects) (hreturned : Client.returned? effects = some s) :
    l' = l ∧ l.connected = false := by
  cases hm with
  | registered => simp [Client.returned?] at hreturned
  | refused frame idle dead => exact ⟨rfl, dead⟩

/-- What comes from outside begins nothing. -/
theorem begunBy_of_outside (he : Client.isOutside e = true) : begunBy l e l' = [] := by
  cases e with
  | begin => simp [Client.isOutside] at he
  | _ => rfl

end Link

namespace Client

variable {c c' : Client} {e : Event} {effects more : List Effect}

/-! ## Reading a run -/

/-- What the link did. -/
def linkEffects (effects : List Effect) : List Link.Effect :=
  effects.filterMap fun
    | .link e => some e
    | _ => none

/-- All bytes that the transport has accepted. -/
def accepted (effects : List Effect) : Bytes := Link.accepted (linkEffects effects)

/-- The exchange that is running. -/
def exchange? (c : Client) : Option Exchange := c.link?.bind (·.exchange?)

/-- The call that a step puts on the wire: it holds the gate, wants a command to be sent, and finds
the link connected. -/
def startedBy (c : Client) (e : Event) (_ : Client) : List (CallId × Command) :=
  match e with
  | .act id => if c.isLive then commandsOf c [id] else []
  | _ => []

/-- The calls that a run puts on the wire, in that order. -/
def started (c : Client) (es : List Event) : List (CallId × Command) := log step startedBy c es

@[simp] theorem linkEffects_append (a b : List Effect) :
    linkEffects (a ++ b) = linkEffects a ++ linkEffects b :=
  List.filterMap_append

@[simp] theorem linkEffects_map (effects : List Link.Effect) :
    linkEffects (effects.map .link) = effects := by
  rw [linkEffects, List.filterMap_map]
  exact List.filterMap_some

theorem exchange?_of_session {l : Link} (h : c.session = .connected l) :
    c.exchange? = l.exchange? := by
  simp [exchange?, link?, h]

theorem isLive_of_session {l : Link} (h : c.session = .connected l) : c.isLive = l.connected := by
  simp [isLive, link?, h]

/-! ## The run of the link -/

/-- What a step does to the transport. -/
inductive OnTransport (c : Client) (e : Event) (c' : Client) (effects : List Link.Effect) : Prop
  | rests (session : c'.session = c.session ∨ c'.session = .closed) (silent : effects = [])
      (nobody : startedBy c e c' = [])
  | steps (le : Link.Event) (l l' : Link) (before : c.session = .connected l)
      (moves : Link.Moves l le l' effects)
      (after : c'.session = .connected l' ∨ c'.session = .closed)
      (begins : Link.begunBy l le l' = (startedBy c e c').map (·.2.encode))

theorem session_letGo (c : Client) (l : Link) :
    (c.letGo l).session = .connected l ∨ (c.letGo l).session = .closed := by
  unfold letGo
  split
  · exact .inl rfl
  · exact .inr rfl

theorem startedBy_of_no_command {id : CallId} (h : c.command? id = none) :
    startedBy c (.act id) c' = [] := by
  have hnone : commandsOf c [id] = [] := by simp [commandsOf, h]
  rw [startedBy, hnone, ite_self]

theorem startedBy_of_dead {id : CallId} (h : c.isLive = false) : startedBy c (.act id) c' = [] := by
  rw [startedBy, h]
  rfl

theorem startedBy_of_live {id : CallId} {command : Command} (hlive : c.isLive = true)
    (h : c.command? id = some command) : startedBy c (.act id) c' = [(id, command)] := by
  rw [startedBy, if_pos hlive, commandsOf_singleton h]

theorem command?_of_job? {id : CallId} {job : Job} (h : c.job? id = some job) :
    c.command? id = job.command? := by
  rw [command?, h]
  rfl

/-- A step puts a call on the wire if the call holds the gate, wants a command to be sent, and finds
the link connected and idle. -/
structure Starts (c : Client) (c' : Client) (id : CallId) (command : Command) : Prop where
  holds : c.gate.holder? = some id
  wants : c.command? id = some command
  live : c.isLive = true
  idle : c.exchange? = none
  gate : c'.gate = c.gate
  jobs : c'.jobs = c.jobs
  running : ∃ x, c'.exchange? = some x ∧ x.frame = command.encode

/-- A step puts at most one call on the wire. -/
theorem Moves.startedBy_cases (hm : Moves c e c' effects) :
    startedBy c e c' = [] ∨
      ∃ id command, startedBy c e c' = [(id, command)] ∧ Starts c c' id command := by
  cases hm with
  | began id command yield l l' out holds wants session moves running =>
    obtain ⟨hconnected, hidle, hrunning⟩ := moves.connected_of_begin running
    have hlive : c.isLive = true := (isLive_of_session session).trans hconnected
    have hwants := command?_of_job? wants
    refine .inr ⟨id, command, startedBy_of_live hlive hwants, ?_⟩
    refine ⟨holds, hwants, hlive, (exchange?_of_session session).trans hidle, rfl, rfl, ?_⟩
    exact ⟨_, (exchange?_of_session rfl).trans hrunning, rfl⟩
  | completed e id command yield s le l l' out holds wants cause session moves returned =>
    refine .inl ?_
    rcases cause with ⟨rfl, -⟩ | ⟨rfl, rfl⟩
    · rfl
    · obtain ⟨-, hdead⟩ := moves.refused_of_begin returned
      exact startedBy_of_dead ((isLive_of_session session).trans hdead)
  | answered e id job result holds wants linkless cause =>
    refine .inl ?_
    rcases cause with rfl | ⟨err, rfl⟩
    · cases hcommand : job.command? with
      | none => exact startedBy_of_no_command ((command?_of_job? wants).trans hcommand)
      | some command =>
        refine startedBy_of_dead ?_
        rw [isLive, linkless (by rw [hcommand]; rfl)]
    · rfl
  | shutdownBegun id l l' out holds wants | closed id holds wants =>
    exact .inl (startedBy_of_no_command (command?_of_job? wants))
  | _ => exact .inl rfl

theorem Moves.startedBy_of_released (hm : Moves c e c' effects) (h : c'.gate.holder? = none) :
    startedBy c e c' = [] := by
  rcases hm.startedBy_cases with hnobody | ⟨id, command, -, hstarts⟩
  · exact hnobody
  · have hholds := hstarts.holds
    rw [← hstarts.gate, h] at hholds
    simp at hholds

/-- **A step of a client takes its link one step further, or leaves it alone**, unless it opens a
new one. -/
theorem Moves.onTransport (hm : Moves c e c' effects) (hone : ∀ id, e ≠ .dialed id (.ok ())) :
    OnTransport c e c' (linkEffects effects) := by
  have hreleased := hm.startedBy_of_released
  cases hm with
  | invalid | arrived | resumed => exact .rests (.inl rfl) rfl rfl
  | arrivedToClose id request =>
    obtain ⟨-, -, ⟨hsession, heffects⟩ | ⟨l, hl, hsession, heffects⟩⟩ := takeCloser_cases c
    · exact .rests (.inl hsession) (by rw [heffects]; rfl) rfl
    · rw [heffects, linkEffects_map]
      exact .steps .close l l.close.1 hl .closed (.inl hsession) rfl
  | began id command yield l l' out holds wants session moves running =>
    obtain ⟨hconnected, -⟩ := moves.connected_of_begin running
    rw [linkEffects_map]
    refine .steps _ l l' session moves (.inl rfl) ?_
    rw [startedBy_of_live ((isLive_of_session session).trans hconnected) (command?_of_job? wants),
      Link.begunBy, if_pos hconnected]
    rfl
  | progressed le l l' out outside session moves =>
    rw [linkEffects_map]
    exact .steps le l l' session moves (.inl rfl) (Link.begunBy_of_outside outside)
  | completed e id command yield s le l l' out holds wants cause session moves returned =>
    rw [linkEffects_append, linkEffects_map]
    show OnTransport _ _ _ (out ++ [])
    rw [List.append_nil]
    refine .steps le l l' session moves (session_letGo c l') ?_
    rw [hreleased (Gate.release_of_holder? (by simpa using holds)).1]
    rcases cause with ⟨-, houtside⟩ | ⟨-, rfl⟩
    · exact Link.begunBy_of_outside houtside
    · exact if_neg (by simp [(moves.refused_of_begin returned).2])
  | shutdownBegun id l l' out holds wants session moves =>
    rw [linkEffects_map]
    refine .steps .beginShutdown l l' session moves (.inl rfl) ?_
    rw [startedBy_of_no_command (command?_of_job? wants)]
    rfl
  | answered e id job result holds =>
    exact .rests (.inl rfl) rfl (hreleased (Gate.release_of_holder? holds).1)
  | closed id holds => exact .rests (.inr rfl) rfl (hreleased (Gate.release_of_holder? holds).1)
  | shutDown id l l' out holds wants session moves =>
    rw [linkEffects_append, linkEffects_map]
    show OnTransport _ _ _ (out ++ [])
    rw [List.append_nil]
    exact .steps .finishShutdown l l' session moves (.inr rfl) rfl
  | dialed id => exact absurd rfl (hone id)
  | cancelled id =>
    obtain ⟨-, -, ⟨hsame, -⟩ | ⟨l, l', out, hl, moves, hsession, heffects⟩⟩ :=
      abandonExchange_cases c id
    · rw [hsame]
      exact .rests (.inl rfl) rfl rfl
    · rw [heffects, linkEffects_append, linkEffects_map]
      show OnTransport _ _ _ (out ++ [])
      rw [List.append_nil]
      exact .steps .abandon l l' hl moves (.inl hsession) rfl

/-- The link of a client is at the end of a run of its own, in which just the calls that were put on
the wire began an exchange. -/
def Carried (options : LinkOptions) (c : Client) (started : List (CallId × Command))
    (out : List Link.Effect) : Prop :=
  ∃ les l, Run Link.step (.new options) les l out ∧
    Link.begun (.new options) les = started.map (·.2.encode) ∧
    (c.session = .connected l ∨ c.session = .closed)

variable {options : LinkOptions} {calls : List (CallId × Command)} {out out' : List Link.Effect}

theorem Carried.step (h : Carried options c calls out) (ht : OnTransport c e c' out') :
    Carried options c' (calls ++ startedBy c e c') (out ++ out') := by
  obtain ⟨les, l, hrun, hbegun, hsession⟩ := h
  cases ht with
  | rests session silent nobody =>
    rw [silent, nobody, List.append_nil, List.append_nil]
    refine ⟨les, l, hrun, hbegun, ?_⟩
    rcases session with hsame | hclosed
    · rw [hsame]
      exact hsession
    · exact .inr hclosed
  | steps le l₁ l' before moves after begins =>
    obtain rfl : l₁ = l := by
      rcases hsession with hl | hl
      · simpa using before.symm.trans hl
      · simp [before] at hl
    refine ⟨les ++ [le], l', hrun.snoc moves.step_eq, ?_, after⟩
    rw [Link.begun, log_snoc hrun moves.step_eq, begins, List.map_append]
    exact congrArg (· ++ _) hbegun

/-- A client whose link is new. -/
theorem carried_new (h : c.session = .connected (.new options)) : Carried options c [] [] :=
  ⟨[], .new options, .nil, rfl, .inl h⟩

end Client

end KvClient

import KvClient.Proofs.Client.Closing
import KvClient.Proofs.Link.Correlation

/-!
# A closed link is the end of a session

A link is closed in many ways, by the reader, by the exchange that fails, or by a call.  Whatever
the way, it is never connected again, and as long as no call opens a new link the client is closed
to everybody who asks.

## How it works

* **What every step keeps holds behind every run that opens no link**: `kept_of_run`, for which
  `OnTransport.isLive_eq_false`, `OnTransport.state_eq_closed` and `OnTransport.session_eq_closed`
  are the steps.
* **A call that asks for the state is told the state**: `state_of_reply`.
* **An exchange that fails leaves a closed link, and the client lets go of it**:
  `Moves.closed_of_failure`.
* **A response leaves the state as it is**, also if it tells of an error: `Moves.state_of_response`.
-/

namespace KvClient

/-- No exchange yields a state. -/
theorem Yield.result_ne_state (y : Yield) (s : Settlement) (state : ConnectionState) :
    y.result s ≠ .ok (.state state) := by
  unfold Yield.result
  split
  · simp
  · split
    · simp
    · cases y with
      | nothing => simp [Yield.reply]
      | payload => simp [Yield.reply]
      | entries =>
        rw [Yield.reply]
        cases entriesOfPayload _ <;> simp [Except.map]

/-- A response that tells of an error is an error for the call, and nothing else. -/
theorem Yield.result_of_serverError (y : Yield) {r : Response} (h : r.status = .serverError) :
    y.result (.ok r) = .error (.server (Utf8.decodeLossy r.payload)) := by
  rw [Yield.result, Response.result, h]

namespace Link

variable {l l' : Link} {e : Event} {out : List Effect}

/-- Whether an effect is that a request fails. -/
def Effect.isFailure : Effect → Bool
  | .returned _ (.error _) => true
  | .refused => true
  | _ => false

/-- Whether an effect is that a response gets to its request, or the request returns with it. -/
def Effect.isResponse (r : Response) : Effect → Prop
  | .settled _ s => s = .ok r
  | .returned _ s => s = .ok r
  | _ => False

/-- Closing tells no request of a failure, and no one of a response. -/
theorem quiet_of_mem_closeWith (cause : Error) {effect : Effect}
    (h : effect ∈ (l.closeWith cause).2) :
    effect.isFailure = false ∧ ∀ r, ¬ effect.isResponse r := by
  obtain ⟨t, rfl⟩ := eq_settled_of_mem_closeWith l cause h
  exact ⟨rfl, fun r hr => by simp [Effect.isResponse] at hr⟩

/-- What lets a request fail is an event of the exchange or the transport, and the link is closed
behind it. -/
theorem Moves.of_failure (hm : Moves l e l' out) (hturn : Turn l)
    (h : ∃ effect ∈ out, effect.isFailure = true) :
    l'.connected = false ∧ Client.returned? out ≠ none := by
  obtain ⟨effect, heffect, hfailure⟩ := h
  have hclosing : ∀ cause, effect ∉ (l.closeWith cause).2 := by
    intro cause hmem
    simp [(quiet_of_mem_closeWith cause hmem).1] at hfailure
  cases hm with
  | refused frame idle dead => exact ⟨dead, by simp [Client.returned?]⟩
  | writeFailed | expired =>
    refine ⟨connected_closeWith l _, ?_⟩
    rw [returned?_closeWith_append]
    simp [Client.returned?]
  | collected x s running flushed settled =>
    -- While the link is connected, an exchange can only have been settled with a response.
    refine ⟨Bool.eq_false_iff.mpr fun hconnected => ?_, by simp [Client.returned?]⟩
    obtain ⟨r, rfl⟩ := hturn.settlement_eq_ok running settled hconnected
    obtain rfl := List.mem_singleton.mp heffect
    simp [Effect.isFailure] at hfailure
  | abandoned =>
    rcases List.mem_append.mp heffect with hmem | hmem
    · exact absurd hmem (hclosing _)
    · obtain rfl := List.mem_singleton.mp hmem
      simp [Effect.isFailure] at hfailure
  | stopped | closed | shutdownBegun => exact absurd heffect (hclosing _)
  | registered | wrote | settled | dropped =>
    obtain rfl := List.mem_singleton.mp heffect
    simp [Effect.isFailure] at hfailure
  | _ => simp at heffect

/-- What brings a response leaves the link connected if it was. -/
theorem Moves.connected_of_response (hm : Moves l e l' out) {r : Response}
    (h : ∃ effect ∈ out, effect.isResponse r) : l'.connected = l.connected := by
  obtain ⟨effect, heffect, hresponse⟩ := h
  have hclosing : ∀ cause, effect ∉ (l.closeWith cause).2 :=
    fun cause hmem => (quiet_of_mem_closeWith cause hmem).2 r hresponse
  cases hm with
  | settled | collected => rfl
  | writeFailed | expired | abandoned =>
    rcases List.mem_append.mp heffect with hmem | hmem
    · exact absurd hmem (hclosing _)
    · obtain rfl := List.mem_singleton.mp hmem
      simp [Effect.isResponse] at hresponse
  | stopped | closed | shutdownBegun => exact absurd heffect (hclosing _)
  | registered | refused | wrote | dropped =>
    obtain rfl := List.mem_singleton.mp heffect
    simp [Effect.isResponse] at hresponse
  | _ => simp at heffect

/-- A request that returns with a response does so by itself. -/
theorem Moves.returned?_of_response (hm : Moves l e l' out) {t : Ticket} {r : Response}
    (h : .returned t (.ok r) ∈ out) : Client.returned? out = some (.ok r) := by
  have hclosing : ∀ cause, .returned t (.ok r) ∉ (l.closeWith cause).2 :=
    fun cause hmem => (quiet_of_mem_closeWith cause hmem).2 r rfl
  cases hm with
  | collected x s =>
    obtain ⟨-, rfl⟩ := by simpa using h
    rfl
  | writeFailed | expired | abandoned =>
    rcases List.mem_append.mp h with hmem | hmem
    · exact absurd hmem (hclosing _)
    · simp at hmem
  | stopped | closed | shutdownBegun => exact absurd h (hclosing _)
  | _ => simp at h

/-- What the client does to its link, apart from putting a request on it, lets none return. -/
theorem Moves.returned?_of_inside (hm : Moves l e l' out) (hinside : Client.isOutside e = false)
    (hbegin : ∀ frame, e ≠ .begin frame) : Client.returned? out = none := by
  cases hm with
  | registered frame | refused frame => exact absurd rfl (hbegin frame)
  | abandoned =>
    rw [returned?_closeWith_append]
    rfl
  | closed | shutdownBegun => exact returned?_closeWith l _
  | shutdownFinished => rfl
  | _ => simp [Client.isOutside] at hinside

end Link

namespace Client

variable {c c' : Client} {e : Event} {es : List Event} {effects : List Effect} {l : Link}
  {id : CallId}

/-! ## The state that is reported -/

theorem state_of_session (h : c.session = .connected l) :
    c.state = if l.connected then .connected else .closed := by
  rw [state, h]

theorem state_of_closed (h : c.session = .closed) : c.state = .closed := by
  rw [state, h]

/-- A client is connected to who asks if its link can be used. -/
theorem state_eq_connected_iff : c.state = .connected ↔ c.isLive = true := by
  cases hsession : c.session with
  | connected l =>
    rw [state_of_session hsession, isLive_of_session hsession]
    cases l.connected <;> simp
  | _ => simp [state, isLive, link?, hsession]

theorem OnTransport.session_eq_closed {out : List Link.Effect} (ht : OnTransport c e c' out)
    (h : c.session = .closed) : c'.session = .closed := by
  cases ht with
  | rests session =>
    rcases session with hsame | hclosed
    · exact hsame.trans h
    · exact hclosed
  | steps le l l' before => simp [h] at before

theorem OnTransport.isLive_eq_false {out : List Link.Effect} (ht : OnTransport c e c' out)
    (h : c.isLive = false) : c'.isLive = false := by
  cases ht with
  | rests session =>
    rcases session with hsame | hclosed
    · exact (isLive_congr hsame).trans h
    · rw [isLive, link?, hclosed]
  | steps le l l' before moves after =>
    rw [isLive_of_session before] at h
    rcases after with hl | hclosed
    · exact (isLive_of_session hl).trans (moves.connected_eq_false h)
    · rw [isLive, link?, hclosed]

theorem OnTransport.state_eq_closed {out : List Link.Effect} (ht : OnTransport c e c' out)
    (h : c.state = .closed) : c'.state = .closed := by
  cases ht with
  | rests session =>
    rcases session with hsame | hclosed
    · rw [← h, state, state, hsame]
    · exact state_of_closed hclosed
  | steps le l l' before moves after =>
    have hdead : l.connected = false := by
      rw [state_of_session before] at h
      cases hc : l.connected with
      | false => rfl
      | true => simp [hc] at h
    rcases after with hl | hclosed
    · rw [state_of_session hl, moves.connected_eq_false hdead]
      rfl
    · exact state_of_closed hclosed

/-- What a step keeps that opens no link, a run keeps that opens none. -/
theorem kept_of_run {P : Client → Prop}
    (hkeeps : ∀ {c e c' out}, OnTransport c e c' out → P c → P c')
    (hrun : Run step c es c' effects) (hone : ∀ id, .dialed id (.ok ()) ∉ es) (h : P c) : P c' := by
  induction hrun with
  | nil => exact h
  | snoc hrun hstep ih =>
    have hearlier := ih fun id hmem => hone id (List.mem_append_left _ hmem)
    refine hkeeps ((moves_of_step hstep).onTransport fun id he => ?_) hearlier
    exact hone id (List.mem_append_right _ (he ▸ List.mem_singleton_self _))

/-! ## What a call is told about the state -/

@[simp] theorem finished_not_mem_takeCloser (c : Client) (id : CallId) (r : Except Error Reply) :
    .finished id r ∉ c.takeCloser.2 := by
  obtain ⟨-, -, ⟨-, heffects⟩ | ⟨l, -, -, heffects⟩⟩ := takeCloser_cases c
  · simp [heffects]
  · simp [heffects]

@[simp] theorem finished_not_mem_abandonExchange (c : Client) (other id : CallId)
    (r : Except Error Reply) : .finished id r ∉ (c.abandonExchange other).2 := by
  obtain ⟨-, -, ⟨hsame, -⟩ | ⟨l, l', out, -, -, -, heffects⟩⟩ := abandonExchange_cases c other
  · simp [hsame]
  · simp [heffects]

theorem act_of_state (hholds : c.gate.holder? = some id) (hwants : c.job? id = some .state) :
    c.step (.act id) = some (c.finish id (.ok (.state c.state))) := by
  rw [step, act, if_pos hholds, hwants]

/-- An event of the link ends no call but one that has an exchange. -/
theorem finished_of_onLink {le : Link.Event} {r : Except Error Reply}
    (h : c.onLink le = some (c', effects)) (hr : .finished id r ∈ effects) :
    ∃ command yield s, c.job? id = some (.exchange command yield) ∧ r = yield.result s := by
  obtain ⟨l, l', out, -, -, ⟨-, -, rfl⟩ | ⟨s, other, command, yield, -, -, hjob, -, rfl⟩⟩ :=
    onLink_eq_some h
  · simp at hr
  · obtain ⟨rfl, rfl⟩ : id = other ∧ r = yield.result s := by simpa using hr
    exact ⟨command, yield, s, hjob, rfl⟩

theorem not_told_of_onLink {le : Link.Event} {state : ConnectionState}
    (h : c.onLink le = some (c', effects)) : .finished id (.ok (.state state)) ∉ effects := by
  intro hmem
  obtain ⟨command, yield, s, -, hresult⟩ := finished_of_onLink h hmem
  exact Yield.result_ne_state yield s state hresult.symm

theorem told_of_act {caller : CallId} {state : ConnectionState}
    (h : c.act caller = some (c', effects)) (hmem : .finished id (.ok (.state state)) ∈ effects) :
    state = c.state := by
  unfold act at h
  by_cases hholds : c.gate.holder? = some caller
  · rw [if_pos hholds] at h
    split at h
    · exact absurd hmem (not_told_of_onLink h)
    · obtain ⟨-, rfl⟩ := by simpa [finish] using h
      simp at hmem
    · obtain ⟨-, rfl⟩ := by simpa [finish] using h
      obtain ⟨-, rfl⟩ := by simpa using hmem
      rfl
    · exact absurd hmem (not_told_of_onLink h)
    · obtain ⟨-, rfl⟩ := by simpa [finish] using h
      simp at hmem
    · by_cases hlive : c.isLive = true
      · rw [if_pos hlive] at h
        obtain ⟨-, rfl⟩ := by simpa [finish] using h
        simp at hmem
      · rw [if_neg hlive] at h
        simp at h
    · simp at h
  · rw [if_neg hholds] at h
    simp at h

theorem not_told_of_dialed {caller : CallId} {outcome : Except Error Unit} {state : ConnectionState}
    (h : c.dialed caller outcome = some (c', effects)) :
    .finished id (.ok (.state state)) ∉ effects := by
  unfold dialed at h
  by_cases hguard : c.gate.holder? = some caller ∧ (!c.isLive) = true
  · rw [if_pos hguard] at h
    split at h
    · obtain ⟨-, rfl⟩ := by simpa [finish] using h
      simp
    · obtain ⟨-, rfl⟩ := by simpa [finish] using h
      simp
    · simp at h
  · rw [if_neg hguard] at h
    simp at h

/-- **A call that asks for the state is told the state**, and nobody else is told one. -/
theorem state_of_reply {state : ConnectionState} (hstep : c.step e = some (c', effects))
    (hmem : .finished id (.ok (.state state)) ∈ effects) : state = c.state := by
  cases moves_of_step hstep with
  | answered e other job result holds wants linkless cause =>
    rcases cause with rfl | ⟨err, rfl⟩
    · exact told_of_act hstep hmem
    · exact absurd hmem (not_told_of_dialed hstep)
  -- A call that has an exchange finishes too, but with what its command yields.
  | completed e other command yield s le l l' out =>
    have hlast : id = other ∧ Except.ok (.state state) = yield.result s := by simpa using hmem
    exact absurd hlast.2.symm (Yield.result_ne_state yield s state)
  | _ => simp at hmem

/-! ## Exchanges that fail, and responses -/

/-- What a step does to the link: nothing that is to be seen, or a step of the link that lets the
exchange run on, or one that lets it return.  Then its call is over, and the client may let go of
the link. -/
inductive OnSession (c c' : Client) (effects : List Effect) : Prop
  | silent (nothing : linkEffects effects = [])
  | goesOn (le : Link.Event) (l l' : Link) (before : c.session = .connected l)
      (moves : Link.Moves l le l' (linkEffects effects))
      (running : returned? (linkEffects effects) = none) (after : c'.session = .connected l')
  | returns (le : Link.Event) (l l' : Link) (id : CallId) (yield : Yield) (s : Settlement)
      (before : c.session = .connected l) (moves : Link.Moves l le l' (linkEffects effects))
      (returned : returned? (linkEffects effects) = some s)
      (after : c'.session = (c.letGo l').session)
      (reply : .finished id (yield.result s) ∈ effects)

@[simp] theorem linkEffects_map_append (out : List Link.Effect) (more : List Effect) :
    linkEffects (out.map .link ++ more) = out ++ linkEffects more := by
  rw [linkEffects_append, linkEffects_map]

theorem Moves.onSession (hm : Moves c e c' effects) : OnSession c c' effects := by
  cases hm with
  | invalid | arrived | resumed | answered | closed | dialed => exact .silent rfl
  | arrivedToClose =>
    obtain ⟨-, -, ⟨-, heffects⟩ | ⟨l, hl, hsession, heffects⟩⟩ := takeCloser_cases c
    · exact .silent (by rw [heffects]; rfl)
    · have hclosed : Link.Moves l .close l.close.1 l.close.2 := .closed
      refine .goesOn .close l l.close.1 hl ?_ ?_ hsession
      · rw [heffects, linkEffects_map]
        exact hclosed
      · rw [heffects, linkEffects_map]
        exact hclosed.returned?_of_inside rfl (by simp)
  | began id command yield l l' out holds wants session moves running
  | progressed le l l' out outside session moves running =>
    rw [← linkEffects_map out] at moves running
    exact .goesOn _ l l' session moves running rfl
  | shutdownBegun id l l' out holds wants session moves =>
    have hrunning := moves.returned?_of_inside rfl (by simp)
    rw [← linkEffects_map out] at moves hrunning
    exact .goesOn _ l l' session moves hrunning rfl
  | completed e id command yield s le l l' out holds wants cause session moves returned =>
    have hout : linkEffects (out.map .link ++ [.finished id (yield.result s)]) = out := by
      rw [linkEffects_map_append]
      exact List.append_nil out
    rw [← hout] at moves returned
    exact .returns le l l' id yield s session moves returned rfl (by simp)
  | shutDown id l l' out holds wants session moves =>
    cases moves with
    | shutdownFinished => exact .silent rfl
  | cancelled id =>
    obtain ⟨-, -, ⟨hsame, -⟩ | ⟨l, l', out, hl, moves, hsession, heffects⟩⟩ :=
      abandonExchange_cases c id
    · exact .silent (by rw [hsame]; rfl)
    · have hout : linkEffects ((c.abandonExchange id).2 ++ [.cancelled id]) = out := by
        rw [heffects, linkEffects_map_append]
        exact List.append_nil out
      have hrunning := moves.returned?_of_inside rfl (by simp)
      rw [← hout] at moves hrunning
      exact .goesOn .abandon l l' hl moves hrunning hsession

/-- **An exchange that fails leaves a closed link, and the client lets go of it.** -/
theorem Moves.closed_of_failure (hm : Moves c e c' effects)
    (hturn : ∀ l, c.session = .connected l → Link.Turn l)
    (h : ∃ effect ∈ linkEffects effects, effect.isFailure = true) :
    c'.session = .closed ∧ ∃ l le l', c.session = .connected l ∧
      l.step le = some (l', linkEffects effects) ∧ l'.connected = false := by
  cases hm.onSession with
  | silent nothing => simp [nothing] at h
  | goesOn le l l' before moves running =>
    -- What fails returns, so that the exchange does not run on.
    exact absurd running (moves.of_failure (hturn l before) h).2
  | returns le l l' id yield s before moves returned after =>
    have hclosed := (moves.of_failure (hturn l before) h).1
    exact ⟨after.trans (session_letGo_of_closed hclosed), l, le, l', before, moves.step_eq, hclosed⟩

/-- **A response leaves the state as it is**, whatever it tells. -/
theorem Moves.state_of_response (hm : Moves c e c' effects) {r : Response}
    (h : ∃ effect ∈ linkEffects effects, effect.isResponse r) : c'.state = c.state := by
  cases hm.onSession with
  | silent nothing => simp [nothing] at h
  | goesOn le l l' before moves running after =>
    rw [state_of_session after, state_of_session before, moves.connected_of_response h]
  | returns le l l' id yield s before moves returned after =>
    have hconnected := moves.connected_of_response h
    rw [state_of_session before, ← hconnected]
    cases hc : l'.connected with
    | false => exact state_of_closed (after.trans (session_letGo_of_closed hc))
    | true =>
      rw [letGo, if_pos hc] at after
      rw [state_of_session after, hc]

/-- A call whose request returns with a response gets what its command makes of it. -/
theorem Moves.finished_of_response (hm : Moves c e c' effects) {t : Ticket} {r : Response}
    (h : .returned t (.ok r) ∈ linkEffects effects) :
    ∃ id yield, .finished id (Yield.result yield (.ok r)) ∈ effects := by
  cases hm.onSession with
  | silent nothing => simp [nothing] at h
  | goesOn le l l' before moves running =>
    have hreturned := moves.returned?_of_response h
    simp [running] at hreturned
  | returns le l l' id yield s before moves returned after reply =>
    have hreturned := moves.returned?_of_response h
    obtain rfl : s = .ok r := by simpa [returned] using hreturned
    exact ⟨id, yield, reply⟩

end Client

end KvClient

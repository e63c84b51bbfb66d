import KvClient.Proofs.Client.Waiting

/-!
# Calls in their exchange

What a call has written is at any time what its exchange has sent of the frame.  The exchange goes on
until the frame is written and its settlement is collected, unless it is aborted: the write fails, or
the time is up, or the caller is called off.

## How it works

* **What the transport accepts is the next part of the frame**: `Link.Moves.wrote_of_outside`.
* **An exchange ends in one of these ways**: `Link.Moves.ending_of_outside`.
* **A call in its exchange goes on until then**: `InExchange.Next`, `InExchange.step`.
-/

namespace KvClient

namespace Link

variable {l l' : Link} {e : Event} {out : List Effect}

/-- The transport accepts nothing but of an exchange that is running. -/
theorem Moves.accepted_of_idle (hm : Moves l e l' out) (hidle : l.exchange? = none) :
    accepted out = [] := by
  cases hm with
  | wrote x count running => simp [hidle] at running
  | stopped | closed | shutdownBegun => simp
  | writeFailed x running | expired x limit running | abandoned x running =>
    simp [hidle] at running
  | _ => rfl

/-- What ends an exchange writes nothing. -/
theorem Moves.accepted_of_returned (hm : Moves l e l' out) {s : Settlement}
    (h : Client.returned? out = some s) : accepted out = [] := by
  cases hm with
  | wrote => simp [Client.returned?] at h
  | writeFailed | expired | abandoned =>
    rw [accepted_append, accepted_closeWith]
    rfl
  | stopped | closed | shutdownBegun => simp
  | _ => rfl

theorem Moves.accepted_of_abandon (hm : Moves l .abandon l' out) : accepted out = [] := by
  cases hm with
  | abandoned =>
    rw [accepted_append, accepted_closeWith]
    rfl

/-- An exchange that goes on has written more of the same frame. -/
theorem Moves.wrote_of_outside (hm : Moves l e l' out) (houtside : Client.isOutside e = true)
    (hrunning : Client.returned? out = none) {x : Exchange} (hx : l.exchange? = some x)
    {frame written : Bytes} (h : x.Wrote frame written) :
    ∃ x', l'.exchange? = some x' ∧ x'.Wrote frame (written ++ accepted out) := by
  have htold : ∀ t? s, accepted out = [] → l'.exchange? = l.exchange?.map (·.told t? s) →
      ∃ x', l'.exchange? = some x' ∧ x'.Wrote frame (written ++ accepted out) := by
    intro t? s hsilent hx'
    rw [hsilent, List.append_nil]
    exact ⟨x.told t? s, by rw [hx', hx]; rfl, h.told t? s⟩
  cases hm with
  | registered | refused | abandoned | closed | shutdownBegun | shutdownFinished =>
    simp [Client.isOutside] at houtside
  | wrote y count running pos fits =>
    obtain rfl : x = y := by simpa [hx] using running
    obtain ⟨rfl, -, rfl, hwhole⟩ := h
    refine ⟨_, rfl, rfl, fits, ?_, fun hflushed => ?_⟩
    · show x.frame.take x.sent ++ ((x.frame.drop x.sent).take count ++ []) = _
      rw [List.append_nil, List.take_add]
    · have hall := hwhole hflushed
      show x.sent + count = x.frame.length
      omega
  | flushed y running whole =>
    obtain rfl : x = y := by simpa [hx] using running
    refine ⟨_, rfl, h.frame_eq, h.sent_le, ?_, fun _ => h.frame_eq ▸ whole⟩
    exact (List.append_nil written).trans h.written
  | writeFailed | expired =>
    rw [returned?_closeWith_append] at hrunning
    simp [Client.returned?] at hrunning
  | collected => simp [Client.returned?] at hrunning
  | received | streamEnded | readFailed | dropped =>
    exact htold none (.error .connectionClosed) rfl (by simp)
  | settled a r rest t => exact htold (some t) (.ok r) rfl rfl
  | stopped cause => exact htold l.slot? (.error cause) (accepted_closeWith l cause) (by simp)

/-- What an exchange comes to by an event from outside: its frame is written, and its settlement
collected, or the write fails, or the time is up. -/
theorem Moves.ending_of_outside (hm : Moves l e l' out) (houtside : Client.isOutside e = true)
    {s : Settlement} (h : Client.returned? out = some s) :
    (∃ x, l.exchange? = some x ∧ .returned x.ticket s ∈ out) ∧
      ((e = .collect ∧ ∀ x, l.exchange? = some x → x.flushed = true) ∨
        (e = .writeFault ∨ e = .expire) ∧ ∃ err, s = .error err) := by
  cases hm with
  | writeFailed x running =>
    rw [returned?_closeWith_append] at h
    obtain rfl := by simpa [Client.returned?] using h
    exact ⟨⟨x, running, by simp⟩, .inr ⟨.inl rfl, _, rfl⟩⟩
  | expired x limit running =>
    rw [returned?_closeWith_append] at h
    obtain rfl := by simpa [Client.returned?] using h
    exact ⟨⟨x, running, by simp⟩, .inr ⟨.inr rfl, _, rfl⟩⟩
  | collected x s' running flushed settled =>
    obtain rfl : s' = s := by simpa [Client.returned?] using h
    refine ⟨⟨x, running, by simp⟩, .inl ⟨rfl, fun y hy => ?_⟩⟩
    obtain rfl : x = y := by simpa [running] using hy
    exact flushed
  | stopped => simp [returned?_closeWith] at h
  | registered | refused | abandoned | closed | shutdownBegun | shutdownFinished =>
    simp [Client.isOutside] at houtside
  | _ => simp [Client.returned?] at h

end Link

namespace Client

variable {c c' : Client} {e : Event} {effects : List Effect} {id other : CallId} {command : Command}
  {yield : Yield}

/-! ## What a step writes -/

/-- The transport accepts nothing but of an exchange that is running. -/
theorem Moves.accepted_of_idle (hm : Moves c e c' effects) (hidle : c.exchange? = none) :
    accepted effects = [] := by
  by_cases hone : ∃ other, e = .dialed other (.ok ())
  · obtain ⟨other, rfl⟩ := hone
    cases hm with
    | completed _ _ _ _ _ _ _ _ _ _ _ cause => simp at cause
    | answered _ _ _ _ _ _ _ cause => simp at cause
    | dialed => rfl
  · have ht := hm.onTransport fun other he => hone ⟨other, he⟩
    cases ht with
    | rests session silent => rw [accepted, silent]; rfl
    | steps le l l' before moves =>
      exact moves.accepted_of_idle ((exchange?_of_session before).symm.trans hidle)

theorem abandonExchange_of_ne (h : c.gate.holder? ≠ some id) : c.abandonExchange id = (c, []) := by
  unfold abandonExchange
  split
  · rw [if_neg h]
  · rfl

/-- What becomes of a call in its exchange: it goes on, with what the transport accepts behind what
was written before, or it is over.  Then the frame was written to its end, or the exchange was
aborted. -/
inductive InExchange.Next (c' : Client) (id : CallId) (command : Command) (yield : Yield)
    (written : Bytes) (e : Event) (effects : List Effect) : Prop
  | goesOn (still : InExchange c' id command yield (written ++ accepted effects))
      (untold : ∀ r, .finished id r ∉ effects)
  | returned (s : Settlement) (absent : c'.job? id = none) (whole : written = command.encode)
      (silent : accepted effects = []) (settled : ∃ t, .link (.returned t s) ∈ effects)
      (told : ∀ r, .finished id r ∈ effects ↔ r = yield.result s)
  | aborted (absent : c'.job? id = none) (silent : accepted effects = [])
      (cause : e = .link .writeFault ∨ e = .link .expire ∨ e = .cancel id)
      (told : ∃ err, ∀ r, .finished id r ∈ effects → r = .error err)

theorem accepted_map_link (out : List Link.Effect) :
    accepted (out.map .link) = Link.accepted out := by
  rw [accepted, linkEffects_map]

theorem accepted_append (a b : List Effect) : accepted (a ++ b) = accepted a ++ accepted b := by
  rw [accepted, linkEffects_append, Link.accepted_append]
  rfl

theorem accepted_takeCloser (c : Client) : accepted c.takeCloser.2 = [] := by
  obtain ⟨-, -, ⟨-, heffects⟩ | ⟨l, -, -, heffects⟩⟩ := takeCloser_cases c
  · rw [heffects]
    rfl
  · rw [heffects, accepted_map_link]
    exact Link.accepted_closeWith l _

theorem accepted_abandonExchange (c : Client) (id : CallId) :
    accepted (c.abandonExchange id).2 = [] := by
  obtain ⟨-, -, ⟨hsame, -⟩ | ⟨l, l', out, -, moves, -, heffects⟩⟩ := abandonExchange_cases c id
  · rw [hsame]
    rfl
  · rw [heffects, accepted_map_link]
    exact moves.accepted_of_abandon

/-- Closing from outside the gate leaves an exchange as far as it has come. -/
theorem wrote_takeCloser {x : Exchange} (hx : c.exchange? = some x) {frame written : Bytes}
    (h : x.Wrote frame written) :
    ∃ x', c.takeCloser.1.exchange? = some x' ∧ x'.Wrote frame written := by
  obtain ⟨-, -, ⟨hsession, -⟩ | ⟨l, hl, hsession, -⟩⟩ := takeCloser_cases c
  · exact ⟨x, (exchange?_congr hsession).trans hx, h⟩
  · rw [exchange?_of_session hl] at hx
    refine ⟨x.told l.slot? (.error .connectionClosed), ?_, h.told _ _⟩
    rw [exchange?_of_session hsession, Link.close, Link.exchange?_closeWith, hx]
    rfl

/-- What writes nothing leaves the exchange as far as it has come. -/
theorem InExchange.next_of_silent {written : Bytes} (haccepted : accepted effects = [])
    (hholds : c'.gate.holder? = some id) (hwants : c'.job? id = some (.exchange command yield))
    (hrunning : ∃ x, c'.exchange? = some x ∧ x.Wrote command.encode written)
    (huntold : ∀ r, .finished id r ∉ effects) :
    InExchange.Next c' id command yield written e effects := by
  refine .goesOn ⟨hholds, hwants, ?_⟩ huntold
  rw [haccepted, List.append_nil]
  exact hrunning

/-- An exchange that ends was written to its end, or was aborted. -/
theorem InExchange.next_of_returned {written : Bytes} {le : Link.Event} {l l' : Link}
    {out : List Link.Effect} {s : Settlement} {x : Exchange} (habsent : c'.job? id = none)
    (hx : l.exchange? = some x) (hwrote : x.Wrote command.encode written)
    (hmoves : Link.Moves l le l' out) (hreturned : returned? out = some s)
    (hcause : e = .link le ∧ isOutside le = true ∨ e = .act id ∧ le = .begin command.encode) :
    InExchange.Next c' id command yield written e
      (out.map .link ++ [.finished id (yield.result s)]) := by
  have hsilent : accepted (out.map .link ++ [.finished id (yield.result s)]) = [] := by
    rw [accepted_append, accepted_map_link, hmoves.accepted_of_returned hreturned]
    rfl
  rcases hcause with ⟨rfl, houtside⟩ | ⟨rfl, rfl⟩
  · obtain ⟨⟨y, hy, ht⟩, hends⟩ := hmoves.ending_of_outside houtside hreturned
    rcases hends with ⟨rfl, hflushed⟩ | ⟨hwhy, err, rfl⟩
    · refine .returned s habsent ?_ hsilent ⟨y.ticket, by simp [ht]⟩ (by simp)
      rw [hwrote.written, hwrote.whole (hflushed x hx), List.take_length]
    · refine .aborted habsent hsilent ?_ ⟨err, by simp [Yield.result]⟩
      rcases hwhy with rfl | rfl
      · exact .inl rfl
      · exact .inr (.inl rfl)
  · cases hmoves with
    | refused frame idle => simp [hx] at idle
    | registered frame idle => simp [hx] at idle

/-- When another call is called off, the exchange is as it was. -/
theorem InExchange.next_of_cancelled {written : Bytes}
    (h : InExchange c id command yield written) (hgate : c'.gate = c.gate.cancel other)
    (hjobs : c'.jobs = c.jobs.filter (·.1 != other))
    (hsession : c'.session = (c.abandonExchange other).1.session) :
    InExchange.Next c' id command yield written (.cancel other)
      ((c.abandonExchange other).2 ++ [.cancelled other]) := by
  have hsilent : accepted ((c.abandonExchange other).2 ++ [.cancelled other]) = [] := by
    rw [accepted_append, accepted_abandonExchange]
    rfl
  by_cases hother : id = other
  · subst hother
    exact .aborted (job?_filter_self hjobs) hsilent (.inr (.inr rfl)) ⟨.connectionClosed, by simp⟩
  · obtain ⟨x, hx, hwrote⟩ := h.running
    have hsame : c.abandonExchange other = (c, []) := by
      refine abandonExchange_of_ne ?_
      rw [h.holds]
      simpa using hother
    refine next_of_silent hsilent ?_ ((job?_filter_ne hjobs hother).trans h.wants) ⟨x, ?_, hwrote⟩
      (by simp)
    · rw [hgate]
      exact Gate.holder?_cancel_ne h.holds hother
    · rw [hsame] at hsession
      exact (exchange?_congr hsession).trans hx

/-- **A call in its exchange goes on until its frame is written, or it is aborted.** -/
theorem InExchange.step {written : Bytes} (h : InExchange c id command yield written)
    (hstep : c.step e = some (c', effects)) :
    InExchange.Next c' id command yield written e effects := by
  obtain ⟨hholds, hwants, x, hx, hwrote⟩ := h
  have hself : ∀ {other : CallId} {job : Job}, c.gate.holder? = some other →
      c.job? other = some job → other = id ∧ job = .exchange command yield :=
    eq_of_holds hholds hwants
  have harrives : ∀ other, (c.gate.arrive other).holder? = some id := by
    intro other
    rcases Gate.arrive_cases other c.gate with ⟨hfree, -⟩ | ⟨hsame, -⟩
    · simp [hholds] at hfree
    · rw [hsame, hholds]
  have hne : ∀ {other}, c.job? other = none → id ≠ other := by
    rintro other habsent rfl
    simp [hwants] at habsent
  cases moves_of_step hstep with
  | invalid other request err refused absent =>
    exact next_of_silent rfl hholds hwants ⟨x, hx, hwrote⟩ (by simp [hne absent])
  | arrived other request job valid absent =>
    exact next_of_silent rfl (harrives other) ((job?_cons_ne rfl (hne absent)).trans hwants)
      ⟨x, hx, hwrote⟩ (by simp)
  | arrivedToClose other request valid absent =>
    obtain ⟨hgate, hjobs, -⟩ := takeCloser_cases c
    refine next_of_silent (accepted_takeCloser c) ?_ ?_ (wrote_takeCloser hx hwrote) (by simp)
    · show (c.takeCloser.1.gate.arrive other).holder? = some id
      rw [hgate]
      exact harrives other
    · exact (job?_cons_ne (by rw [hjobs]) (hne absent)).trans hwants
  | resumed other queue granted => simp [granted, Gate.holder?] at hholds
  | began other command' yield' l l' out holds wants session moves running =>
    have hidle := (exchange?_of_session session).symm.trans hx
    rw [(moves.connected_of_begin running).2.1] at hidle
    cases hidle
  | progressed le l l' out outside session moves running =>
    obtain ⟨x', hx', hwrote'⟩ :=
      moves.wrote_of_outside outside running ((exchange?_of_session session).symm.trans hx) hwrote
    refine .goesOn ⟨hholds, hwants, x', (exchange?_of_session rfl).trans hx', ?_⟩ (by simp)
    rw [accepted_map_link]
    exact hwrote'
  | completed e other command' yield' s le l l' out holds wants cause session moves returned =>
    obtain ⟨rfl, hjob⟩ := hself holds wants
    obtain ⟨rfl, rfl⟩ := Job.exchange.inj hjob
    exact next_of_returned (job?_filter_self (c := c) (by simp [finish]))
      ((exchange?_of_session session).symm.trans hx) hwrote moves returned cause
  | answered e other job result holds wants linkless =>
    obtain ⟨rfl, rfl⟩ := hself holds wants
    rw [exchange?_of_linkless (linkless rfl)] at hx
    cases hx
  | shutdownBegun other l l' out holds wants | closed other holds wants
  | shutDown other l l' out holds wants | dialed other credentials? holds wants =>
    have hjob := (hself holds wants).2
    simp at hjob
  | cancelled other =>
    obtain ⟨hgate, hjobs, -⟩ := abandonExchange_cases c other
    exact next_of_cancelled ⟨hholds, hwants, x, hx, hwrote⟩ (by rw [hgate]) (by rw [hjobs]) rfl

/-- An exchange that is running lets nobody set about a job. -/
theorem InExchange.ne_act {written : Bytes} (h : InExchange c id command yield written)
    (hstep : c.step e = some (c', effects)) : e ≠ .act id := by
  rintro rfl
  obtain ⟨hholds, hwants, x, hx, -⟩ := h
  obtain ⟨l, hsession, hrunning⟩ := session_of_exchange? hx
  simp [Client.step, act, hholds, hwants, hsession, onLink, Link.step, Link.begin, hrunning] at hstep

end Client

end KvClient

import KvClient.Proofs.Client.Waiting

/-!
# Calls that come too late

A call that comes when there is no link that can be used is turned away as soon as the gate is its
own.  It writes nothing, and neither does any other call; the one thing that may still be written is
the rest of a frame whose exchange was running by then.

## How it works

* **A call that comes too late finds no exchange of its own**: `Late`, which every step keeps until
  the call is over (`Late.step`).
* **When it acts, it is turned away**: `Late.act`.
* **On a closed link only the exchange that is running writes**: `unwritten_of_run`.
-/

namespace KvClient

namespace Link

variable {l l' : Link} {e : Event} {out : List Effect}

/-- An exchange on a closed link has been running before. -/
theorem Moves.running_of_dead (hm : Moves l e l' out) (hdead : l.connected = false) {x' : Exchange}
    (hx' : l'.exchange? = some x') : ∃ x, l.exchange? = some x ∧ x.ticket = x'.ticket := by
  have htold : ∀ {t? s}, l.exchange?.map (·.told t? s) = some x' →
      ∃ x, l.exchange? = some x ∧ x.ticket = x'.ticket := by
    intro t? s hmap
    obtain ⟨x, hx, rfl⟩ := Option.map_eq_some_iff.mp hmap
    exact ⟨x, hx, (Exchange.ticket_told ..).symm⟩
  cases hm with
  | registered frame idle live => simp [hdead] at live
  | wrote x count running | flushed x running =>
    obtain rfl : _ = x' := by simpa using hx'
    exact ⟨x, running, rfl⟩
  | writeFailed | expired | abandoned => simp [shut] at hx'
  | collected => simp at hx'
  | settled => exact htold hx'
  | stopped | closed | shutdownBegun => exact htold ((exchange?_closeWith l _).symm.trans hx')
  | _ => exact ⟨x', hx', rfl⟩

end Link

namespace Client

variable {c₀ c c' : Client} {e : Event} {es later : List Event} {effects more : List Effect}
  {adm arrived : List (CallId × Command)} {id : CallId} {command : Command} {yield : Yield}

/-! ## Calls that come too late -/

/-- A call is at the gate that wants a command to be sent, but there is no link that can be used,
and if an exchange is still running it is that of another call. -/
structure Late (c : Client) (id : CallId) (command : Command) (yield : Yield) : Prop where
  dead : c.isLive = false
  here : id ∈ c.gate.callers
  wants : c.job? id = some (.exchange command yield)
  others : ∀ x, c.exchange? = some x → ∃ other command', other ≠ id ∧
    c.gate.holder? = some other ∧ c.command? other = some command'

theorem Late.waiting (h : Late c id command yield) : Waiting c id command yield :=
  ⟨h.here, h.wants, h.others⟩

/-- **A call that comes too late is turned away when it acts**, and nothing is written. -/
theorem Late.act (h : Late c id command yield) (hholds : c.gate.holder? = some id) :
    ∃ c' out, c.step (.act id) =
        some (c', out.map .link ++ [.finished id (.error .connectionClosed)]) ∧
      Link.accepted out = [] := by
  have hidle := h.waiting.idle hholds
  have hdead := h.dead
  cases hsession : c.session with
  | connected l =>
    rw [isLive_of_session hsession] at hdead
    rw [exchange?_of_session hsession] at hidle
    have hrefused : l.step (.begin command.encode) = some (l, [.refused]) :=
      (Link.Moves.refused _ hidle hdead).step_eq
    have hact : c.step (.act id) = c.onLink (.begin command.encode) := by
      rw [step, Client.act, if_pos hholds, h.wants, hsession]
    rw [hact, onLink_of_returned hsession hrefused rfl hholds h.wants]
    exact ⟨_, [.refused], rfl, rfl⟩
  | unconnected | closed =>
    have hlinkless : c.link? = none := by rw [link?, hsession]
    exact ⟨_, [], act_of_linkless hholds h.wants hlinkless, rfl⟩

/-- What has become of a call that came too late: it was turned away, or called off, or it is still
at the gate. -/
inductive Turned (c : Client) (id : CallId) (command : Command) (yield : Yield)
    (effects : List Effect) : Prop
  | late (late : Late c id command yield) (unfinished : ∀ r, .finished id r ∉ effects)
  | gone (absent : c.job? id = none)
      (refused : ∀ r, .finished id r ∈ effects → r = .error .connectionClosed)
      (told : .finished id (.error .connectionClosed) ∈ effects ∨ .cancelled id ∈ effects)

/-- **A call that comes too late stays so until it is over**, and is turned away then. -/
theorem Late.step (h : Late c id command yield) (hq : Queued c adm arrived)
    (hstep : c.step e = some (c', effects)) (hone : ∀ other, e ≠ .dialed other (.ok ())) :
    Turned c' id command yield effects := by
  by_cases hact : e = .act id
  · subst hact
    cases h.waiting.act hstep with
    | begins live => simp [h.dead] at live
    | turnedAway dead absent told =>
      exact .gone absent (fun r => (told r).mp) (.inl ((told _).mpr rfl))
  · obtain ⟨hnext, untold⟩ := h.waiting.step hq hstep hact
    rcases hnext with waiting | ⟨absent, cancelled⟩
    · have hdead := ((moves_of_step hstep).onTransport hone).isLive_eq_false h.dead
      exact .late ⟨hdead, waiting.here, waiting.wants, waiting.others⟩ untold
    · exact .gone absent (fun r hr => absurd hr (untold r)) (.inr cancelled)

theorem Turned.step (h : Turned c id command yield effects) (hq : Queued c adm arrived)
    (hstep : c.step e = some (c', more)) (hone : ∀ other, e ≠ .dialed other (.ok ()))
    (hnew : ∀ request, e ≠ .issue id request) : Turned c' id command yield (effects ++ more) := by
  cases h with
  | late late unfinished =>
    have hbefore : ∀ {r}, .finished id r ∈ effects ++ more → .finished id r ∈ more :=
      fun hr => (List.mem_append.mp hr).resolve_left (unfinished _)
    cases late.step hq hstep hone with
    | late late' unfinished' => exact .late late' fun r hr => unfinished' r (hbefore hr)
    | gone absent refused told =>
      refine .gone absent (fun r hr => refused r (hbefore hr)) ?_
      exact told.imp (List.mem_append_right _) (List.mem_append_right _)
  | gone absent refused told =>
    obtain ⟨habsent, hunfinished⟩ := (moves_of_step hstep).stays_over absent hnew
    refine .gone habsent (fun r hr => refused r ?_) ?_
    · exact (List.mem_append.mp hr).resolve_right (hunfinished r)
    · exact told.imp (List.mem_append_left _) (List.mem_append_left _)

/-- A call that comes when there is no link that can be used comes too late. -/
theorem late_of_issue {request : Request} (hvalid : request.check = .ok (.exchange command yield))
    (hstep : c.step (.issue id request) = some (c', effects)) (hq : Queued c adm arrived)
    (hdead : c.isLive = false) (hserved : ∀ x, c.exchange? = some x → ∃ other command',
      c.gate.holder? = some other ∧ c.command? other = some command') :
    Late c' id command yield ∧ effects = [] := by
  obtain ⟨hwaiting, heffects⟩ := waiting_of_issue hvalid hstep hq hserved
  have hdead' := ((moves_of_step hstep).onTransport (by simp)).isLive_eq_false hdead
  exact ⟨⟨hdead', hwaiting.here, hwaiting.wants, hwaiting.others⟩, heffects⟩

/-! ## Runs on a closed link -/

theorem turned_of_run (hgate : c₀.gate = .free) (hrun : Run step c₀ es c effects)
    (hlate : Late c id command yield) (hlater : Run step c later c' more)
    (hone : ∀ other, .dialed other (.ok ()) ∉ later) (hnew : ∀ request, .issue id request ∉ later) :
    Turned c' id command yield more := by
  induction hlater with
  | nil => exact .late hlate (by simp)
  | snoc hlater hstep ih =>
    simp only [List.mem_append, List.mem_singleton, not_or] at hone hnew
    refine (ih (fun other => (hone other).1) fun request => (hnew request).1).step
      (queued_of_run hgate (hrun.append hlater)) hstep ?_ ?_
    · exact fun other he => (hone other).2 he.symm
    · exact fun request he => (hnew request).2 he.symm

/-- Without a link that can be used, no call is put on the wire. -/
theorem unstarted_of_run (hrun : Run step c es c' effects)
    (hone : ∀ other, .dialed other (.ok ()) ∉ es) (hdead : c.isLive = false) :
    started c es = [] := by
  induction hrun with
  | nil => rfl
  | snoc hrun hstep ih =>
    simp only [List.mem_append, List.mem_singleton, not_or] at hone
    have hdead' := kept_of_run OnTransport.isLive_eq_false hrun (fun other => (hone other).1) hdead
    rw [started, log_snoc hrun hstep]
    rcases (moves_of_step hstep).startedBy_cases with hnobody | ⟨other, command', -, hstarts⟩
    · rw [hnobody, List.append_nil]
      exact ih fun other => (hone other).1
    · have hlive := hstarts.live
      simp [hdead'] at hlive

/-- **Without a link that can be used, nothing is written** but by the exchange that was running. -/
theorem unwritten_of_run (hrun : Run step c es c' effects)
    (hone : ∀ other, .dialed other (.ok ()) ∉ es) (hdead : c.isLive = false) :
    (∀ x', c'.exchange? = some x' → ∃ x, c.exchange? = some x ∧ x.ticket = x'.ticket) ∧
      ∀ t, (∀ x, c.exchange? = some x → x.ticket ≠ t) →
        Link.acceptedOf t (linkEffects effects) = [] := by
  induction hrun with
  | nil => exact ⟨fun x' hx' => ⟨x', hx', rfl⟩, fun t _ => rfl⟩
  | snoc hrun hstep ih =>
    simp only [List.mem_append, List.mem_singleton, not_or] at hone
    have hdead' := kept_of_run OnTransport.isLive_eq_false hrun (fun other => (hone other).1) hdead
    obtain ⟨hrunning, hsilent⟩ := ih fun other => (hone other).1
    have ht := (moves_of_step hstep).onTransport fun other he => (hone other).2 he.symm
    cases ht with
    | rests session silent =>
      refine ⟨fun x' hx' => ?_, fun t hother => ?_⟩
      · rcases session with hsame | hclosed
        · exact hrunning x' ((exchange?_congr hsame).symm.trans hx')
        · simp [exchange?_of_closed hclosed] at hx'
      · rw [linkEffects_append, Link.acceptedOf_append, hsilent t hother, silent]
        rfl
    | steps le l l' before moves after =>
      have hclosed := (isLive_of_session before).symm.trans hdead'
      refine ⟨fun x' hx' => ?_, fun t hother => ?_⟩
      · rcases after with hl | hgone
        · obtain ⟨x, hx, hticket⟩ :=
            moves.running_of_dead hclosed ((exchange?_of_session hl).symm.trans hx')
          obtain ⟨x₀, hx₀, hticket₀⟩ := hrunning x ((exchange?_of_session before).trans hx)
          exact ⟨x₀, hx₀, hticket₀.trans hticket⟩
        · simp [exchange?_of_closed hgone] at hx'
      · -- A step writes for the exchange that runs, whose ticket is that of the one at the start.
        rw [linkEffects_append, Link.acceptedOf_append, hsilent t hother, List.nil_append]
        refine moves.acceptedOf_eq_nil fun x hx => ?_
        obtain ⟨x₀, hx₀, hticket₀⟩ := hrunning x ((exchange?_of_session before).trans hx)
        exact hticket₀ ▸ hother x₀ hx₀

end Client

end KvClient

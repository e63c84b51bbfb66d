import KvClient.Proofs.Link.Step

/-!
# What a step of a client can do

Each event has its guard and its outcome, as with a link.  A step moves a caller at the gate, or
takes the link one step further, or both.

* **A step does nothing that is not on the list**: `moves_of_step`.
* **What the link does is a step of the link**: `onLink_eq_some`.
-/

namespace KvClient

/-- The command that a caller wants to be sent, if it wants that. -/
def Job.command? : Job → Option Command
  | .exchange command _ => some command
  | _ => none

namespace Client

/-- What an event does to a client, for each event with its guard. -/
inductive Moves (c : Client) : Event → Client → List Effect → Prop
  | invalid (id : CallId) (request : Request) (err : Error) (refused : request.check = .error err)
      (absent : c.job? id = none) :
      Moves c (.issue id request) c [.finished id (.error err)]
  | arrived (id : CallId) (request : Request) (job : Job) (valid : request.check = .ok job)
      (absent : c.job? id = none) (stays : job ≠ .close) :
      Moves c (.issue id request)
        { c with gate := c.gate.arrive id, jobs := (id, job) :: c.jobs } []
  | arrivedToClose (id : CallId) (request : Request) (valid : request.check = .ok .close)
      (absent : c.job? id = none) :
      Moves c (.issue id request)
        { c.takeCloser.1 with
          gate := c.takeCloser.1.gate.arrive id
          jobs := (id, .close) :: c.takeCloser.1.jobs }
        c.takeCloser.2
  | resumed (id : CallId) (queue : List CallId) (granted : c.gate = .granted id queue) :
      Moves c (.resume id) { c with gate := .held id queue } []
  | began (id : CallId) (command : Command) (yield : Yield) (l l' : Link)
      (effects : List Link.Effect) (holds : c.gate.holder? = some id)
      (wants : c.job? id = some (.exchange command yield)) (session : c.session = .connected l)
      (moves : Link.Moves l (.begin command.encode) l' effects)
      (running : returned? effects = none) :
      Moves c (.act id) { c with session := .connected l' } (effects.map .link)
  | progressed (e : Link.Event) (l l' : Link) (effects : List Link.Effect)
      (outside : isOutside e = true) (session : c.session = .connected l)
      (moves : Link.Moves l e l' effects) (running : returned? effects = none) :
      Moves c (.link e) { c with session := .connected l' } (effects.map .link)
  | completed (e : Event) (id : CallId) (command : Command) (yield : Yield) (s : Settlement)
      (le : Link.Event) (l l' : Link) (effects : List Link.Effect)
      (holds : c.gate.holder? = some id) (wants : c.job? id = some (.exchange command yield))
      (cause : e = .link le ∧ isOutside le = true ∨ e = .act id ∧ le = .begin command.encode)
      (session : c.session = .connected l) (moves : Link.Moves l le l' effects)
      (returned : returned? effects = some s) :
      Moves c e ((c.letGo l').finish id (yield.result s)).1
        (effects.map .link ++ [.finished id (yield.result s)])
  | shutdownBegun (id : CallId) (l l' : Link) (effects : List Link.Effect)
      (holds : c.gate.holder? = some id) (wants : c.job? id = some .close)
      (session : c.session = .connected l) (moves : Link.Moves l .beginShutdown l' effects) :
      Moves c (.act id) { c with session := .connected l' } (effects.map .link)
  | answered (e : Event) (id : CallId) (job : Job) (result : Except Error Reply)
      (holds : c.gate.holder? = some id) (wants : c.job? id = some job)
      (linkless : job.command?.isSome = true → c.link? = none)
      (cause : e = .act id ∨ ∃ err, e = .dialed id (.error err)) :
      Moves c e (c.finish id result).1 [.finished id result]
  | closed (id : CallId) (holds : c.gate.holder? = some id) (wants : c.job? id = some .close)
      (linkless : c.link? = none) :
      Moves c (.act id) (({ c with session := .closed } : Client).finish id (.ok .done)).1
        [.finished id (.ok .done)]
  | shutDown (id : CallId) (l l' : Link) (effects : List Link.Effect)
      (holds : c.gate.holder? = some id) (wants : c.job? id = some .close)
      (session : c.session = .connected l) (moves : Link.Moves l .finishShutdown l' effects) :
      Moves c (.finishShutdown id)
        (({ c with session := .closed } : Client).finish id (.ok .done)).1
        (effects.map .link ++ [.finished id (.ok .done)])
  | dialed (id : CallId) (credentials? : Option Credentials) (holds : c.gate.holder? = some id)
      (wants : c.job? id = some (.connect credentials?)) (dead : c.isLive = false) :
      Moves c (.dialed id (.ok ()))
        (({ c with
            session := .connected (.new (linkOptions c.config))
            hasCloser := true } : Client).finish id (.ok .done)).1
        [.finished id (.ok .done)]
  | cancelled (id : CallId) (job : Job) (wants : c.job? id = some job) :
      Moves c (.cancel id)
        { (c.abandonExchange id).1 with
          gate := (c.abandonExchange id).1.gate.cancel id
          jobs := (c.abandonExchange id).1.jobs.filter (·.1 != id) }
        ((c.abandonExchange id).2 ++ [.cancelled id])

variable {c c' : Client} {e : Event} {effects : List Effect}

/-- What the client makes of an event of its link. -/
theorem onLink_eq_some {le : Link.Event} (h : c.onLink le = some (c', effects)) :
    ∃ l l' linkEffects, c.session = .connected l ∧ Link.Moves l le l' linkEffects ∧
      (returned? linkEffects = none ∧ c' = { c with session := .connected l' } ∧
          effects = linkEffects.map .link ∨
        ∃ s id command yield, returned? linkEffects = some s ∧ c.gate.holder? = some id ∧
          c.job? id = some (.exchange command yield) ∧
          c' = ((c.letGo l').finish id (yield.result s)).1 ∧
          effects = linkEffects.map .link ++ [.finished id (yield.result s)]) := by
  unfold onLink at h
  split at h
  · next l hsession =>
    cases hstep : l.step le with
    | none => simp [hstep] at h
    | some p =>
      obtain ⟨l', linkEffects⟩ := p
      have hm := Link.moves_of_step hstep
      simp only [hstep] at h
      cases hreturned : returned? linkEffects with
      | none =>
        obtain ⟨rfl, rfl⟩ := by simpa [hreturned] using h
        exact ⟨l, l', linkEffects, hsession, hm, .inl ⟨hreturned, rfl, rfl⟩⟩
      | some s =>
        refine ⟨l, l', linkEffects, hsession, hm, .inr ?_⟩
        simp only [hreturned, complete] at h
        cases hholds : c.gate.holder? with
        | none => simp [hholds] at h
        | some id =>
          cases hwants : c.job? id with
          | none => simp [hholds, hwants] at h
          | some job =>
            cases job with
            | exchange command yield =>
              simp only [hholds, hwants, Option.some.injEq, Prod.mk.injEq] at h
              exact ⟨s, id, command, yield, hreturned, rfl, hwants, h.1.symm, h.2.symm⟩
            | _ => simp [hholds, hwants] at h
  · simp at h

theorem link?_eq_none (h : ∀ l, c.session ≠ .connected l) : c.link? = none := by
  unfold link?
  split
  · next l hl => exact absurd hl (h l)
  · rfl

/-- Without a link there is nothing but an error for a call that wants an exchange. -/
theorem act_of_linkless {id : CallId} {command : Command} {yield : Yield}
    (hholds : c.gate.holder? = some id) (hwants : c.job? id = some (.exchange command yield))
    (hlinkless : c.link? = none) : c.act id = some (c.finish id (.error .connectionClosed)) := by
  rw [act, if_pos hholds]
  cases hsession : c.session with
  | connected l => simp [link?, hsession] at hlinkless
  | _ => simp only [hwants]

theorem moves_of_act {id : CallId} (h : c.act id = some (c', effects)) :
    Moves c (.act id) c' effects := by
  unfold act at h
  by_cases hholds : c.gate.holder? = some id
  · rw [if_pos hholds] at h
    split at h
    · next command yield l hwants hsession =>
      obtain ⟨l₁, l', linkEffects, hl, hm, hwhat⟩ := onLink_eq_some h
      rcases hwhat with ⟨hrunning, rfl, rfl⟩ | ⟨s, id', command', yield', hreturned, hholds',
        hwants', rfl, rfl⟩
      · exact .began id command yield l₁ l' linkEffects hholds hwants hl hm hrunning
      · obtain rfl : id = id' := by simpa [hholds] using hholds'
        obtain ⟨rfl, rfl⟩ : command = command' ∧ yield = yield' := by simpa [hwants] using hwants'
        exact .completed _ id command yield s _ l₁ l' linkEffects hholds hwants (.inr ⟨rfl, rfl⟩)
          hl hm hreturned
    · next command yield hwants hlinkless =>
      obtain ⟨rfl, rfl⟩ := by simpa using h
      refine .answered _ id _ _ hholds hwants (fun _ => ?_) (.inl rfl)
      exact link?_eq_none fun l hl => hlinkless l hl
    · next hwants =>
      obtain ⟨rfl, rfl⟩ := by simpa using h
      exact .answered _ id _ _ hholds hwants (fun hx => by simp [Job.command?] at hx) (.inl rfl)
    · next l hwants hsession =>
      obtain ⟨l₁, l', linkEffects, hl, hm, hwhat⟩ := onLink_eq_some h
      rcases hwhat with ⟨-, rfl, rfl⟩ | ⟨s, id', command', yield', -, hholds', hwants', -⟩
      · exact .shutdownBegun id l₁ l' linkEffects hholds hwants hl hm
      · obtain rfl : id = id' := by simpa [hholds] using hholds'
        simp [hwants] at hwants'
    · next hwants hlinkless =>
      obtain ⟨rfl, rfl⟩ := by simpa using h
      exact .closed id hholds hwants (link?_eq_none fun l hl => hlinkless l hl)
    · next credentials? hwants =>
      by_cases hlive : c.isLive = true
      · rw [if_pos hlive] at h
        obtain ⟨rfl, rfl⟩ := by simpa using h
        exact .answered _ id _ _ hholds hwants (fun hx => by simp [Job.command?] at hx) (.inl rfl)
      · rw [if_neg hlive] at h
        simp at h
    · simp at h
  · rw [if_neg hholds] at h
    simp at h

theorem moves_of_issue {id : CallId} {request : Request} (habsent : c.job? id = none)
    (h : c.issue id request = (c', effects)) : Moves c (.issue id request) c' effects := by
  unfold issue at h
  cases hcheck : request.check with
  | error err =>
    obtain ⟨rfl, rfl⟩ := by simpa [hcheck] using h
    exact .invalid id request err hcheck habsent
  | ok job =>
    simp only [hcheck] at h
    cases job with
    | close =>
      obtain ⟨rfl, rfl⟩ := by simpa using h
      exact .arrivedToClose id request hcheck habsent
    | _ =>
      obtain ⟨rfl, rfl⟩ := by simpa using h
      exact .arrived id request _ hcheck habsent (by simp)

theorem moves_of_finishShutdown {id : CallId} (h : c.finishShutdown id = some (c', effects)) :
    Moves c (.finishShutdown id) c' effects := by
  unfold finishShutdown at h
  by_cases hholds : c.gate.holder? = some id
  · rw [if_pos hholds] at h
    split at h
    · next l hwants hsession =>
      cases hstep : l.step .finishShutdown with
      | none => simp [hstep] at h
      | some p =>
        obtain ⟨l', linkEffects⟩ := p
        have hm := Link.moves_of_step hstep
        simp only [hstep, Option.some.injEq, Prod.mk.injEq] at h
        obtain ⟨rfl, rfl⟩ := h
        exact .shutDown id l l' linkEffects hholds hwants hsession hm
    · simp at h
  · rw [if_neg hholds] at h
    simp at h

theorem moves_of_dialed {id : CallId} {outcome : Except Error Unit}
    (h : c.dialed id outcome = some (c', effects)) : Moves c (.dialed id outcome) c' effects := by
  unfold dialed at h
  by_cases hguard : c.gate.holder? = some id ∧ (!c.isLive) = true
  · rw [if_pos hguard] at h
    obtain ⟨hholds, hdead⟩ := hguard
    split at h
    · next credentials? err hwants =>
      obtain ⟨rfl, rfl⟩ := by simpa using h
      exact .answered _ id _ _ hholds hwants (fun hx => by simp [Job.command?] at hx)
        (.inr ⟨err, rfl⟩)
    · next credentials? hwants =>
      simp only [Option.some.injEq] at h
      have hm := Moves.dialed id credentials? hholds hwants (by simpa using hdead)
      rw [← show _ = c' from congrArg Prod.fst h, ← show _ = effects from congrArg Prod.snd h]
      exact hm
    · simp at h
  · rw [if_neg hguard] at h
    simp at h

/-- **A step does nothing that is not on the list.** -/
theorem moves_of_step (h : c.step e = some (c', effects)) : Moves c e c' effects := by
  cases e with
  | issue id request =>
    cases habsent : c.job? id with
    | some job => simp [step, habsent] at h
    | none => exact moves_of_issue habsent (by simpa [step, habsent] using h)
  | resume id =>
    cases hgate : c.gate with
    | granted next queue =>
      by_cases hnext : next = id
      · subst hnext
        have hm := Moves.resumed next queue hgate
        simp only [step, hgate, if_true, Gate.resume, Option.some.injEq, Prod.mk.injEq] at h
        obtain ⟨rfl, rfl⟩ := h
        exact hm
      · simp [step, hgate, hnext] at h
    | _ => simp [step, hgate] at h
  | act id => exact moves_of_act h
  | link le =>
    by_cases houtside : isOutside le = true
    · rw [step, if_pos houtside] at h
      obtain ⟨l, l', linkEffects, hl, hm, hwhat⟩ := onLink_eq_some h
      rcases hwhat with ⟨hrunning, rfl, rfl⟩ | ⟨s, id, command, yield, hreturned, hholds, hwants,
        rfl, rfl⟩
      · exact .progressed le l l' linkEffects houtside hl hm hrunning
      · exact .completed _ id command yield s le l l' linkEffects hholds hwants
          (.inl ⟨rfl, houtside⟩) hl hm hreturned
    · rw [step, if_neg houtside] at h
      simp at h
  | finishShutdown id => exact moves_of_finishShutdown h
  | dialed id outcome => exact moves_of_dialed h
  | cancel id =>
    cases hwants : c.job? id with
    | none => simp [step, cancel, hwants] at h
    | some job =>
      have hm := Moves.cancelled id job hwants
      simp only [step, cancel, hwants, Option.some.injEq, Prod.mk.injEq] at h
      obtain ⟨rfl, rfl⟩ := h
      exact hm

end Client

end KvClient

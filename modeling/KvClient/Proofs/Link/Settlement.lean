import KvClient.Proofs.Link.Step

/-!
# Every request is settled once

A request that begins puts its ticket into the slot of the link.  Several parties may take it out
again, in any order: the reader, when it hands out a response or gives the stream up, whoever closes
the link, and the request itself, when it fails or is abandoned.  Whoever takes the ticket settles
it, and no ticket is lost in between.

## How it works

* **A step leaves the slot alone, registers a ticket, or takes one and settles it**: `AtSlot`,
  `Moves.atSlot`.
* **Every ticket is in the slot, or was settled once**: `Accounted`, which every step keeps
  (`Accounted.step`).
* **A reader that has ended leaves a closed link**: `Moves.dead_of_ended`, `dead_of_reader`.
* **A reader that has nothing more to read gives the stream up, and stops**: `Loses.givesUp`,
  `Moves.givesUp`, `GivesUp.exists_deliveries`.
* **In every run**: `slot_laws_of_run`.
-/

namespace KvClient

namespace ReaderPhase

variable (a : Accumulator)

theorem handOut_ne_ended (responses : List Response) : handOut a responses ≠ .ended := by
  cases responses with
  | cons => simp [handOut]
  | nil =>
    rw [handOut]
    split <;> simp

theorem afterChunk_ne_ended (chunk : Bytes) : afterChunk a chunk ≠ .ended := by
  rw [afterChunk]
  split
  · exact handOut_ne_ended _ _
  · simp

theorem afterEnd_ne_ended : afterEnd a ≠ .ended := by
  rw [afterEnd]
  split <;> simp

end ReaderPhase

namespace Link

/-! ## Reading a run -/

/-- What an effect settles a ticket with. -/
def Effect.settlementOf (t : Ticket) : Effect → List Settlement
  | .settled u s => if u = t then [s] else []
  | _ => []

/-- All that a ticket was settled with, in this order. -/
def settlements (t : Ticket) (effects : List Effect) : List Settlement :=
  effects.flatMap (Effect.settlementOf t)

/-- The ticket that an effect registers. -/
def Effect.registration? : Effect → Option Ticket
  | .registered t => some t
  | _ => none

/-- All tickets that were registered, in this order. -/
def registered (effects : List Effect) : List Ticket := effects.filterMap Effect.registration?

@[simp] theorem settlements_append (t : Ticket) (a b : List Effect) :
    settlements t (a ++ b) = settlements t a ++ settlements t b :=
  List.flatMap_append

@[simp] theorem registered_append (a b : List Effect) :
    registered (a ++ b) = registered a ++ registered b :=
  List.filterMap_append

theorem mem_settlements {t : Ticket} {s : Settlement} {effects : List Effect} :
    s ∈ settlements t effects ↔ .settled t s ∈ effects := by
  rw [settlements, List.mem_flatMap]
  constructor
  · rintro ⟨effect, he, hs⟩
    cases effect with
    | settled u s' =>
      by_cases hu : u = t
      · obtain rfl : s = s' := by simpa [Effect.settlementOf, hu] using hs
        exact hu ▸ he
      · simp [Effect.settlementOf, hu] at hs
    | _ => simp [Effect.settlementOf] at hs
  · intro h
    exact ⟨_, h, by simp [Effect.settlementOf]⟩

variable {l l' : Link} {e : Event} {es : List Event} {effects more : List Effect}

/-- Closing settles the ticket in the slot, and no other one. -/
theorem settlements_closeWith (l : Link) (cause : Error) (t : Ticket) :
    settlements t (l.closeWith cause).2 = if l.slot? = some t then [.error cause] else [] := by
  rw [effects_closeWith]
  cases l.slot? with
  | none => rfl
  | some u => simp [settlements, Effect.settlementOf]

@[simp] theorem registered_closeWith (l : Link) (cause : Error) :
    registered (l.closeWith cause).2 = [] := by
  rw [effects_closeWith]
  cases l.slot? <;> rfl

/-! ## What a step does at the slot -/

/-- Who takes a ticket, and what the ticket is settled with: the reader with the response that it
hands out, or someone who closes the link with an error. -/
def TakenBy (l : Link) (e : Event) (l' : Link) (s : Settlement) : Prop :=
  (e = .deliver ∧ ∃ a r rest, l.reader = .delivering a r rest ∧ s = .ok r) ∨
    (l'.connected = false ∧ ∃ cause, s = .error cause)

/-- What an event does at the slot of a link, and what the exchange hears of it. -/
inductive AtSlot (l : Link) (e : Event) (l' : Link) (more : List Effect) : Prop
  | stays (slot : l'.slot? = l.slot?) (tickets : l'.nextTicket = l.nextTicket)
      (nobody : registered more = []) (silent : ∀ t, settlements t more = [])
      (hears : ∀ x', l'.exchange? = some x' → ∃ x, l.exchange? = some x ∧
        x'.ticket = x.ticket ∧ x'.settlement? = x.settlement?)
  | registers (frame : Bytes) (idle : l.exchange? = none) (slot : l'.slot? = some l.nextTicket)
      (tickets : l'.nextTicket = l.nextTicket + 1) (registration : more = [.registered l.nextTicket])
      (hears : l'.exchange? = some ⟨l.nextTicket, frame, 0, false, none⟩)
  | takes (t : Ticket) (s : Settlement) (before : l.slot? = some t) (after : l'.slot? = none)
      (tickets : l'.nextTicket = l.nextTicket) (nobody : registered more = [])
      (settles : ∀ u, settlements u more = if t = u then [s] else [])
      (hears : ∀ x', l'.exchange? = some x' → ∃ x, l.exchange? = some x ∧ x' = x.told (some t) s)
      (taken : TakenBy l e l' s)

/-- Closing takes the ticket if there is one. -/
theorem AtSlot.of_closing (cause : Error) (hslot : l'.slot? = none) (hdead : l'.connected = false)
    (hn : l'.nextTicket = l.nextTicket) (hnobody : registered more = [])
    (hsettles : ∀ t, settlements t more = settlements t (l.closeWith cause).2)
    (hhears : ∀ x', l'.exchange? = some x' → ∃ x, l.exchange? = some x ∧
      x' = x.told l.slot? (.error cause)) : AtSlot l e l' more := by
  cases hs : l.slot? with
  | none =>
    refine .stays (hslot.trans hs.symm) hn hnobody (fun t => ?_) (fun x' hx' => ?_)
    · rw [hsettles, settlements_closeWith, hs]
      rfl
    · obtain ⟨x, hx, rfl⟩ := hhears x' hx'
      exact ⟨x, hx, by simp, by rw [hs, Exchange.told_none]⟩
  | some t =>
    refine .takes t (.error cause) hs hslot hn hnobody (fun u => ?_) (fun x' hx' => ?_) ?_
    · rw [hsettles, settlements_closeWith, hs]
      simp
    · rw [← hs]
      exact hhears x' hx'
    · exact .inr ⟨hdead, cause, rfl⟩

/-- An exchange that fails or is abandoned takes its ticket with it if that is still in the slot. -/
theorem AtSlot.of_failing (cause : Error) {last : Effect} (hl' : l' = l.shut cause)
    (hnobody : last.registration? = none) (hsilent : ∀ t, last.settlementOf t = []) :
    AtSlot l e l' ((l.closeWith cause).2 ++ [last]) := by
  subst hl'
  refine .of_closing cause (slot?_closeWith l _) (connected_closeWith l _)
    (nextTicket_closeWith l _) ?_ (fun t => ?_) fun x' hx' => by simp [shut] at hx'
  · rw [registered_append, registered_closeWith]
    simp [registered, hnobody]
  · rw [settlements_append]
    simp [settlements, hsilent]

/-- **A step leaves the slot alone, registers a ticket, or takes one and settles it.** -/
theorem Moves.atSlot (hm : Moves l e l' more) : AtSlot l e l' more := by
  cases hm with
  | registered frame idle => exact .registers frame idle rfl rfl rfl rfl
  | wrote x count running | flushed x running =>
    refine .stays rfl rfl rfl (fun t => rfl) fun x' hx' => ⟨x, running, ?_⟩
    obtain rfl : _ = x' := by simpa using hx'
    exact ⟨rfl, rfl⟩
  | collected =>
    exact .stays rfl rfl rfl (fun t => rfl) fun x' hx' => by simp at hx'
  | writeFailed x | expired x | abandoned x =>
    exact .of_failing _ rfl rfl (fun _ => rfl)
  | settled a r rest t delivering waiting =>
    refine .takes t (.ok r) waiting rfl rfl rfl (fun u => ?_) (fun x' hx' => ?_) ?_
    · simp [settlements, Effect.settlementOf]
    · obtain ⟨x, hx, rfl⟩ := Option.map_eq_some_iff.mp hx'
      exact ⟨x, hx, rfl⟩
    · exact .inl ⟨rfl, a, r, rest, delivering, rfl⟩
  | stopped cause | closed | shutdownBegun =>
    refine .of_closing _ (slot?_closeWith l _) (connected_closeWith l _) (nextTicket_closeWith l _)
      (registered_closeWith l _) (fun t => rfl) fun x' hx' => ?_
    obtain ⟨x, hx, rfl⟩ := Option.map_eq_some_iff.mp ((exchange?_closeWith l _).symm.trans hx')
    exact ⟨x, hx, rfl⟩
  | refused | received | streamEnded | readFailed | dropped | shutdownFinished =>
    exact .stays rfl rfl rfl (fun t => rfl) fun x' hx' => ⟨x', hx', rfl, rfl⟩

/-! ## Every ticket is accounted for -/

/-- Tickets are numbered as they are registered.  The one in the slot was not settled, every earlier
one was settled once, and the exchange has heard of what its own ticket was settled with. -/
structure Accounted (l : Link) (effects : List Effect) : Prop where
  numbered : registered effects = List.range l.nextTicket
  waiting : ∀ t, l.slot? = some t → t < l.nextTicket ∧ settlements t effects = []
  settled : ∀ t, t < l.nextTicket → l.slot? ≠ some t → ∃ s, settlements t effects = [s]
  ahead : ∀ t, l.nextTicket ≤ t → settlements t effects = []
  heard : ∀ x, l.exchange? = some x → x.ticket < l.nextTicket ∧
    settlements x.ticket effects = x.settlement?.toList

theorem accounted_new (options : LinkOptions) : Accounted (new options) [] where
  numbered := rfl
  waiting := by intro t ht; simp [new] at ht
  settled := by intro t ht; simp [new] at ht
  ahead := fun _ _ => rfl
  heard := by intro x hx; simp [new] at hx

/-- A ticket that is registered is a new one, and waits in the slot. -/
theorem Accounted.registers (h : Accounted l effects) (frame : Bytes)
    (hslot : l'.slot? = some l.nextTicket) (hfree : l.slot? = none)
    (hn : l'.nextTicket = l.nextTicket + 1)
    (hx : l'.exchange? = some ⟨l.nextTicket, frame, 0, false, none⟩) :
    Accounted l' (effects ++ [.registered l.nextTicket]) := by
  have hnothing : ∀ t, settlements t (effects ++ [.registered l.nextTicket]) =
      settlements t effects := by
    intro t
    rw [settlements_append]
    exact List.append_nil _
  constructor
  · rw [registered_append, h.numbered, hn, List.range_succ]
    rfl
  · intro t ht
    obtain rfl : l.nextTicket = t := by simpa [hslot] using ht
    rw [hnothing]
    exact ⟨hn ▸ Nat.lt_succ_self _, h.ahead _ (Nat.le_refl _)⟩
  · intro t ht hne
    rw [hn] at ht
    rw [hslot, Ne, Option.some.injEq] at hne
    rw [hnothing]
    have hle : t ≤ l.nextTicket := Nat.le_of_lt_succ ht
    exact h.settled t (Nat.lt_of_le_of_ne hle (Ne.symm hne)) (by simp [hfree])
  · intro t ht
    rw [hn] at ht
    rw [hnothing]
    exact h.ahead t (Nat.le_of_succ_le ht)
  · intro x hx'
    obtain rfl : _ = x := by simpa [hx] using hx'
    rw [hnothing]
    exact ⟨hn ▸ Nat.lt_succ_self _, h.ahead _ (Nat.le_refl _)⟩

/-- A ticket that is taken out of the slot is settled for the first time. -/
theorem Accounted.takes (h : Accounted l effects) {t : Ticket} {s : Settlement}
    (hbefore : l.slot? = some t) (hafter : l'.slot? = none) (hn : l'.nextTicket = l.nextTicket)
    (hnobody : registered more = [])
    (hsettles : ∀ u, settlements u more = if t = u then [s] else [])
    (hhears : ∀ x', l'.exchange? = some x' → ∃ x, l.exchange? = some x ∧
      x' = x.told (some t) s) : Accounted l' (effects ++ more) := by
  obtain ⟨hlt, hfirst⟩ := h.waiting t hbefore
  have hown : settlements t (effects ++ more) = [s] := by
    rw [settlements_append, hfirst, hsettles, if_pos rfl]
    rfl
  have hother : ∀ u, t ≠ u → settlements u (effects ++ more) = settlements u effects := by
    intro u hne
    rw [settlements_append, hsettles, if_neg hne, List.append_nil]
  constructor
  · rw [registered_append, h.numbered, hnobody, List.append_nil, hn]
  · intro u hu
    simp [hafter] at hu
  · intro u hu _
    by_cases hut : t = u
    · exact ⟨s, hut ▸ hown⟩
    · rw [hother u hut]
      exact h.settled u (hn ▸ hu) (by simpa [hbefore] using hut)
  · intro u hu
    rw [hn] at hu
    rw [hother u (Nat.ne_of_lt (Nat.lt_of_lt_of_le hlt hu))]
    exact h.ahead u hu
  · intro x' hx'
    obtain ⟨x, hx, rfl⟩ := hhears x' hx'
    obtain ⟨hxlt, hheard⟩ := h.heard x hx
    rw [Exchange.ticket_told, hn]
    refine ⟨hxlt, ?_⟩
    by_cases hxt : t = x.ticket
    · subst hxt
      rw [hown, Exchange.settlement?_told_self]
      rfl
    · rw [hother _ hxt, hheard, Exchange.told, if_neg (by simpa using hxt)]

/-- **A step keeps the account.** -/
theorem Accounted.step (h : Accounted l effects) (hturn : Turn l) (hm : Moves l e l' more) :
    Accounted l' (effects ++ more) := by
  cases hm.atSlot with
  | stays slot tickets nobody silent hears =>
    have hnothing : ∀ t, settlements t (effects ++ more) = settlements t effects := by
      intro t
      rw [settlements_append, silent, List.append_nil]
    constructor
    · rw [registered_append, nobody, List.append_nil, tickets]
      exact h.numbered
    · intro t ht
      rw [hnothing, tickets]
      exact h.waiting t (slot ▸ ht)
    · intro t ht hne
      rw [hnothing]
      exact h.settled t (tickets ▸ ht) (slot ▸ hne)
    · intro t ht
      rw [hnothing]
      exact h.ahead t (tickets ▸ ht)
    · intro x' hx'
      obtain ⟨x, hx, hticket, hsettlement⟩ := hears x' hx'
      rw [hticket, hsettlement, hnothing, tickets]
      exact h.heard x hx
  | registers frame idle slot tickets registration hears =>
    rw [registration]
    exact h.registers frame slot (hturn.slot?_eq_none idle) tickets hears
  | takes t s before after tickets nobody settles hears =>
    exact h.takes before after tickets nobody settles hears

theorem accounted_of_run {options : LinkOptions} (hrun : Run step (new options) es l effects) :
    Turn l ∧ Accounted l effects := by
  induction hrun with
  | nil => exact ⟨turn_new options, accounted_new options⟩
  | snoc hrun hstep ih =>
    obtain ⟨hturn, haccounted⟩ := ih
    have hm := moves_of_step hstep
    exact ⟨hturn.step hm, haccounted.step hturn hm⟩

/-! ## The end of the reader -/

/-- A reader ends by closing the link. -/
theorem Moves.dead_of_ended (hm : Moves l e l' more)
    (h : l.reader = .ended → l.connected = false) : l'.reader = .ended → l'.connected = false := by
  cases hm with
  | received a chunk => exact fun he => absurd he (ReaderPhase.afterChunk_ne_ended a chunk)
  | streamEnded a => exact fun he => absurd he (ReaderPhase.afterEnd_ne_ended a)
  | readFailed => exact fun he => by simp at he
  | settled a r rest | dropped a r rest =>
    exact fun he => absurd he (ReaderPhase.handOut_ne_ended a rest)
  | writeFailed | expired | abandoned | stopped | closed | shutdownBegun =>
    exact fun _ => connected_closeWith l _
  | _ => exact h

/-- A reader is told to stop by someone who closes the link, or has begun to shut it down. -/
theorem Moves.dead_of_aborted (hm : Moves l e l' more)
    (h : l.readerAborted = true → l.connected = false)
    (hbegun : e = .finishShutdown → l.connected = false) :
    l'.readerAborted = true → l'.connected = false := by
  cases hm with
  | shutdownFinished => exact fun _ => hbegun rfl
  | writeFailed | expired | abandoned | stopped | closed | shutdownBegun =>
    exact fun _ => connected_closeWith l _
  | _ => exact h

/-- A shutdown comes to its end only after it has begun. -/
def ShutsInOrder (es : List Event) : Prop :=
  ∀ before after, es = before ++ .finishShutdown :: after → .beginShutdown ∈ before

theorem ShutsInOrder.of_append {es' : List Event} (h : ShutsInOrder (es ++ es')) :
    ShutsInOrder es := by
  rintro before after rfl
  exact h before (after ++ es') (by simp)

/-- Once a shutdown has begun, the link is closed. -/
theorem dead_of_shutdown {l₀ : Link} (hrun : Run step l₀ es l effects)
    (hbegun : .beginShutdown ∈ es) : l.connected = false := by
  induction hrun with
  | nil => simp at hbegun
  | snoc hrun hstep ih =>
    have hm := moves_of_step hstep
    rcases List.mem_append.mp hbegun with hbefore | hnow
    · exact hm.connected_eq_false (ih hbefore)
    · obtain rfl := List.mem_singleton.mp hnow
      cases hm with
      | shutdownBegun => exact connected_closeWith _ _

theorem dead_of_reader {options : LinkOptions} (hrun : Run step (new options) es l effects) :
    (l.reader = .ended → l.connected = false) ∧
      (ShutsInOrder es → l.readerAborted = true → l.connected = false) := by
  induction hrun with
  | nil => exact ⟨fun he => by simp [new] at he, fun _ ha => by simp [new] at ha⟩
  | @snoc es l₁ effects₁ e l₂ more hrun hstep ih =>
    obtain ⟨hended, haborted⟩ := ih
    have hm := moves_of_step hstep
    refine ⟨hm.dead_of_ended hended, fun horder => ?_⟩
    refine hm.dead_of_aborted (haborted horder.of_append) ?_
    rintro rfl
    exact dead_of_shutdown hrun (horder es [] rfl)

/-! ## A stream that is given up -/

/-- An event behind which there is nothing more to read, and what the reader closes the link for: the
stream ends or breaks, or a chunk has a segment in it that is no response. -/
inductive Loses (a : Accumulator) : Event → Error → Prop
  | ended (whole : a.finish = .ok ()) : Loses a .endOfStream .connectionClosed
  | cut {m : Malformation} (part : a.finish = .error m) : Loses a .endOfStream (.malformed m)
  | broken : Loses a .readFault .connectionClosed
  | bad {chunk : Bytes} {responses : List Response} {m : Malformation} (nonempty : chunk ≠ [])
      (completes : (a.feed chunk).1 = .ok responses) (fails : (a.feed chunk).2.failure? = some m) :
      Loses a (.receive chunk) (.malformed m)
  | rejected {chunk : Bytes} {m : Malformation} (nonempty : chunk ≠ [])
      (rejects : (a.feed chunk).1 = .error m) : Loses a (.receive chunk) (.malformed m)

/-- A reader that reads no more: it is about to close the link, or first hands out what came before a
bad segment. -/
inductive GivesUp : ReaderPhase → Error → Prop
  | stopping (cause : Error) : GivesUp (.stopping cause) cause
  | delivering {a : Accumulator} {m : Malformation} (failed : a.failure? = some m) (next : Response)
      (rest : List Response) : GivesUp (.delivering a next rest) (.malformed m)

theorem givesUp_handOut {a : Accumulator} {m : Malformation} (h : a.failure? = some m)
    (responses : List Response) : GivesUp (.handOut a responses) (.malformed m) := by
  cases responses with
  | nil =>
    rw [ReaderPhase.handOut, h]
    exact .stopping _
  | cons next rest => exact .delivering h next rest

/-- **A reader that has nothing more to read gives the stream up.** -/
theorem Loses.givesUp {a : Accumulator} {cause : Error} (h : Loses a e cause)
    (hlistening : l.listening? = some a) :
    ∃ l', l.step e = some (l', []) ∧ GivesUp l'.reader cause := by
  cases h with
  | ended whole =>
    refine ⟨_, (Moves.streamEnded a hlistening).step_eq, ?_⟩
    rw [ReaderPhase.afterEnd, whole]
    exact .stopping _
  | cut part =>
    refine ⟨_, (Moves.streamEnded a hlistening).step_eq, ?_⟩
    rw [ReaderPhase.afterEnd, part]
    exact .stopping _
  | broken => exact ⟨_, (Moves.readFailed a hlistening).step_eq, .stopping _⟩
  | @bad chunk responses m nonempty completes fails =>
    refine ⟨_, (Moves.received a chunk hlistening nonempty).step_eq, ?_⟩
    rw [ReaderPhase.afterChunk_of_ok completes]
    exact givesUp_handOut fails responses
  | @rejected chunk m nonempty rejects =>
    refine ⟨_, (Moves.received a chunk hlistening nonempty).step_eq, ?_⟩
    rw [ReaderPhase.afterChunk_of_error rejects]
    exact .stopping _

/-- **A reader that has given the stream up does not listen again**, and ends when it stops. -/
theorem Moves.givesUp (hm : Moves l e l' more) {cause : Error} (h : GivesUp l.reader cause) :
    GivesUp l'.reader cause ∨ e = .stop ∧ l.reader = .stopping cause ∧ l'.reader = .ended := by
  cases hm with
  | received a chunk listening | streamEnded a listening | readFailed a listening =>
    -- Only a reader that waits for bytes gets any.
    rw [listening?_eq_some listening] at h
    cases h
  | settled a r rest t delivering | dropped a r rest delivering =>
    rw [delivering] at h
    cases h with
    | delivering failed => exact .inl (givesUp_handOut failed rest)
  | stopped cause' stopping =>
    rw [stopping] at h
    cases h
    exact .inr ⟨rfl, stopping, rfl⟩
  | writeFailed | expired | abandoned | closed | shutdownBegun =>
    left
    simpa [shut] using h
  | _ => exact .inl h

theorem exists_deliver {a : Accumulator} {next : Response} {rest : List Response}
    (h : l.reader = .delivering a next rest) :
    ∃ l' more, l.step .deliver = some (l', more) ∧ l'.reader = .handOut a rest := by
  cases hslot : l.slot? with
  | none => exact ⟨_, _, (Moves.dropped a next rest h hslot).step_eq, rfl⟩
  | some t => exact ⟨_, _, (Moves.settled a next rest t h hslot).step_eq, rfl⟩

/-- A reader whose stream went bad hands out what came before, one response after the other. -/
theorem exists_deliveries_of_handOut {a : Accumulator} {m : Malformation}
    (hfailed : a.failure? = some m) {responses : List Response}
    (h : l.reader = .handOut a responses) :
    ∃ n l' more, l.run (List.replicate n .deliver) = some (l', more) ∧
      l'.reader = .stopping (.malformed m) := by
  induction responses generalizing l with
  | nil => exact ⟨0, l, [], rfl, by rw [h, ReaderPhase.handOut, hfailed]⟩
  | cons next rest ih =>
    obtain ⟨l₁, now, hstep, hreader⟩ := exists_deliver h
    obtain ⟨n, l', later, hrun, hstops⟩ := ih hreader
    refine ⟨n + 1, l', now ++ later, ?_, hstops⟩
    rw [List.replicate_succ, run, hstep]
    simp only [hrun]

theorem GivesUp.exists_deliveries {cause : Error} (h : GivesUp l.reader cause) :
    ∃ n l' more, l.run (List.replicate n .deliver) = some (l', more) ∧
      l'.reader = .stopping cause := by
  cases hreader : l.reader with
  | stopping cause' =>
    rw [hreader] at h
    cases h
    exact ⟨0, l, [], rfl, hreader⟩
  | delivering a next rest =>
    rw [hreader] at h
    cases h with
    | delivering failed =>
      have hhandOut : l.reader = .handOut a (next :: rest) := hreader
      exact exists_deliveries_of_handOut failed hhandOut
  | listening | ended =>
    rw [hreader] at h
    cases h

/-- **A reader that stops closes the link, and settles the ticket in the slot.** -/
theorem stops_of_stopping {cause : Error} (h : l.reader = .stopping cause) :
    ∃ l', l.step .stop = some (l', l.slot?.toList.map (.settled · (.error cause))) ∧
      l'.reader = .ended ∧ l'.connected = false ∧ l'.slot? = none := by
  have hstep := (Moves.stopped cause h).step_eq
  rw [effects_closeWith] at hstep
  exact ⟨_, hstep, rfl, connected_closeWith l cause, slot?_closeWith l cause⟩

/-! ## The result -/

/-- What holds at the end of a run of a link: of the ticket in its slot, of all that were registered
before, and of the next step. -/
structure SlotLaws (l : Link) (es : List Event) (effects : List Effect) : Prop where
  /-- A closed link keeps no ticket. -/
  closed : l.connected = false → l.slot? = none
  /-- A ticket in the slot is that of the exchange that is running, and was not settled. -/
  occupied : ∀ t, l.slot? = some t → settlements t effects = [] ∧
    ∃ x, l.exchange? = some x ∧ x.ticket = t ∧ x.settlement? = none
  /-- A request that begins on a connected link finds the slot free, and puts a new ticket there. -/
  free : ∀ frame l' more, l.step (.begin frame) = some (l', more) → l.connected = true →
    l.slot? = none ∧ ∃ t, l'.slot? = some t ∧ more = [.registered t] ∧ t ∉ registered effects
  /-- No ticket is registered twice, and none is settled that was not registered. -/
  distinct : (registered effects).Nodup ∧ ∀ t s, .settled t s ∈ effects → t ∈ registered effects
  /-- A ticket that was registered waits in the slot, or was settled once. -/
  once : ∀ t ∈ registered effects, (l.slot? = some t ∧ settlements t effects = []) ∨
    (l.slot? ≠ some t ∧ ∃ s, settlements t effects = [s])
  /-- Whoever settles a ticket takes it out of the slot. -/
  settled : ∀ e l' more, l.step e = some (l', more) → ∀ t s, .settled t s ∈ more →
    l.slot? = some t ∧ l'.slot? = none ∧ TakenBy l e l' s
  /-- Whoever takes a ticket out of the slot settles it. -/
  taken : ∀ e l' more, l.step e = some (l', more) → ∀ t, l.slot? = some t →
    l'.slot? = some t ∨ ∃ s, .settled t s ∈ more
  /-- Once the link is closed, no ticket that was registered is left unsettled. -/
  all : l.connected = false → ∀ t ∈ registered effects, ∃ s, settlements t effects = [s]
  /-- That is so once the reader has ended, or was told to. -/
  ended : l.reader = .ended → l.connected = false
  aborted : ShutsInOrder es → l.readerAborted = true → l.connected = false
  /-- A reader that gets the end of the stream, a read error or a bad segment gives the stream up. -/
  lost : ∀ a e cause, l.listening? = some a → Loses a e cause →
    ∃ l', l.step e = some (l', []) ∧ GivesUp l'.reader cause
  /-- Then it hands out what it has, until it is about to stop, and nothing makes it listen again. -/
  givenUp : ∀ cause, GivesUp l.reader cause →
    (∃ n l' more, l.run (List.replicate n .deliver) = some (l', more) ∧
      l'.reader = .stopping cause) ∧
    ∀ e l' more, l.step e = some (l', more) →
      GivesUp l'.reader cause ∨ e = .stop ∧ l.reader = .stopping cause ∧ l'.reader = .ended
  /-- When it stops, it closes the link and settles the ticket in the slot. -/
  stops : ∀ cause, l.reader = .stopping cause →
    ∃ l', l.step .stop = some (l', l.slot?.toList.map (.settled · (.error cause))) ∧
      l'.reader = .ended ∧ l'.connected = false ∧ l'.slot? = none
  /-- The exchange that is running can still be settled, or has heard what it was settled with. -/
  heard : ∀ x, l.exchange? = some x → (l.slot? = some x.ticket ∧ x.settlement? = none) ∨
    ∃ s, x.settlement? = some s ∧ settlements x.ticket effects = [s]

/-- A request that begins on a connected link registers the next ticket. -/
theorem Moves.registers {frame : Bytes} (hm : Moves l (.begin frame) l' more)
    (hc : l.connected = true) :
    l.exchange? = none ∧ l'.slot? = some l.nextTicket ∧ more = [.registered l.nextTicket] := by
  cases hm with
  | registered frame idle => exact ⟨idle, rfl, rfl⟩
  | refused frame idle dead => simp [hc] at dead

theorem AtSlot.taken_of_settled (h : AtSlot l e l' more) {t : Ticket} {s : Settlement}
    (hs : .settled t s ∈ more) : l.slot? = some t ∧ l'.slot? = none ∧ TakenBy l e l' s := by
  have hmem := mem_settlements.mpr hs
  cases h with
  | stays slot tickets nobody silent => simp [silent] at hmem
  | registers frame idle slot tickets registration => simp [registration] at hs
  | takes u s' before after tickets nobody settles hears taken =>
    rw [settles] at hmem
    by_cases hu : u = t
    · obtain rfl : s = s' := by simpa [hu] using hmem
      exact ⟨hu ▸ before, after, taken⟩
    · simp [hu] at hmem

theorem AtSlot.settled_of_taken (h : AtSlot l e l' more) {t : Ticket} (hslot : l.slot? = some t)
    (hfree : l.exchange? = none → l.slot? = none) :
    l'.slot? = some t ∨ ∃ s, .settled t s ∈ more := by
  cases h with
  | stays slot => exact .inl (slot.trans hslot)
  | registers frame idle => simp [hfree idle] at hslot
  | takes u s before after tickets nobody settles =>
    obtain rfl : u = t := by simpa [before] using hslot
    exact .inr ⟨s, mem_settlements.mp (by simp [settles])⟩

/-- **Every request is settled once**, by whoever takes its ticket first.  Whatever the order of
events on a link, at most one ticket is in its slot, that of the exchange that is running; a closed
link has none, and has settled all.  A reader that has nothing more to read closes the link. -/
theorem slot_laws_of_run {options : LinkOptions} (hrun : (new options).run es = some (l, effects)) :
    SlotLaws l es effects := by
  have hrun := run_eq_some_iff.mp hrun
  obtain ⟨hturn, haccounted⟩ := accounted_of_run hrun
  obtain ⟨hended, haborted⟩ := dead_of_reader hrun
  have hmem : ∀ t, t ∈ registered effects ↔ t < l.nextTicket := by
    intro t
    rw [haccounted.numbered]
    exact List.mem_range
  constructor
  · exact hturn.slot?_of_closed
  · intro t ht
    exact ⟨(haccounted.waiting t ht).2, hturn.exchange?_of_slot ht⟩
  · intro frame l' more hstep hc
    obtain ⟨hidle, hslot, hmore⟩ := (moves_of_step hstep).registers hc
    refine ⟨hturn.slot?_eq_none hidle, l.nextTicket, hslot, hmore, fun hregistered => ?_⟩
    exact Nat.lt_irrefl _ ((hmem _).mp hregistered)
  · refine ⟨haccounted.numbered ▸ List.nodup_range, fun t s hs => ?_⟩
    rw [hmem]
    refine Nat.lt_of_not_le fun hle => ?_
    have hs' := mem_settlements.mpr hs
    simp [haccounted.ahead t hle] at hs'
  · intro t ht
    by_cases hslot : l.slot? = some t
    · exact .inl ⟨hslot, (haccounted.waiting t hslot).2⟩
    · exact .inr ⟨hslot, haccounted.settled t ((hmem t).mp ht) hslot⟩
  · intro e l' more hstep t s hs
    exact (moves_of_step hstep).atSlot.taken_of_settled hs
  · intro e l' more hstep t hslot
    exact (moves_of_step hstep).atSlot.settled_of_taken hslot hturn.slot?_eq_none
  · intro hc t ht
    exact haccounted.settled t ((hmem t).mp ht) (by simp [hturn.slot?_of_closed hc])
  · exact hended
  · exact haborted
  · exact fun a e cause hlistening hloses => hloses.givesUp hlistening
  · exact fun cause hup => ⟨hup.exists_deliveries, fun e l' more hstep =>
      (moves_of_step hstep).givesUp hup⟩
  · exact fun cause hstopping => stops_of_stopping hstopping
  · intro x hx
    obtain ⟨-, hheard⟩ := haccounted.heard x hx
    cases hturn with
    | idle gone => simp [gone] at hx
    | waiting y running slot unsettled =>
      obtain rfl : y = x := by simpa [hx] using running.symm
      exact .inl ⟨slot, unsettled⟩
    | settled y s running free settlement =>
      obtain rfl : y = x := by simpa [hx] using running.symm
      rw [settlement] at hheard
      exact .inr ⟨s, settlement, hheard⟩

/-- Two responses arrive together, of which the second answers nobody; then the link is closed while
the next request is being written. -/
theorem slot_laws_of_run_closed :
    let es : List Event := [.begin [105, 4], .accept 2, .flush, .receive [79, 4, 78, 4], .deliver,
      .deliver, .collect, .begin [106, 4], .accept 1, .close]
    ∃ l effects, (new ⟨none, 100⟩).run es = some (l, effects) ∧ l.connected = false ∧
      settlements 0 effects = [.ok ⟨.ok, []⟩] ∧ settlements 1 effects = [.error .connectionClosed] ∧
      SlotLaws l es effects := by
  intro es
  have hrun : (new ⟨none, 100⟩).run es =
      some (⟨false, none, some ⟨1, [106, 4], 1, false, some (.error .connectionClosed)⟩,
          .listening (.new 100), true, none, 2⟩,
        [.registered 0, .wrote 0 [105, 4], .settled 0 (.ok ⟨.ok, []⟩), .dropped ⟨.serverError, []⟩,
          .returned 0 (.ok ⟨.ok, []⟩), .registered 1, .wrote 1 [106],
          .settled 1 (.error .connectionClosed)]) := by cbv
  exact ⟨_, _, hrun, rfl, rfl, rfl, slot_laws_of_run hrun⟩

end Link

end KvClient

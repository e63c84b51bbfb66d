import KvClient.Proofs.Run

/-!
# What a step of a link can do

Each event has its guard and its outcome.  They are listed once, so that a property of all steps is
shown by going through the list.

* **A step does nothing that is not on the list**: `moves_of_step`.
* **A closed link stays closed**: `Moves.connected_eq_false`.
* **A request waits, or is settled, or there is none**: `Turn`, which every step keeps
  (`Turn.step`).  While the link is connected, a request that is settled has its response.
-/

namespace KvClient

/-- The exchange once a ticket, if there is one, was settled. -/
def Exchange.told (x : Exchange) (ticket? : Option Ticket) (s : Settlement) : Exchange :=
  if ticket? = some x.ticket then { x with settlement? := some s } else x

namespace Exchange

variable (x : Exchange) (ticket? : Option Ticket) (s : Settlement)

@[simp] theorem ticket_told : (x.told ticket? s).ticket = x.ticket := by
  unfold told; split <;> rfl

@[simp] theorem frame_told : (x.told ticket? s).frame = x.frame := by
  unfold told; split <;> rfl

@[simp] theorem sent_told : (x.told ticket? s).sent = x.sent := by
  unfold told; split <;> rfl

@[simp] theorem flushed_told : (x.told ticket? s).flushed = x.flushed := by
  unfold told; split <;> rfl

@[simp] theorem told_none : x.told none s = x := rfl

@[simp] theorem settlement?_told_self : (x.told (some x.ticket) s).settlement? = some s := by
  simp [told]

end Exchange

namespace ReaderPhase

variable {a : Accumulator} {chunk : Bytes}

theorem afterChunk_of_ok {responses : List Response} (h : (a.feed chunk).1 = .ok responses) :
    afterChunk a chunk = .handOut (a.feed chunk).2 responses := by
  rw [afterChunk]
  cases hfeed : a.feed chunk with
  | mk verdict a' =>
    rw [hfeed] at h
    obtain rfl : verdict = .ok responses := h
    rfl

theorem afterChunk_of_error {m : Malformation} (h : (a.feed chunk).1 = .error m) :
    afterChunk a chunk = .stopping (.malformed m) := by
  rw [afterChunk]
  cases hfeed : a.feed chunk with
  | mk verdict a' =>
    rw [hfeed] at h
    obtain rfl : verdict = .error m := h
    rfl

end ReaderPhase

namespace Link

/-! ## Closing and settling -/

variable (l : Link) (cause : Error)

theorem exchange?_settle (t : Ticket) (s : Settlement) :
    (l.settle t s).exchange? = l.exchange?.map (·.told (some t) s) := by
  simp only [settle, Exchange.told, Option.some.injEq, eq_comm (a := t)]

theorem closeWith_eq :
    l.closeWith cause =
      ({ l with
          connected := false
          slot? := none
          exchange? := l.exchange?.map (·.told l.slot? (.error cause)) },
        l.slot?.toList.map (.settled · (.error cause))) := by
  rw [closeWith]
  cases hs : l.slot? with
  | none =>
    have hid : l.exchange?.map (·.told none (.error cause)) = l.exchange? := by
      cases l.exchange? <;> rfl
    rw [hid]
    cases l
    simp_all
  | some t =>
    rw [← exchange?_settle]
    rfl

@[simp] theorem connected_closeWith : (l.closeWith cause).1.connected = false := by
  rw [closeWith_eq]

@[simp] theorem slot?_closeWith : (l.closeWith cause).1.slot? = none := by rw [closeWith_eq]

@[simp] theorem reader_closeWith : (l.closeWith cause).1.reader = l.reader := by rw [closeWith_eq]

@[simp] theorem nextTicket_closeWith : (l.closeWith cause).1.nextTicket = l.nextTicket := by
  rw [closeWith_eq]

@[simp] theorem exchange?_closeWith :
    (l.closeWith cause).1.exchange? = l.exchange?.map (·.told l.slot? (.error cause)) := by
  rw [closeWith_eq]

/-- Closing does nothing but settle the ticket that is registered. -/
theorem effects_closeWith :
    (l.closeWith cause).2 = l.slot?.toList.map (.settled · (.error cause)) := by
  rw [closeWith_eq]

theorem eq_settled_of_mem_closeWith {effect : Effect} (h : effect ∈ (l.closeWith cause).2) :
    ∃ t, effect = .settled t (.error cause) := by
  rw [effects_closeWith] at h
  obtain ⟨t, -, rfl⟩ := List.mem_map.mp h
  exact ⟨t, rfl⟩

/-- The link once its exchange has ended and it is closed. -/
def shut (l : Link) (cause : Error) : Link := { (l.closeWith cause).1 with exchange? := none }

/-! ## The list of steps -/

/-- What an event does to a link, for each event with its guard. -/
inductive Moves (l : Link) : Event → Link → List Effect → Prop
  | registered (frame : Bytes) (idle : l.exchange? = none) (live : l.connected = true) :
      Moves l (.begin frame)
        { l with
          slot? := some l.nextTicket
          exchange? := some ⟨l.nextTicket, frame, 0, false, none⟩
          nextTicket := l.nextTicket + 1 }
        [.registered l.nextTicket]
  | refused (frame : Bytes) (idle : l.exchange? = none) (dead : l.connected = false) :
      Moves l (.begin frame) l [.refused]
  | wrote (x : Exchange) (count : Nat) (running : l.exchange? = some x) (pos : 0 < count)
      (fits : x.sent + count ≤ x.frame.length) :
      Moves l (.accept count) { l with exchange? := some { x with sent := x.sent + count } }
        [.wrote x.ticket ((x.frame.drop x.sent).take count)]
  | flushed (x : Exchange) (running : l.exchange? = some x) (whole : x.sent = x.frame.length)
      (first : x.flushed = false) :
      Moves l .flush { l with exchange? := some { x with flushed := true } } []
  | writeFailed (x : Exchange) (running : l.exchange? = some x) (unflushed : x.flushed = false) :
      Moves l .writeFault (l.shut .connectionClosed)
        ((l.closeWith .connectionClosed).2 ++ [.returned x.ticket (.error .connectionClosed)])
  | collected (x : Exchange) (s : Settlement) (running : l.exchange? = some x)
      (flushed : x.flushed = true) (settled : x.settlement? = some s) :
      Moves l .collect { l with exchange? := none } [.returned x.ticket s]
  | expired (x : Exchange) (limit : Duration) (running : l.exchange? = some x)
      (limited : l.requestTimeout? = some limit) (unready : l.collectable? = none) :
      Moves l .expire (l.shut (.timeout limit))
        ((l.closeWith (.timeout limit)).2 ++ [.returned x.ticket (.error (.timeout limit))])
  | abandoned (x : Exchange) (running : l.exchange? = some x) :
      Moves l .abandon (l.shut .connectionClosed)
        ((l.closeWith .connectionClosed).2 ++ [.abandoned x.ticket])
  | received (a : Accumulator) (chunk : Bytes) (listening : l.listening? = some a)
      (nonempty : chunk ≠ []) :
      Moves l (.receive chunk) { l with reader := .afterChunk a chunk } []
  | streamEnded (a : Accumulator) (listening : l.listening? = some a) :
      Moves l .endOfStream { l with reader := .afterEnd a } []
  | readFailed (a : Accumulator) (listening : l.listening? = some a) :
      Moves l .readFault { l with reader := .stopping .connectionClosed } []
  | settled (a : Accumulator) (r : Response) (rest : List Response) (t : Ticket)
      (delivering : l.reader = .delivering a r rest) (waiting : l.slot? = some t) :
      Moves l .deliver
        { l with
          reader := .handOut a rest
          slot? := none
          exchange? := l.exchange?.map (·.told (some t) (.ok r)) }
        [.settled t (.ok r)]
  | dropped (a : Accumulator) (r : Response) (rest : List Response)
      (delivering : l.reader = .delivering a r rest) (unsolicited : l.slot? = none) :
      Moves l .deliver { l with reader := .handOut a rest } [.dropped r]
  | stopped (cause : Error) (stopping : l.reader = .stopping cause) :
      Moves l .stop { (l.closeWith cause).1 with reader := .ended } (l.closeWith cause).2
  | closed :
      Moves l .close { (l.closeWith .connectionClosed).1 with readerAborted := true }
        (l.closeWith .connectionClosed).2
  | shutdownBegun (idle : l.exchange? = none) :
      Moves l .beginShutdown (l.closeWith .connectionClosed).1 (l.closeWith .connectionClosed).2
  | shutdownFinished : Moves l .finishShutdown { l with readerAborted := true } []

variable {l} {l' : Link} {e : Event} {effects : List Effect}

theorem collectable?_eq_some {x : Exchange} {s : Settlement}
    (h : l.collectable? = some (x, s)) :
    l.exchange? = some x ∧ x.flushed = true ∧ x.settlement? = some s := by
  unfold collectable? at h
  split at h
  · simp at h
  · next y hy =>
    split at h
    · simp at h
    · next s' hs' =>
      by_cases hf : y.flushed = true
      · rw [if_pos hf] at h
        obtain ⟨rfl, rfl⟩ := by simpa using h
        exact ⟨hy, hf, hs'⟩
      · rw [if_neg hf] at h
        simp at h

theorem listening?_eq_some {a : Accumulator} (h : l.listening? = some a) :
    l.reader = .listening a := by
  unfold listening? at h
  split at h
  · next b hb =>
    split at h
    · simp at h
    · rw [hb, Option.some.inj h]
  · simp at h

/-- What is on the list happens. -/
theorem Moves.step_eq (h : Moves l e l' effects) : l.step e = some (l', effects) := by
  cases h with
  | registered frame idle live => simp [step, begin, idle, live]
  | refused frame idle dead => simp [step, begin, idle, dead]
  | wrote x count running pos fits => simp [step, accept, running, pos, fits]
  | flushed x running whole first => simp [step, flush, running, whole, first]
  | writeFailed x running unflushed =>
    simp [step, writeFault, running, unflushed, failExchange, shut]
  | collected x s running flushed settled =>
    simp [step, collect, collectable?, running, settled, flushed]
  | expired x limit running limited unready =>
    simp [step, expire, running, limited, unready, failExchange, shut]
  | abandoned x running => simp [step, abandon, running, shut]
  | received a chunk listening nonempty => simp [step, listen, listening, nonempty]
  | streamEnded a listening => simp [step, listen, listening]
  | readFailed a listening => simp [step, listen, listening]
  | settled a r rest t delivering waiting =>
    rw [← exchange?_settle]
    simp [step, deliver, delivering, waiting, settle]
  | dropped a r rest delivering unsolicited => simp [step, deliver, delivering, unsolicited]
  | stopped cause stopping => simp [step, stop, stopping]
  | closed => rfl
  | shutdownBegun idle => simp [step, idle]
  | shutdownFinished => rfl

theorem Moves.of_step {l₁ : Link} {effects₁ : List Effect} (hm : Moves l e l₁ effects₁)
    (h : l.step e = some (l', effects)) : Moves l e l' effects := by
  rw [hm.step_eq] at h
  obtain ⟨rfl, rfl⟩ := by simpa using h
  exact hm

/-- **A step does nothing that is not on the list.** -/
theorem moves_of_step (h : l.step e = some (l', effects)) : Moves l e l' effects := by
  cases e with
  | begin frame =>
    cases hx : l.exchange? with
    | some x => simp [step, begin, hx] at h
    | none =>
      by_cases hc : l.connected = true
      · exact (Moves.registered frame hx hc).of_step h
      · exact (Moves.refused frame hx (by simpa using hc)).of_step h
  | accept count =>
    cases hx : l.exchange? with
    | none => simp [step, accept, hx] at h
    | some x =>
      by_cases hc : 0 < count ∧ x.sent + count ≤ x.frame.length
      · exact (Moves.wrote x count hx hc.1 hc.2).of_step h
      · simp [step, accept, hx, hc] at h
  | flush =>
    cases hx : l.exchange? with
    | none => simp [step, flush, hx] at h
    | some x =>
      by_cases hc : x.sent = x.frame.length ∧ x.flushed = false
      · exact (Moves.flushed x hx hc.1 hc.2).of_step h
      · simp [step, flush, hx, hc] at h
  | writeFault =>
    cases hx : l.exchange? with
    | none => simp [step, writeFault, hx] at h
    | some x =>
      by_cases hf : x.flushed = true
      · simp [step, writeFault, hx, hf] at h
      · exact (Moves.writeFailed x hx (by simpa using hf)).of_step h
  | collect =>
    cases hx : l.collectable? with
    | none => simp [step, collect, hx] at h
    | some p =>
      obtain ⟨hrunning, hflushed, hsettled⟩ := collectable?_eq_some (x := p.1) (s := p.2) hx
      exact (Moves.collected p.1 p.2 hrunning hflushed hsettled).of_step h
  | expire =>
    have h' := h
    simp only [step, expire] at h'
    split at h'
    · next x limit hx hlimit hcollect => exact (Moves.expired x limit hx hlimit hcollect).of_step h
    · simp at h'
  | abandon =>
    cases hx : l.exchange? with
    | none => simp [step, abandon, hx] at h
    | some x => exact (Moves.abandoned x hx).of_step h
  | receive chunk =>
    by_cases hc : chunk = []
    · simp [step, hc] at h
    · cases ha : l.listening? with
      | none => simp [step, listen, hc, ha] at h
      | some a => exact (Moves.received a chunk ha hc).of_step h
  | endOfStream =>
    cases ha : l.listening? with
    | none => simp [step, listen, ha] at h
    | some a => exact (Moves.streamEnded a ha).of_step h
  | readFault =>
    cases ha : l.listening? with
    | none => simp [step, listen, ha] at h
    | some a => exact (Moves.readFailed a ha).of_step h
  | deliver =>
    cases hr : l.reader with
    | delivering a r rest =>
      cases hs : l.slot? with
      | none => exact (Moves.dropped a r rest hr hs).of_step h
      | some t => exact (Moves.settled a r rest t hr hs).of_step h
    | _ => simp [step, deliver, hr] at h
  | stop =>
    cases hr : l.reader with
    | stopping cause => exact (Moves.stopped cause hr).of_step h
    | _ => simp [step, stop, hr] at h
  | close => exact Moves.closed.of_step h
  | beginShutdown =>
    cases hx : l.exchange? with
    | some x => simp [step, hx] at h
    | none => exact (Moves.shutdownBegun hx).of_step h
  | finishShutdown => exact Moves.shutdownFinished.of_step h

/-- **A closed link stays closed.** -/
theorem Moves.connected_eq_false (h : Moves l e l' effects) (hc : l.connected = false) :
    l'.connected = false := by
  cases h with
  | writeFailed | expired | abandoned => exact connected_closeWith l _
  | stopped | closed | shutdownBegun => exact connected_closeWith l _
  | _ => exact hc

/-! ## The request on a link -/

/-- What has become of the request on a link: there is none, or it waits for its response, or it is
settled.  While the link is connected, nothing but a response settles it. -/
inductive Turn (l : Link) : Prop
  | idle (gone : l.exchange? = none) (free : l.slot? = none)
  | waiting (x : Exchange) (running : l.exchange? = some x) (slot : l.slot? = some x.ticket)
      (unsettled : x.settlement? = none) (live : l.connected = true)
  | settled (x : Exchange) (s : Settlement) (running : l.exchange? = some x) (free : l.slot? = none)
      (settlement : x.settlement? = some s) (answered : l.connected = true → ∃ r, s = .ok r)

theorem turn_new (options : LinkOptions) : Turn (new options) := .idle rfl rfl

/-- What touches neither the slot nor what was settled keeps the turn. -/
theorem Turn.congr (h : Turn l) (f : Exchange → Exchange)
    (hx : l'.exchange? = l.exchange?.map f) (hticket : ∀ x, (f x).ticket = x.ticket)
    (hsettled : ∀ x, (f x).settlement? = x.settlement?) (hslot : l'.slot? = l.slot?)
    (hlive : l'.connected = l.connected) : Turn l' := by
  cases h with
  | idle gone free => exact .idle (by rw [hx, gone]; rfl) (hslot.trans free)
  | waiting x running slot unsettled live =>
    refine .waiting (f x) (by rw [hx, running]; rfl) ?_ ?_ (hlive.trans live)
    · rw [hslot, slot, hticket]
    · rw [hsettled, unsettled]
  | settled x s running free settlement answered =>
    refine .settled (f x) s (by rw [hx, running]; rfl) (hslot.trans free) ?_ ?_
    · rw [hsettled, settlement]
    · rw [hlive]
      exact answered

/-- Closing settles the request if it waits. -/
theorem Turn.closeWith (h : Turn l) (cause : Error) : Turn (l.closeWith cause).1 := by
  cases h with
  | idle gone free => exact .idle (by simp [gone]) (by simp)
  | waiting x running slot unsettled live =>
    exact .settled (x.told (some x.ticket) (.error cause)) (.error cause) (by simp [running, slot])
      (by simp) (by simp) (by simp)
  | settled x s running free settlement answered =>
    exact .settled x s (by simp [running, free]) (by simp) settlement (by simp)

/-- **A step keeps the turn of the request.** -/
theorem Turn.step (h : Turn l) (hm : Moves l e l' effects) : Turn l' := by
  cases hm with
  | registered frame idle live => exact .waiting _ rfl rfl rfl live
  | refused => exact h
  | wrote x count running =>
    exact h.congr (fun x => { x with sent := x.sent + count }) (by rw [running]; rfl)
      (fun _ => rfl) (fun _ => rfl) rfl rfl
  | flushed x running =>
    exact h.congr (fun x => { x with flushed := true }) (by rw [running]; rfl)
      (fun _ => rfl) (fun _ => rfl) rfl rfl
  | writeFailed | expired | abandoned => exact .idle rfl (slot?_closeWith l _)
  | collected x s running flushed settled =>
    -- Whoever is settled has no ticket in the slot, so that the slot stays free behind it.
    cases h with
    | idle gone => simp [gone] at running
    | waiting y running' slot unsettled live =>
      obtain rfl : y = x := by simpa [running] using running'.symm
      simp [unsettled] at settled
    | settled y s' running' free => exact .idle rfl free
  | received | streamEnded | readFailed | dropped | shutdownFinished =>
    exact h.congr id (by simp) (fun _ => rfl) (fun _ => rfl) rfl rfl
  | settled a r rest t delivering waiting =>
    cases h with
    | idle gone free => simp [free] at waiting
    | waiting x running slot unsettled live =>
      obtain rfl : x.ticket = t := by simpa [waiting] using slot.symm
      exact .settled (x.told (some x.ticket) (.ok r)) (.ok r) (by simp [running]) rfl (by simp)
        fun _ => ⟨r, rfl⟩
    | settled x s running free => simp [free] at waiting
  | stopped cause | closed | shutdownBegun =>
    exact (h.closeWith _).congr id (by simp) (fun _ => rfl) (fun _ => rfl) rfl rfl

/-- A request that is settled while the link is connected has a response. -/
theorem Turn.settlement_eq_ok (h : Turn l) {x : Exchange} {s : Settlement}
    (hx : l.exchange? = some x) (hs : x.settlement? = some s) (hc : l.connected = true) :
    ∃ r, s = .ok r := by
  cases h with
  | idle gone => simp [gone] at hx
  | waiting y running slot unsettled =>
    obtain rfl : y = x := by simpa [hx] using running.symm
    simp [unsettled] at hs
  | settled y s' running free settlement answered =>
    obtain rfl : y = x := by simpa [hx] using running.symm
    obtain rfl : s' = s := by simpa [hs] using settlement.symm
    exact answered hc

/-- Without an exchange the slot is free. -/
theorem Turn.slot?_eq_none (h : Turn l) (hx : l.exchange? = none) : l.slot? = none := by
  cases h with
  | idle gone free => exact free
  | waiting x running | settled x s running => simp [hx] at running

/-- A closed link has no ticket in its slot. -/
theorem Turn.slot?_of_closed (h : Turn l) (hc : l.connected = false) : l.slot? = none := by
  cases h with
  | idle gone free => exact free
  | waiting x running slot unsettled live => simp [hc] at live
  | settled x s running free => exact free

/-- A ticket in the slot is that of the exchange that is running. -/
theorem Turn.exchange?_of_slot (h : Turn l) {t : Ticket} (hslot : l.slot? = some t) :
    ∃ x, l.exchange? = some x ∧ x.ticket = t ∧ x.settlement? = none := by
  cases h with
  | idle gone free | settled x s running free => simp [free] at hslot
  | waiting x running slot unsettled =>
    exact ⟨x, running, by simpa [hslot] using slot.symm, unsettled⟩

/-- An exchange on a link with a free slot is settled. -/
theorem Turn.settlement?_of_free (h : Turn l) {x : Exchange} (hx : l.exchange? = some x)
    (hslot : l.slot? = none) : ∃ s, x.settlement? = some s := by
  cases h with
  | idle gone => simp [gone] at hx
  | waiting y running slot => simp [hslot] at slot
  | settled y s running free settlement =>
    obtain rfl : y = x := by simpa [hx] using running.symm
    exact ⟨s, settlement⟩

end Link

end KvClient

import KvClient.Proofs.Limit
import KvClient.Proofs.Link.Arrival

/-!
# What becomes of a response that has arrived completely

A chunk may bring the end of a response and, behind it, more bytes than may wait.  The call that
takes the chunk in then complains about what is left over, and the responses that it completed are
gone: it does not give them back, and no later one does.  A reader that gets such a chunk stops, and
the request that waits is told so in place of its response.

## How it works

* **The accumulator of a reader has taken in what arrived, chunk by chunk**: `Fed`, which every step
  keeps (`Moves.fed`).
* **A reader that has stopped hands out nothing any more**: `Moves.stays_stopped`.
* **What is completed is given back and handed out, unless the rest exceeds the limit**:
  `completed_of_run`.
-/

namespace KvClient

namespace Accumulator

variable {limit : Nat} {chunks : List Bytes} {chunk : Bytes}

/-- A call gives back what the chunk completes, unless it complains about the rest. -/
theorem given_feed_of_fits (h : ((new limit).feedAll chunks).2.isFailed = false)
    (hfits : ¬ ((Reading.of ((Reading.of chunks.flatten).tail ++ chunk)).fault? = none ∧
      limit < (Reading.of ((Reading.of chunks.flatten).tail ++ chunk)).tail.length)) :
    given (((new limit).feedAll chunks).2.feed chunk).1 =
      (Reading.of ((Reading.of chunks.flatten).tail ++ chunk)).responses := by
  rw [(feed_of_sound h chunk).1]
  generalize Reading.of ((Reading.of chunks.flatten).tail ++ chunk) = reading at hfits
  cases hfault : reading.fault? with
  | some m =>
    rw [Reading.answer_of_fault hfault]
    cases reading.responses <;> rfl
  | none =>
    have hle : reading.tail.length ≤ limit := Nat.not_lt.mp fun hlt => hfits ⟨hfault, hlt⟩
    rw [Reading.answer_of_le hfault hle]
    rfl

/-- A call that complains about the rest gives nothing back, and leaves nothing behind but the
rest. -/
theorem feed_of_exceeds (h : ((new limit).feedAll chunks).2.isFailed = false)
    (hfault : (Reading.of ((Reading.of chunks.flatten).tail ++ chunk)).fault? = none)
    (hlt : limit < (Reading.of ((Reading.of chunks.flatten).tail ++ chunk)).tail.length) :
    (((new limit).feedAll chunks).2.feed chunk).1 = .error (.tooLong limit) ∧
      (((new limit).feedAll chunks).2.feed chunk).2 =
        ((new limit).feed (Reading.of ((Reading.of chunks.flatten).tail ++ chunk)).tail).2 := by
  have hnot := Reading.not_mem_tail ((Reading.of chunks.flatten).tail ++ chunk)
  refine ⟨(feed_of_sound h chunk).1.trans (Reading.answer_of_lt hfault hlt), ?_⟩
  rw [(feedAll_new_eq_waiting h).2,
    (feed_waiting limit (Reading.not_mem_tail chunks.flatten) chunk).2 hfault]
  exact (@feed_waiting_of_not_mem [] limit _ hnot).2.symm

end Accumulator

namespace Link

variable {l l' : Link} {e : Event} {es : List Event} {effects more : List Effect}
  {options : LinkOptions} {limit : Nat} {stream : Bytes}

/-! ## The accumulator of a reader -/

/-- The accumulator of a reader has taken in what arrived, in some chunks, and a reader that waits
for more has found no fault. -/
def Fed (limit : Nat) (stream : Bytes) : ReaderPhase → Prop
  | .listening a => a.isFailed = false ∧
    ∃ chunks, chunks.flatten = stream ∧ a = ((Accumulator.new limit).feedAll chunks).2
  | .delivering a _ _ =>
    ∃ chunks, chunks.flatten = stream ∧ a = ((Accumulator.new limit).feedAll chunks).2
  | _ => True

theorem fed_handOut {a : Accumulator}
    (h : ∃ chunks, chunks.flatten = stream ∧ a = ((Accumulator.new limit).feedAll chunks).2)
    (responses : List Response) : Fed limit stream (.handOut a responses) := by
  cases responses with
  | cons r rest => exact h
  | nil =>
    rw [ReaderPhase.handOut]
    cases hm : a.failure? with
    | some m => trivial
    | none => exact ⟨by rw [Accumulator.isFailed, hm]; rfl, h⟩

theorem fed_afterChunk {a : Accumulator} (h : Fed limit stream (.listening a)) (chunk : Bytes) :
    Fed limit (stream ++ chunk) (.afterChunk a chunk) := by
  obtain ⟨-, chunks, rfl, rfl⟩ := h
  rw [ReaderPhase.afterChunk]
  split
  · next responses a' hfeed =>
    refine fed_handOut ⟨chunks ++ [chunk], by simp, ?_⟩ responses
    rw [Accumulator.feedAll_concat, hfeed]
  · trivial

/-- **Every step keeps what the accumulator has taken in.** -/
theorem Moves.fed (hm : Moves l e l' more) (h : Fed limit (Link.received es) l.reader) :
    Fed limit (Link.received (es ++ [e])) l'.reader := by
  have hquiet : ∀ phase, e.bytes = [] → Fed limit (Link.received es) phase →
      Fed limit (Link.received (es ++ [e])) phase := by
    intro phase he hphase
    simpa [Link.received, he] using hphase
  cases hm with
  | received a chunk listening =>
    rw [listening?_eq_some listening] at h
    have hafter := fed_afterChunk h chunk
    simpa [Link.received, Event.bytes] using hafter
  | streamEnded a =>
    refine hquiet _ rfl ?_
    show Fed limit _ (ReaderPhase.afterEnd a)
    unfold ReaderPhase.afterEnd
    split <;> trivial
  | readFailed => exact trivial
  | settled a r rest t delivering | dropped a r rest delivering =>
    rw [delivering] at h
    exact hquiet _ rfl (fed_handOut h rest)
  | stopped => exact trivial
  | writeFailed | expired | abandoned | closed | shutdownBegun =>
    refine hquiet _ rfl ?_
    simpa [shut] using h
  | _ => exact hquiet _ rfl h

theorem fed_of_run (hrun : Run Link.step (new options) es l effects) :
    Fed options.maxResponseSize (received es) l.reader := by
  induction hrun with
  | nil => exact ⟨rfl, [], rfl, rfl⟩
  | snoc _ hstep ih => exact (moves_of_step hstep).fed ih

/-! ## A reader that has stopped -/

/-- A reader that has stopped stays so, and no ticket is settled with a response any more. -/
theorem Moves.stays_stopped (hm : Moves l e l' more) (h : l.reader.ahead? = none) :
    l'.reader.ahead? = none ∧ ∀ t r, .settled t (.ok r) ∉ more := by
  have hclosing : ∀ cause t r, .settled t (.ok r) ∉ (l.closeWith cause).2 := by
    intro cause t r hmem
    obtain ⟨u, hu⟩ := eq_settled_of_mem_closeWith l cause hmem
    simp at hu
  cases hm with
  | received a chunk listening | streamEnded a listening | readFailed a listening =>
    simp [listening?_eq_some listening, ReaderPhase.ahead?] at h
  | settled a r rest t delivering | dropped a r rest delivering =>
    simp [delivering, ReaderPhase.ahead?] at h
  | stopped cause => exact ⟨rfl, hclosing cause⟩
  | writeFailed | expired | abandoned =>
    refine ⟨by simpa [shut] using h, fun t r hmem => ?_⟩
    rcases List.mem_append.mp hmem with hmem | hmem
    · exact hclosing _ t r hmem
    · simp at hmem
  | closed | shutdownBegun => exact ⟨by simpa using h, hclosing _⟩
  | _ => exact ⟨h, by simp⟩

theorem stopped_of_run {l₀ : Link} (hrun : Run Link.step l₀ es l effects)
    (h : l₀.reader.ahead? = none) :
    l.reader.ahead? = none ∧ ∀ t r, .settled t (.ok r) ∉ effects := by
  induction hrun with
  | nil => exact ⟨h, by simp⟩
  | snoc _ hstep ih =>
    obtain ⟨hover, hbefore⟩ := ih
    obtain ⟨hover', hnow⟩ := (moves_of_step hstep).stays_stopped hover
    exact ⟨hover', fun t r hmem => (List.mem_append.mp hmem).elim (hbefore t r) (hnow t r)⟩

/-! ## The request that waits -/

theorem step_deliver_of_slot {a : Accumulator} {r : Response} {rest : List Response} {t : Ticket}
    (delivering : l.reader = .delivering a r rest) (waiting : l.slot? = some t) :
    ∃ l', l.step .deliver = some (l', [.settled t (.ok r)]) :=
  ⟨_, (Moves.settled a r rest t delivering waiting).step_eq⟩

theorem step_stop_of_slot {cause : Error} {t : Ticket} (stopping : l.reader = .stopping cause)
    (waiting : l.slot? = some t) :
    ∃ l', l.step .stop = some (l', [.settled t (.error cause)]) ∧ l'.connected = false := by
  have hstop := (Moves.stopped cause stopping).step_eq
  rw [effects_closeWith, waiting] at hstop
  exact ⟨_, hstop, connected_closeWith l cause⟩

/-! ## Every run -/

/-- What a link that still reads makes of a chunk, in terms of what has arrived. -/
theorem afterChunk_of_run (hrun : Run Link.step (new options) es l effects) {a : Accumulator}
    (listening : l.listening? = some a) {chunk : Bytes} {r : Response} {rest : List Response}
    (hresponses : (Reading.of ((Reading.of (received es)).tail ++ chunk)).responses = r :: rest) :
    let reading := Reading.of ((Reading.of (received es)).tail ++ chunk)
    let limit := options.maxResponseSize
    (¬ (reading.fault? = none ∧ limit < reading.tail.length) →
      ReaderPhase.afterChunk a chunk = .delivering (a.feed chunk).2 r rest) ∧
    (reading.fault? = none → limit < reading.tail.length →
      ReaderPhase.afterChunk a chunk = .stopping (.malformed (.tooLong limit))) := by
  intro reading limit
  have hfed := fed_of_run hrun
  rw [listening?_eq_some listening] at hfed
  obtain ⟨hsound, chunks, hchunks, rfl⟩ := hfed
  rw [← hchunks] at hresponses
  have hreading : reading = Reading.of ((Reading.of chunks.flatten).tail ++ chunk) := by
    rw [hchunks]
  rw [hreading]
  constructor
  · intro hfits
    have hgiven := Accumulator.given_feed_of_fits hsound hfits
    rw [hresponses] at hgiven
    cases hfeed : (((Accumulator.new limit).feedAll chunks).2.feed chunk).1 with
    | error m => simp [limit, hfeed, Accumulator.given] at hgiven
    | ok responses =>
      rw [hfeed] at hgiven
      obtain rfl : responses = r :: rest := hgiven
      exact ReaderPhase.afterChunk_of_ok hfeed
  · intro hfault hlt
    exact ReaderPhase.afterChunk_of_error (Accumulator.feed_of_exceeds hsound hfault hlt).1

/-- **A response that has arrived completely is given back and handed out, unless what is left over
exceeds the limit.**  A call that fits gives back all that its chunk completes in front of the first
bad segment.  One that complains gives back none of it, and what it leaves behind is as if there had
been nothing but the rest.  So a request that waits gets the first of these responses, or is told
that a frame is too long; in that case no request is settled with a response any more. -/
theorem completed_of_run (options : LinkOptions) (chunk : Bytes) :
    let limit := options.maxResponseSize
    (∀ chunks,
      let a := ((Accumulator.new limit).feedAll chunks).2
      let reading := Reading.of (a.buffer.toList ++ chunk)
      a.isFailed = false →
        (Reading.of (chunks.flatten ++ chunk)).responses =
          (Reading.of chunks.flatten).responses ++ reading.responses ∧
        (¬ (reading.fault? = none ∧ limit < reading.tail.length) →
          Accumulator.given (a.feed chunk).1 = reading.responses) ∧
        (reading.fault? = none → limit < reading.tail.length →
          (a.feed chunk).1 = .error (.tooLong limit) ∧
          (a.feed chunk).2 = ((Accumulator.new limit).feed reading.tail).2)) ∧
    (∀ es l effects t r rest,
      let reading := Reading.of ((Reading.of (received es)).tail ++ chunk)
      (new options).run es = some (l, effects) → l.listening?.isSome → l.slot? = some t →
      chunk ≠ [] → reading.responses = r :: rest →
        ∃ l₁, l.step (.receive chunk) = some (l₁, []) ∧
          (¬ (reading.fault? = none ∧ limit < reading.tail.length) →
            ∃ l₂, l₁.step .deliver = some (l₂, [.settled t (.ok r)])) ∧
          (reading.fault? = none → limit < reading.tail.length →
            (∃ l₂, l₁.step .stop = some (l₂, [.settled t (.error (.malformed (.tooLong limit)))]) ∧
              l₂.connected = false) ∧
            ∀ es' l₂ more, l₁.run es' = some (l₂, more) →
              ∀ t' r', .settled t' (.ok r') ∉ more)) := by
  intro limit
  constructor
  · intro chunks a reading hsound
    have hbuffer : a.buffer.toList = (Reading.of chunks.flatten).tail := by
      show ((Accumulator.new limit).feedAll chunks).2.buffer.toList = _
      rw [(Accumulator.feedAll_new_eq_waiting hsound).2, Accumulator.toList_buffer_waiting]
    have hreading : reading = Reading.of ((Reading.of chunks.flatten).tail ++ chunk) := by
      rw [← hbuffer]
    rw [hreading]
    obtain ⟨-, hresponses, -⟩ := Accumulator.feed_of_sound hsound chunk
    exact ⟨hresponses, Accumulator.given_feed_of_fits hsound, Accumulator.feed_of_exceeds hsound⟩
  · intro es l effects t r rest reading hrun hlistening hslot hchunk hresponses
    obtain ⟨a, listening⟩ := Option.isSome_iff_exists.mp hlistening
    obtain ⟨hfits, hexceeds⟩ :=
      afterChunk_of_run (run_eq_some_iff.mp hrun) listening hresponses
    refine ⟨_, (Moves.received a chunk listening hchunk).step_eq, ?_, ?_⟩
    · intro h
      exact step_deliver_of_slot (hfits h) hslot
    · intro hfault hlt
      have hreader := hexceeds hfault hlt
      constructor
      · exact step_stop_of_slot hreader hslot
      · intro es' l₂ more hrun'
        refine (stopped_of_run (run_eq_some_iff.mp hrun') ?_).2
        show (ReaderPhase.afterChunk a chunk).ahead? = none
        rw [hreader]
        rfl

/-- Behind a beginning that waits, a chunk completes a response and brings more: a rest that fits,
and one that exceeds the limit. -/
theorem completed_of_run_cut :
    let es : List Event := [.begin [105, 4], .receive [79]]
    let short : Bytes := [49, terminator, 78, 108]
    let long : Bytes := [49, terminator, 78, 108, 111, 110, 103]
    ∃ l effects, (new ⟨none, 3⟩).run es = some (l, effects) ∧
      (∃ l₁, l.step (.receive short) = some (l₁, []) ∧
        ∃ l₂, l₁.step .deliver = some (l₂, [.settled 0 (.ok ⟨.ok, [49]⟩)])) ∧
      (∃ l₁, l.step (.receive long) = some (l₁, []) ∧
        ∃ l₂, l₁.step .stop = some (l₂, [.settled 0 (.error (.malformed (.tooLong 3)))])) ∧
      Accumulator.given ((Accumulator.waiting 3 [79]).feed short).1 = [⟨.ok, [49]⟩] := by
  intro es short long
  have hrun : (new ⟨none, 3⟩).run es =
      some (⟨true, some 0, some ⟨0, [105, 4], 0, false, none⟩,
        .listening (.waiting 3 [79]), false, none, 1⟩, [.registered 0]) := by cbv
  have hfeed : (Accumulator.new 3).feed [79] = (.ok [], .waiting 3 [79]) := by cbv
  have hreading : ∀ rest, terminator ∉ rest →
      Reading.of ([79] ++ 49 :: terminator :: rest) = ⟨[⟨.ok, [49]⟩], none, rest⟩ :=
    fun rest => @Accumulator.reading_of_frame [79, 49] rest _ (by decide) rfl
  have hshort : Reading.of ([79] ++ short) = _ := hreading [78, 108] (by decide)
  have hlong : Reading.of ([79] ++ long) = _ := hreading [78, 108, 111, 110, 103] (by decide)
  have hreceived : received es = [79] := rfl
  have htail : Reading.of [79] = ⟨[], none, [79]⟩ := Reading.of_of_not_mem (by decide)
  obtain ⟨hfed, hfits⟩ := completed_of_run ⟨none, 3⟩ short
  obtain ⟨-, hexceeds⟩ := completed_of_run ⟨none, 3⟩ long
  have hgiven := hfed [[79]]
  have hfirst := hfits es _ _ 0 ⟨.ok, [49]⟩ [] hrun rfl rfl (by simp [short])
  have hsecond := hexceeds es _ _ 0 ⟨.ok, [49]⟩ [] hrun rfl rfl (by simp [long])
  simp only [Accumulator.feedAll, hfeed, Accumulator.toList_buffer_waiting, hshort] at hgiven
  simp only [hreceived, htail, hshort] at hfirst
  simp only [hreceived, htail, hlong] at hsecond
  obtain ⟨-, hgiven, -⟩ := hgiven rfl
  obtain ⟨l₁, hchunk, hdeliver, -⟩ := hfirst trivial
  obtain ⟨l₂, hchunk', -, hstop⟩ := hsecond trivial
  obtain ⟨⟨l₃, hstopped, -⟩, -⟩ := hstop trivial (by decide)
  exact ⟨_, _, hrun, ⟨l₁, hchunk, hdeliver (by decide)⟩, ⟨l₂, hchunk', l₃, hstopped⟩,
    hgiven (by decide)⟩

/-- A response that arrives completely, and is lost with the call that complains about the rest: the
accumulator is as if it had seen nothing else, and the request that waits is told of the rest. -/
theorem completed_response_lost :
    let chunk : Bytes := [79, 49, 4, 78, 108, 111, 110, 103]
    let rest : Bytes := [78, 108, 111, 110, 103]
    Response.ofSegment [79, 49] = .ok ⟨.ok, [49]⟩ ∧
      (Accumulator.new 3).feed chunk = (.error (.tooLong 3), .waiting 3 rest) ∧
      (Accumulator.new 3).feed rest = (.error (.tooLong 3), .waiting 3 rest) ∧
      (new ⟨none, 3⟩).run
          [.begin [105, 4], .accept 2, .flush, .receive chunk, .stop, .collect] =
        some (⟨false, none, none, .ended, false, none, 1⟩,
          [.registered 0, .wrote 0 [105, 4], .settled 0 (.error (.malformed (.tooLong 3))),
            .returned 0 (.error (.malformed (.tooLong 3)))]) :=
  ⟨rfl, by cbv, by cbv, by cbv⟩

end Link

end KvClient

import KvClient.Proofs.Link.Arrival
import KvClient.Proofs.Link.Settlement

/-!
# What a request comes to

A request has written its frame on a new link, and the peer sends some bytes and then no more.
Whatever the chunks in which the bytes arrive, and whenever the request looks for its settlement, it
comes to the same: the first segment of the stream decides, and if there is none, the tail.

## How it works

* **The first response that is handed out settles the request, and the rest is dropped**: `Serving`,
  which every step of a run keeps that nothing disturbs (`Serving.step`).
* **Such a run is over after a limited number of steps**: each reads, hands out a response, or is
  the end of something (`Moves.endings_eq`).
* **It does not get stuck before**: `Serving.exists_next`.
* **Hence the request returns, with what the stream comes to**: `outcome_of_run`.
-/

namespace KvClient

namespace ReaderPhase

/-- One for a reader that has ended. -/
def endings : ReaderPhase → Nat
  | .ended => 1
  | _ => 0

theorem endings_of_ne {phase : ReaderPhase} (h : phase ≠ .ended) : phase.endings = 0 := by
  cases phase with
  | ended => exact absurd rfl h
  | _ => rfl

end ReaderPhase

namespace Link

variable {l l' : Link} {e : Event} {es : List Event} {effects more : List Effect}
  {chunks : List Bytes} {limit : Nat} {reads : List Event}

/-! ## Reading a run -/

/-- Nothing happens but that the transport reads these chunks and the end, that the reader does what
it has to about them, and that the request collects its settlement. -/
structure Undisturbed (chunks : List Bytes) (es : List Event) : Prop where
  calm : ∀ e ∈ es, e.isRead = true ∨ e = .deliver ∨ e = .stop ∨ e = .collect
  reads : es.filter Event.isRead <+: readsOf chunks

/-- The response that an effect hands out. -/
def Effect.response? : Effect → Option Response
  | .settled _ (.ok r) => some r
  | .dropped r => some r
  | _ => none

/-- All responses that the reader has handed out. -/
def handedOut (effects : List Effect) : List Response := effects.filterMap Effect.response?

/-- The response that an effect drops. -/
def Effect.dropped? : Effect → Option Response
  | .dropped r => some r
  | _ => none

/-- All responses that were dropped. -/
def dropped (effects : List Effect) : List Response := effects.filterMap Effect.dropped?

@[simp] theorem handedOut_append (a b : List Effect) :
    handedOut (a ++ b) = handedOut a ++ handedOut b :=
  List.filterMap_append

@[simp] theorem dropped_append (a b : List Effect) : dropped (a ++ b) = dropped a ++ dropped b :=
  List.filterMap_append

@[simp] theorem handedOut_closeWith (l : Link) (cause : Error) :
    handedOut (l.closeWith cause).2 = [] := by
  rw [effects_closeWith]
  cases l.slot? <;> rfl

@[simp] theorem dropped_closeWith (l : Link) (cause : Error) :
    dropped (l.closeWith cause).2 = [] := by
  rw [effects_closeWith]
  cases l.slot? <;> rfl

theorem Undisturbed.of_append {es' : List Event} (h : Undisturbed chunks (es ++ es')) :
    Undisturbed chunks es where
  calm := fun e he => h.calm e (List.mem_append_left _ he)
  reads := by
    have hreads := h.reads
    rw [List.filter_append] at hreads
    exact (List.prefix_append _ _).trans hreads

/-- What the reader does does not disturb. -/
theorem Undisturbed.snoc (h : Undisturbed chunks es) (hread : e.isRead = false)
    (he : e = .deliver ∨ e = .stop ∨ e = .collect) : Undisturbed chunks (es ++ [e]) where
  calm := by
    intro e' he'
    rcases List.mem_append.mp he' with hbefore | hlast
    · exact h.calm e' hbefore
    · rw [List.mem_singleton.mp hlast]
      exact .inr he
  reads := by
    rw [List.filter_append]
    simpa [hread] using h.reads

/-- The next read does not disturb. -/
theorem Undisturbed.snoc_read (h : Undisturbed chunks es) (hread : e.isRead = true)
    (hnext : es.filter Event.isRead ++ [e] <+: readsOf chunks) :
    Undisturbed chunks (es ++ [e]) where
  calm := by
    intro e' he'
    rcases List.mem_append.mp he' with hbefore | hlast
    · exact h.calm e' hbefore
    · rw [List.mem_singleton.mp hlast]
      exact .inl hread
  reads := by
    rw [List.filter_append]
    simpa [hread] using hnext

/-! ## What becomes of the request -/

/-- What an effect returns, and to which ticket. -/
def Effect.return? : Effect → Option (Ticket × Settlement)
  | .returned t s => some (t, s)
  | _ => none

/-- All that requests returned with, in this order. -/
def returns (effects : List Effect) : List (Ticket × Settlement) :=
  effects.filterMap Effect.return?

@[simp] theorem returns_append (a b : List Effect) : returns (a ++ b) = returns a ++ returns b :=
  List.filterMap_append

@[simp] theorem returns_closeWith (l : Link) (cause : Error) :
    returns (l.closeWith cause).2 = [] := by
  rw [effects_closeWith]
  cases l.slot? <;> rfl

/-- How many of the reader and the exchange have come to their end. -/
def endings (l : Link) : Nat := l.reader.endings + (if l.exchange?.isNone then 1 else 0)

theorem endings_le (l : Link) : l.endings ≤ 2 := by
  have hreader : l.reader.endings ≤ 1 := by
    unfold ReaderPhase.endings
    split <;> omega
  unfold endings
  split <;> omega

/-- What the reader does, it does besides the exchange. -/
theorem endings_eq_of_reader (hbefore : l.reader ≠ .ended)
    (hsame : l'.exchange?.isNone = l.exchange?.isNone)
    (hreader : ([e].filter Event.isRead).length + (handedOut more).length + l'.reader.endings = 1) :
    ([e].filter Event.isRead).length + (handedOut more).length + l'.endings = l.endings + 1 := by
  rw [endings, endings, hsame, ReaderPhase.endings_of_ne hbefore]
  omega

/-- Each event of an undisturbed run reads, hands out a response, or is the end of something. -/
theorem Moves.endings_eq (hm : Moves l e l' more)
    (hcalm : e.isRead = true ∨ e = .deliver ∨ e = .stop ∨ e = .collect) :
    ([e].filter Event.isRead).length + (handedOut more).length + l'.endings = l.endings + 1 := by
  cases hm with
  | received a chunk listening =>
    have hafter := ReaderPhase.endings_of_ne (ReaderPhase.afterChunk_ne_ended a chunk)
    refine endings_eq_of_reader ?_ rfl (congrArg (1 + 0 + ·) hafter)
    simp [listening?_eq_some listening]
  | streamEnded a listening =>
    have hafter := ReaderPhase.endings_of_ne (ReaderPhase.afterEnd_ne_ended a)
    refine endings_eq_of_reader ?_ rfl (congrArg (1 + 0 + ·) hafter)
    simp [listening?_eq_some listening]
  | readFailed a listening =>
    refine endings_eq_of_reader ?_ rfl rfl
    simp [listening?_eq_some listening]
  | settled a r rest t delivering =>
    have hafter := ReaderPhase.endings_of_ne (ReaderPhase.handOut_ne_ended a rest)
    refine endings_eq_of_reader ?_ Option.isNone_map (congrArg (0 + 1 + ·) hafter)
    simp [delivering]
  | dropped a r rest delivering =>
    have hafter := ReaderPhase.endings_of_ne (ReaderPhase.handOut_ne_ended a rest)
    refine endings_eq_of_reader ?_ rfl (congrArg (0 + 1 + ·) hafter)
    simp [delivering]
  | stopped cause stopping =>
    refine endings_eq_of_reader ?_ ?_ ?_
    · simp [stopping]
    · exact (congrArg Option.isNone (exchange?_closeWith l cause)).trans Option.isNone_map
    · rw [handedOut_closeWith]
      rfl
  | collected x s running =>
    show 0 + 0 + (l.reader.endings + 1) = l.endings + 1
    simp [endings, running]
  | _ => simp [Event.isRead] at hcalm

/-- A request is served with what the peer sends.  As long as it waits, nothing was handed out to
anybody else, and what it is settled with is what the whole stream comes to. -/
structure Serving (chunks : List Bytes) (limit : Nat) (reads : List Event) (l : Link)
    (effects : List Effect) : Prop where
  phase : Phase chunks limit reads (handedOut effects) l.reader
  reading : l.readerAborted = false
  written : ∀ x, l.exchange? = some x → x.flushed = true
  numbered : l.nextTicket = 1
  waiting : ∀ t, l.slot? = some t → handedOut effects = []
  answered : l.slot? = none → handedOut effects = [] → l.reader = .ended
  rest : dropped effects = (handedOut effects).tail
  outcome : ∀ t s, .settled t s ∈ effects → s = (Reading.of chunks.flatten).outcome
  running : ∀ x, l.exchange? = some x → returns effects = []
  returned : l.exchange? = none → returns effects = [(0, (Reading.of chunks.flatten).outcome)]

/-- Who only reads serves on. -/
theorem Serving.read (h : Serving chunks limit reads l effects) {reads' : List Event}
    {phase : ReaderPhase} (hphase : Phase chunks limit reads' (handedOut effects) phase)
    (hbefore : l.reader ≠ .ended) :
    Serving chunks limit reads' { l with reader := phase } effects where
  phase := hphase
  reading := h.reading
  written := h.written
  numbered := h.numbered
  waiting := h.waiting
  answered := fun hslot hnothing => absurd (h.answered hslot hnothing) hbefore
  rest := h.rest
  outcome := h.outcome
  running := h.running
  returned := h.returned

/-- Before the first response is handed out, the reader is not at its end, or has closed the
link. -/
theorem Serving.ne_nil (h : Serving chunks limit reads l effects) (hslot : l.slot? = none)
    (hreader : l.reader ≠ .ended) : handedOut effects ≠ [] :=
  fun hnothing => hreader (h.answered hslot hnothing)

/-- The request gets the first response that is handed out. -/
theorem Serving.settled {r : Response} {rest : List Response} {t : Ticket}
    (h : Serving chunks limit reads l effects) (delivering : l.reader = .delivering a r rest)
    (waiting : l.slot? = some t) :
    Serving chunks limit reads
      { l with
        reader := .handOut a rest
        slot? := none
        exchange? := l.exchange?.map (·.told (some t) (.ok r)) }
      (effects ++ [.settled t (.ok r)]) := by
  have hnothing := h.waiting t waiting
  have hhanded : handedOut (effects ++ [.settled t (.ok r)]) = [r] := by
    rw [handedOut_append, hnothing]
    rfl
  have hphase := h.phase
  rw [delivering] at hphase
  cases hphase with
  | delivering a r rest stream arrived ahead =>
    rw [hnothing, List.nil_append] at ahead
    constructor
    · rw [hhanded]
      exact arrived.phase_handOut ahead
    · exact h.reading
    · intro x' hx'
      obtain ⟨x, hx, rfl⟩ := Option.map_eq_some_iff.mp hx'
      rw [Exchange.flushed_told]
      exact h.written x hx
    · exact h.numbered
    · intro t' ht'
      simp at ht'
    · intro _ hnone
      simp [hhanded] at hnone
    · rw [dropped_append, h.rest, hnothing, hhanded]
      rfl
    · intro t' s hs
      rcases List.mem_append.mp hs with hbefore | hnow
      · exact h.outcome t' s hbefore
      · obtain ⟨-, rfl⟩ := by simpa using hnow
        obtain ⟨more, hmore⟩ := arrived.responses_isPrefix
        rw [ahead] at hmore
        exact (Reading.outcome_of_responses hmore.symm).symm
    · intro x' hx'
      obtain ⟨x, hx, -⟩ := Option.map_eq_some_iff.mp hx'
      rw [returns_append, h.running x hx]
      rfl
    · intro hnone
      rw [returns_append, h.returned (Option.map_eq_none_iff.mp hnone)]
      rfl

/-- Nobody gets the responses behind the first one. -/
theorem Serving.dropped {r : Response} {rest : List Response}
    (h : Serving chunks limit reads l effects) (delivering : l.reader = .delivering a r rest)
    (unsolicited : l.slot? = none) :
    Serving chunks limit reads { l with reader := .handOut a rest } (effects ++ [.dropped r]) := by
  have hne : handedOut effects ≠ [] := h.ne_nil unsolicited (by simp [delivering])
  have hhanded : handedOut (effects ++ [.dropped r]) = handedOut effects ++ [r] :=
    handedOut_append _ _
  have hphase := h.phase
  rw [delivering] at hphase
  cases hphase with
  | delivering a r rest stream arrived ahead =>
    constructor
    · rw [hhanded]
      exact arrived.phase_handOut (ahead.trans (List.append_cons ..))
    · exact h.reading
    · exact h.written
    · exact h.numbered
    · intro t ht
      simp [unsolicited] at ht
    · intro _ hnone
      simp [hhanded] at hnone
    · rw [dropped_append, h.rest, hhanded, List.tail_append_of_ne_nil hne]
      rfl
    · intro t s hs
      exact h.outcome t s (by simpa using hs)
    · intro x hx
      rw [returns_append, h.running x hx]
      rfl
    · intro hnone
      rw [returns_append, h.returned hnone]
      rfl

/-- A request that still waits when the reader gives up gets to know why. -/
theorem Serving.stopped {cause : Error} (h : Serving chunks limit reads l effects)
    (stopping : l.reader = .stopping cause) :
    Serving chunks limit reads { (l.closeWith cause).1 with reader := .ended }
      (effects ++ (l.closeWith cause).2) := by
  have hhanded : handedOut (effects ++ (l.closeWith cause).2) = handedOut effects := by simp
  have hphase := h.phase
  rw [stopping] at hphase
  cases hphase with
  | stopping cause why all =>
    constructor
    · rw [hhanded]
      exact .ended all
    · rw [closeWith_eq]
      exact h.reading
    · intro x' hx'
      obtain ⟨x, hx, rfl⟩ := Option.map_eq_some_iff.mp ((exchange?_closeWith l _).symm.trans hx')
      rw [Exchange.flushed_told]
      exact h.written x hx
    · exact (nextTicket_closeWith l _).trans h.numbered
    · intro t ht
      simp at ht
    · intro _ _
      rfl
    · rw [hhanded, dropped_append, dropped_closeWith, List.append_nil]
      exact h.rest
    · intro t s hs
      rcases List.mem_append.mp hs with hbefore | hnow
      · exact h.outcome t s hbefore
      · -- Whoever is settled now has waited, so that nothing was handed out.
        have hsettlement := mem_settlements.mpr hnow
        rw [settlements_closeWith] at hsettlement
        by_cases ht : l.slot? = some t
        · obtain rfl : s = .error cause := by simpa [ht] using hsettlement
          rw [h.waiting t ht] at all
          rw [Reading.outcome_of_no_response all, why]
        · simp [ht] at hsettlement
    · intro x' hx'
      obtain ⟨x, hx, -⟩ := Option.map_eq_some_iff.mp ((exchange?_closeWith l _).symm.trans hx')
      rw [returns_append, returns_closeWith, h.running x hx]
      rfl
    · intro hnone
      have hgone := Option.map_eq_none_iff.mp ((exchange?_closeWith l _).symm.trans hnone)
      rw [returns_append, returns_closeWith, h.returned hgone]
      rfl

/-- The request returns with what it was settled with. -/
theorem Serving.collected {x : Exchange} {s : Settlement}
    (h : Serving chunks limit reads l effects) (haccounted : Accounted l effects)
    (running : l.exchange? = some x) (settled : x.settlement? = some s) :
    Serving chunks limit reads { l with exchange? := none }
      (effects ++ [.returned x.ticket s]) := by
  obtain ⟨hlt, hheard⟩ := haccounted.heard x running
  have hfirst : x.ticket = 0 := by
    rw [h.numbered] at hlt
    exact Nat.lt_one_iff.mp hlt
  have hs : s = (Reading.of chunks.flatten).outcome := by
    refine h.outcome x.ticket s (mem_settlements.mp ?_)
    simp [hheard, settled]
  have hhanded : handedOut (effects ++ [.returned x.ticket s]) = handedOut effects := by
    rw [handedOut_append]
    exact List.append_nil _
  constructor
  · rw [hhanded]
    exact h.phase
  · exact h.reading
  · intro x' hx'
    simp at hx'
  · exact h.numbered
  · rw [hhanded]
    exact h.waiting
  · rw [hhanded]
    exact h.answered
  · rw [hhanded, dropped_append, h.rest]
    exact List.append_nil _
  · intro t s' hs'
    exact h.outcome t s' (by simpa using hs')
  · intro x' hx'
    simp at hx'
  · intro _
    rw [returns_append, h.running x running, hfirst, hs]
    rfl

/-- **A step of an undisturbed run serves on.** -/
theorem Serving.step (h : Serving chunks limit reads l effects) (hm : Moves l e l' more)
    (haccounted : Accounted l effects)
    (hruns : ∀ run, run <:+: chunks.flatten → terminator ∉ run → run.length ≤ limit)
    (hcalm : e.isRead = true ∨ e = .deliver ∨ e = .stop ∨ e = .collect)
    (hnext : reads ++ [e].filter Event.isRead <+: readsOf chunks) :
    Serving chunks limit (reads ++ [e].filter Event.isRead) l' (effects ++ more) := by
  have hphase := h.phase
  cases hm with
  | received a chunk listening =>
    rw [listening?_eq_some listening] at hphase
    rw [List.append_nil]
    cases hphase with
    | listening a stream arrived all =>
      refine h.read (arrived.phase_afterChunk hruns hnext all) ?_
      simp [listening?_eq_some listening]
  | streamEnded a listening =>
    rw [listening?_eq_some listening] at hphase
    rw [List.append_nil]
    cases hphase with
    | listening a stream arrived all =>
      refine h.read (arrived.phase_afterEnd hnext all) ?_
      simp [listening?_eq_some listening]
  | readFailed a listening =>
    have hmem : Event.readFault ∈ readsOf chunks := hnext.subset (by simp [Event.isRead])
    simp [readsOf] at hmem
  | settled a r rest t delivering waiting =>
    exact (List.append_nil reads).symm ▸ h.settled delivering waiting
  | dropped a r rest delivering unsolicited =>
    exact (List.append_nil reads).symm ▸ h.dropped delivering unsolicited
  | stopped cause stopping => exact (List.append_nil reads).symm ▸ h.stopped stopping
  | collected x s running flushed settled =>
    exact (List.append_nil reads).symm ▸ h.collected haccounted running settled
  | _ => simp [Event.isRead] at hcalm

/-! ## The beginning -/

/-- A request begins, and writes its frame to its end. -/
def writing (frame : Bytes) (counts : List Nat) : List Event :=
  .begin frame :: (counts.map .accept ++ [.flush])

/-- Whether an effect belongs to the writing of a frame. -/
def Effect.isWriting : Effect → Bool
  | .registered _ | .wrote _ _ => true
  | _ => false

/-- Writing hands out nothing, and returns nothing. -/
theorem nothing_of_writing (h : ∀ effect ∈ effects, effect.isWriting = true) :
    handedOut effects = [] ∧ dropped effects = [] ∧ returns effects = [] ∧
      ∀ t s, .settled t s ∉ effects := by
  induction effects with
  | nil => exact ⟨rfl, rfl, rfl, by simp⟩
  | cons effect effects ih =>
    obtain ⟨hfirst, hrest⟩ := List.forall_mem_cons.mp h
    obtain ⟨hhanded, hdropped, hreturns, hsettled⟩ := ih hrest
    cases effect with
    | registered | wrote => exact ⟨hhanded, hdropped, hreturns, fun t s => by simp [hsettled]⟩
    | _ => simp [Effect.isWriting] at hfirst

theorem written_of_accepts {x : Exchange} {counts : List Nat} (hx : l.exchange? = some x)
    (hrun : runWith step l (counts.map .accept ++ [.flush]) = some (l', more)) :
    (∃ sent, l' = { l with exchange? := some { x with sent := sent, flushed := true } }) ∧
      ∀ effect ∈ more, effect.isWriting = true := by
  induction counts generalizing l x more with
  | nil =>
    cases moves_of_step (runWith_singleton.symm.trans hrun) with
    | flushed y running =>
      obtain rfl : y = x := by simpa [hx] using running.symm
      exact ⟨⟨y.sent, rfl⟩, by simp⟩
  | cons count counts ih =>
    obtain ⟨l₁, now, later, hstep, hrest, rfl⟩ := runWith_cons.mp hrun
    cases moves_of_step hstep with
    | wrote y count running =>
      obtain rfl : y = x := by simpa [hx] using running.symm
      obtain ⟨hl', hlater⟩ := ih rfl hrest
      exact ⟨hl', List.forall_mem_cons.mpr ⟨rfl, hlater⟩⟩

/-- A request that has written its frame on a new link is ready to be served. -/
theorem serving_of_writing {options : LinkOptions} {frame : Bytes} {counts : List Nat}
    (hrun : Run step (new options) (writing frame counts) l effects) :
    Serving chunks options.maxResponseSize [] l effects ∧ handedOut effects = [] ∧
      l.endings = 0 := by
  obtain ⟨l₁, now, later, hstep, hrest, rfl⟩ := runWith_cons.mp (runWith_eq_some_iff.mpr hrun)
  cases moves_of_step hstep with
  | refused frame idle dead => simp [new] at dead
  | registered frame idle live =>
    obtain ⟨⟨sent, rfl⟩, hlater⟩ := written_of_accepts rfl hrest
    have hwriting : ∀ effect ∈ Effect.registered (new options).nextTicket :: later,
        effect.isWriting = true := List.forall_mem_cons.mpr ⟨rfl, hlater⟩
    obtain ⟨hhanded, hdropped, hreturns, hsettled⟩ := nothing_of_writing hwriting
    have hnil : Reading.of [] = ⟨[], none, []⟩ := Reading.of_of_not_mem (by simp)
    refine ⟨?_, hhanded, rfl⟩
    constructor
    · refine .listening (.new options.maxResponseSize) [] ?_ ?_
      · exact ⟨⟨[], chunks, rfl, rfl, rfl⟩, Accumulator.follows_new _, rfl⟩
      · rw [hnil]
        exact hhanded.symm
    · rfl
    · intro x hx
      obtain rfl : _ = x := by simpa using hx
      rfl
    · rfl
    · exact fun _ _ => hhanded
    · intro hslot
      simp at hslot
    · exact hdropped.trans (congrArg List.tail hhanded).symm
    · exact fun t s hs => absurd hs (hsettled t s)
    · exact fun _ _ => hreturns
    · intro hx
      simp at hx

/-! ## The end -/

/-- **Nothing that goes on gets stuck.**  Until the reader has ended and the request has returned,
something can happen that does not disturb. -/
theorem Serving.exists_next (h : Serving chunks limit (es.filter Event.isRead) l effects)
    (hchunks : ∀ chunk ∈ chunks, chunk ≠ []) (hturn : Turn l) (hundisturbed : Undisturbed chunks es)
    (hgoing : l.reader ≠ .ended ∨ l.connected = false ∧ l.exchange? ≠ none) :
    ∃ e, Undisturbed chunks (es ++ [e]) ∧ ∃ l' more, Moves l e l' more := by
  have hphase := h.phase
  cases hreader : l.reader with
  | listening a =>
    rw [hreader] at hphase
    have hlistening : l.listening? = some a := by simp [listening?, hreader, h.reading]
    cases hphase with
    | listening a stream arrived =>
      obtain ⟨e, hread, hnext, rfl | ⟨chunk, hchunk, rfl⟩⟩ := arrived.exists_next
      · exact ⟨_, hundisturbed.snoc_read hread hnext, _, _, .streamEnded a hlistening⟩
      · exact ⟨_, hundisturbed.snoc_read hread hnext, _, _,
          .received a chunk hlistening (hchunks chunk hchunk)⟩
  | delivering a r rest =>
    refine ⟨.deliver, hundisturbed.snoc rfl (.inl rfl), ?_⟩
    cases hslot : l.slot? with
    | none => exact ⟨_, _, .dropped a r rest hreader hslot⟩
    | some t => exact ⟨_, _, .settled a r rest t hreader hslot⟩
  | stopping cause =>
    exact ⟨.stop, hundisturbed.snoc rfl (.inr (.inl rfl)), _, _, .stopped cause hreader⟩
  | ended =>
    rcases hgoing with hne | ⟨hdead, hrunning⟩
    · exact absurd hreader hne
    · obtain ⟨x, hx⟩ := Option.ne_none_iff_exists'.mp hrunning
      obtain ⟨s, hs⟩ := hturn.settlement?_of_free hx (hturn.slot?_of_closed hdead)
      exact ⟨.collect, hundisturbed.snoc rfl (.inr (.inr rfl)), _, _,
        .collected x s hx (h.written x hx) hs⟩

/-! ## The result -/

theorem serving_of_run {options : LinkOptions} {l₀ : Link} {frame : Bytes} {counts : List Nat}
    {written : List Effect}
    (hwritten : Run step (new options) (writing frame counts) l₀ written)
    (hruns : ∀ run, run <:+: chunks.flatten → terminator ∉ run →
      run.length ≤ options.maxResponseSize)
    (hrun : Run step l₀ es l effects) (hundisturbed : Undisturbed chunks es) :
    Serving chunks options.maxResponseSize (es.filter Event.isRead) l (written ++ effects) ∧
      es.length =
        (es.filter Event.isRead).length + (handedOut (written ++ effects)).length + l.endings := by
  induction hrun with
  | nil =>
    obtain ⟨hserving, hhanded, hendings⟩ := serving_of_writing hwritten
    rw [List.append_nil]
    exact ⟨hserving, by simp [hhanded, hendings]⟩
  | @snoc es l₁ effects e l₂ more hrun hstep ih =>
    obtain ⟨hserving, hlength⟩ := ih hundisturbed.of_append
    have hm := moves_of_step hstep
    have hcalm := hundisturbed.calm e (List.mem_append_right _ (List.mem_singleton_self e))
    have hreads := hundisturbed.reads
    rw [List.filter_append] at hreads ⊢
    rw [← List.append_assoc written]
    refine ⟨hserving.step hm (accounted_of_run (hwritten.append hrun)).2 hruns hcalm hreads, ?_⟩
    have hendings := hm.endings_eq hcalm
    rw [List.length_append, List.length_append, handedOut_append, List.length_append, hlength,
      List.length_singleton]
    omega

theorem mem_returns {t : Ticket} {s : Settlement} (h : .returned t s ∈ effects) :
    (t, s) ∈ returns effects :=
  List.mem_filterMap.mpr ⟨_, h, rfl⟩

/-- **What a request comes to is what the bytes of the peer come to.**  A request has written its
frame on a new link, and the peer's bytes arrive in some chunks, with no run of bytes without a
terminator above the limit.  Whatever the chunks are, the request returns with nothing but what all
bytes together come to.  That takes a limited number of steps, and when nothing is left to happen
the request has returned, the responses behind the first one are dropped, and the link is closed. -/
theorem outcome_of_run {options : LinkOptions} {frame : Bytes} {counts : List Nat}
    (hrun : (new options).run (writing frame counts ++ es) = some (l, effects))
    (hchunks : ∀ chunk ∈ chunks, chunk ≠ [])
    (hruns : ∀ run, run <:+: chunks.flatten → terminator ∉ run →
      run.length ≤ options.maxResponseSize)
    (hundisturbed : Undisturbed chunks es) :
    (∀ t s, .returned t s ∈ effects → t = 0 ∧ ComesTo chunks.flatten s) ∧
      es.length ≤ chunks.length + (Reading.of chunks.flatten).responses.length + 3 ∧
      ((∀ e, Undisturbed chunks (es ++ [e]) → l.step e = none) →
        (∃ s, returns effects = [(0, s)] ∧ ComesTo chunks.flatten s) ∧
        dropped effects = (Reading.of chunks.flatten).responses.tail ∧ l.connected = false) := by
  have hwhole := run_eq_some_iff.mp hrun
  obtain ⟨hturn, haccounted⟩ := accounted_of_run hwhole
  obtain ⟨l₀, written, later, hwritten, hserved, rfl⟩ := hwhole.of_append
  obtain ⟨hserving, hlength⟩ := serving_of_run hwritten hruns hserved hundisturbed
  refine ⟨?_, ?_, ?_⟩
  · intro t s hs
    have hmem := mem_returns hs
    cases hx : l.exchange? with
    | some x => simp [hserving.running x hx] at hmem
    | none =>
      obtain ⟨rfl, rfl⟩ := by simpa [hserving.returned hx] using hmem
      exact ⟨rfl, comesTo_outcome _⟩
  · have hreads := hundisturbed.reads.length_le
    have hhanded := hserving.phase.isPrefix.length_le
    have hendings := l.endings_le
    rw [readsOf, List.length_append, List.length_map, List.length_singleton] at hreads
    omega
  · intro hdone
    have hstuck : ¬ ∃ e, Undisturbed chunks (es ++ [e]) ∧ ∃ l' more, Moves l e l' more := by
      rintro ⟨e, he, l', more, hm⟩
      have hnone := hdone e he
      rw [hm.step_eq] at hnone
      simp at hnone
    -- The reader has ended, hence the link is closed, hence the request has returned.
    have hended : l.reader = .ended := by
      by_contra hgoing
      exact hstuck (hserving.exists_next hchunks hturn hundisturbed (.inl hgoing))
    have hclosed : l.connected = false := (dead_of_reader hwhole).1 hended
    have hgone : l.exchange? = none := by
      by_contra hgoing
      exact hstuck (hserving.exists_next hchunks hturn hundisturbed (.inr ⟨hclosed, hgoing⟩))
    have hphase := hserving.phase
    rw [hended] at hphase
    cases hphase with
    | ended all =>
      exact ⟨⟨_, hserving.returned hgone, comesTo_outcome _⟩, all ▸ hserving.rest, hclosed⟩

/-- A response and a segment that is none arrive together, the end of that segment cut off from its
beginning; the response still counts, and what comes behind is not read. -/
theorem outcome_of_run_cut :
    let chunks : List Bytes := [[79, 104], [4, 33, 4, 78], [4]]
    let es : List Event := [.receive [79, 104], .receive [4, 33, 4, 78], .deliver, .stop, .collect]
    ∃ l effects, (new ⟨none, 7⟩).run (writing [105, 4] [1, 1] ++ es) = some (l, effects) ∧
      (∀ e, Undisturbed chunks (es ++ [e]) → l.step e = none) ∧ l.connected = false ∧
      returns effects = [(0, .ok ⟨.ok, [104]⟩)] ∧
      ComesTo chunks.flatten (.ok ⟨.ok, [104]⟩) := by
  intro chunks es
  have hrun : (new ⟨none, 7⟩).run (writing [105, 4] [1, 1] ++ es) =
      some (⟨false, none, none, .ended, false, none, 1⟩,
        [.registered 0, .wrote 0 [105], .wrote 0 [4], .settled 0 (.ok ⟨.ok, [104]⟩),
          .returned 0 (.ok ⟨.ok, [104]⟩)]) := by cbv
  have hruns : ∀ run, run <:+: chunks.flatten → terminator ∉ run → run.length ≤ 7 :=
    fun run hinfix _ => hinfix.length_le
  have hundisturbed : Undisturbed chunks es :=
    ⟨by simp [es, Event.isRead], [.receive [4], .endOfStream], rfl⟩
  obtain ⟨hreturned, -, -⟩ := outcome_of_run hrun (by simp [chunks]) hruns hundisturbed
  refine ⟨_, _, hrun, ?_, rfl, rfl, (hreturned 0 _ (by simp)).2⟩
  intro e he
  obtain hread | rfl | rfl | rfl := he.calm e (by simp)
  · cases e with
    | receive chunk => cases chunk <;> rfl
    | endOfStream | readFault => rfl
    | _ => simp [Event.isRead] at hread
  all_goals rfl

end Link

end KvClient

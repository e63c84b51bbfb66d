import KvClient.Proofs.Frames
import KvClient.Proofs.Link.Peer

/-!
# Responses go to the requests that they answer

Responses carry no number.  What ties them to requests is a count: while a link is connected, it has
handed out one response for each request but the one that waits.  An exchange that ends without its
response closes the link, so that the count holds whenever a request begins.

## How it works

* **The count**: `Reads`, which every step keeps (`Reads.step`).
* **A settled request has its own answer**: `Correlated.settled_step`.
* **After a request was lost, nothing is returned**: `Settles.step`.
* **What a request returns is the answer to its own frame**: `returned_eq_answer`.
-/

namespace KvClient

/-- The accumulator of a reader, and the responses that it is about to hand out. -/
def ReaderPhase.ahead? : ReaderPhase → Option (Accumulator × List Response)
  | .listening a => some (a, [])
  | .delivering a r rest => some (a, r :: rest)
  | _ => none

theorem ReaderPhase.ahead?_handOut {a a' : Accumulator} {responses rest : List Response}
    (h : (handOut a responses).ahead? = some (a', rest)) : a' = a ∧ rest = responses := by
  cases responses with
  | cons r more =>
    obtain ⟨rfl, rfl⟩ := by simpa [handOut, ahead?] using h
    exact ⟨rfl, rfl⟩
  | nil =>
    cases hm : a.failure? with
    | some m => simp [handOut, hm, ahead?] at h
    | none =>
      obtain ⟨rfl, rfl⟩ := by simpa [handOut, hm, ahead?] using h
      exact ⟨rfl, rfl⟩

namespace Link

variable {l l' : Link} {e : Event} {es : List Event} {frames : List Bytes}
  {effects more : List Effect} {peer : Nat → Answer}

/-! ## The count -/

/-- What has arrived is what the reader has handed out, what it is about to hand out, and what waits
in its accumulator.  While the link is connected, it has handed out one response for each request
but the one that waits. -/
def Reads (l : Link) (es : List Event) : Prop :=
  ∀ a rest, l.reader.ahead? = some (a, rest) →
    a.Follows (received es) ∧
      ∃ handed, (Reading.of (received es)).responses = handed ++ rest ∧
        (l.connected = true → handed.length + l.slot?.toList.length = l.nextTicket)

theorem reads_new (options : LinkOptions) : Reads (new options) [] := by
  intro a rest h
  obtain ⟨rfl, rfl⟩ := by simpa [new, ReaderPhase.ahead?] using h
  refine ⟨Accumulator.follows_new _, [], ?_, fun _ => rfl⟩
  show (Reading.of []).responses = _
  rw [Reading.of_of_not_mem (by simp)]
  rfl

/-- A step that leaves the reader alone keeps the count if it keeps the requests. -/
theorem Reads.quiet (h : Reads l es) (he : e.bytes = []) (hr : l'.reader = l.reader)
    (hc : l'.connected = true → l.connected = true ∧
      l'.slot?.toList.length + l.nextTicket = l.slot?.toList.length + l'.nextTicket) :
    Reads l' (es ++ [e]) := by
  intro a rest ha
  obtain ⟨hfollows, handed, hresponses, hcount⟩ := h a rest (hr ▸ ha)
  have hsame : received (es ++ [e]) = received es := by simp [received, he]
  rw [hsame]
  refine ⟨hfollows, handed, hresponses, fun hconnected => ?_⟩
  obtain ⟨hconnected, hslot⟩ := hc hconnected
  have := hcount hconnected
  omega

/-- A chunk brings what it completes. -/
theorem Reads.received {a : Accumulator} {chunk : Bytes} (h : Reads l es)
    (ha : l.listening? = some a) :
    Reads { l with reader := .afterChunk a chunk } (es ++ [.receive chunk]) := by
  have hreceived : Link.received (es ++ [.receive chunk]) = Link.received es ++ chunk := by
    simp [Link.received, Event.bytes]
  obtain ⟨hfollows, handed, hresponses, hcount⟩ := h a [] (by
    rw [listening?_eq_some ha, ReaderPhase.ahead?])
  rw [List.append_nil] at hresponses
  intro a' rest ha'
  rw [hreceived]
  cases hfeed : a.feed chunk with
  | mk verdict b =>
    have hb := hfollows.feed chunk
    have hgiven := hfollows.given_feed chunk
    rw [hfeed] at hb hgiven
    cases verdict with
    | error m => simp [ReaderPhase.afterChunk, hfeed, ReaderPhase.ahead?] at ha'
    | ok responses =>
      rw [ReaderPhase.afterChunk, hfeed] at ha'
      obtain ⟨rfl, rfl⟩ := ReaderPhase.ahead?_handOut ha'
      exact ⟨hb, handed, hresponses ▸ hgiven rfl, hcount⟩

/-- The reader hands out a response, and the request that waits is settled. -/
theorem Reads.handOut {a : Accumulator} {r : Response} {rest : List Response} (h : Reads l es)
    (hr : l.reader = .delivering a r rest) (he : e.bytes = [])
    (hreader : l'.reader = .handOut a rest)
    (hc : l'.connected = true → l.connected = true ∧
      l'.slot?.toList.length + 1 + l.nextTicket = l.slot?.toList.length + l'.nextTicket) :
    Reads l' (es ++ [e]) := by
  have hsame : Link.received (es ++ [e]) = Link.received es := by simp [Link.received, he]
  obtain ⟨hfollows, handed, hresponses, hcount⟩ := h a (r :: rest) (by
    rw [hr, ReaderPhase.ahead?])
  intro a' rest' ha'
  rw [hreader] at ha'
  obtain ⟨rfl, rfl⟩ := ReaderPhase.ahead?_handOut ha'
  rw [hsame]
  refine ⟨hfollows, handed ++ [r], by simp [hresponses], fun hconnected => ?_⟩
  obtain ⟨hconnected, hslot⟩ := hc hconnected
  have hcounted := hcount hconnected
  rw [List.length_append, List.length_singleton]
  omega

/-- A reader that is about to stop hands out nothing. -/
theorem reads_of_ahead?_eq_none (h : l.reader.ahead? = none) : Reads l es := by
  intro a rest ha
  simp [h] at ha

/-- **A step keeps the count**, as long as no more responses have arrived than requests have
begun. -/
theorem Reads.step (h : Reads l es) (hturn : Turn l) (hm : Moves l e l' more)
    (hbound : (Reading.of (Link.received es)).responses.length ≤ l.nextTicket) :
    Reads l' (es ++ [e]) := by
  cases hm with
  | registered frame idle live =>
    have hfree : l.slot? = none := by
      cases hturn with
      | idle gone free => exact free
      | waiting x running => simp [idle] at running
      | settled x s running => simp [idle] at running
    refine h.quiet rfl rfl fun _ => ⟨live, ?_⟩
    simp [hfree, Nat.add_comm]
  | refused | wrote | flushed | collected | shutdownFinished =>
    exact h.quiet rfl rfl fun hc => ⟨hc, rfl⟩
  | writeFailed | expired | abandoned =>
    exact h.quiet rfl (reader_closeWith l _) fun hc => by simp [shut] at hc
  | received a chunk listening => exact h.received listening
  | streamEnded a =>
    refine reads_of_ahead?_eq_none ?_
    show (ReaderPhase.afterEnd a).ahead? = none
    unfold ReaderPhase.afterEnd
    split <;> rfl
  | readFailed => exact reads_of_ahead?_eq_none rfl
  | settled a r rest t delivering waiting =>
    refine h.handOut delivering rfl rfl fun hc => ⟨hc, ?_⟩
    simp [waiting, Nat.add_comm]
  | dropped a r rest delivering unsolicited =>
    refine h.handOut delivering rfl rfl fun hc => ?_
    -- Nobody waits, so all requests have their responses, and there is none left to hand out.
    obtain ⟨-, handed, hresponses, hcount⟩ := h a (r :: rest) (by
      rw [delivering, ReaderPhase.ahead?])
    have hcounted := hcount hc
    rw [hresponses] at hbound
    simp only [unsolicited, Option.toList_none, List.length_nil, List.length_append,
      List.length_cons] at hcounted hbound
    omega
  | stopped => exact reads_of_ahead?_eq_none rfl
  | closed | shutdownBegun =>
    exact h.quiet rfl (reader_closeWith l _) fun hc => by simp at hc

/-! ## What a request returns -/

/-- A request that returns was running, and nothing is written as it returns.  Either the link is
closed behind it, or its frame was whole and it was settled. -/
theorem Moves.of_returned {t : Ticket} {s : Settlement} (hm : Moves l e l' more)
    (h : .returned t s ∈ more) :
    ∃ x, l.exchange? = some x ∧ x.ticket = t ∧ l'.exchange? = none ∧
      l'.nextTicket = l.nextTicket ∧ accepted more = [] ∧
      ((∃ err, s = .error err ∧ l'.connected = false) ∨
        (x.flushed = true ∧ x.settlement? = some s ∧ l'.connected = l.connected)) := by
  have hclosing : ∀ cause, .returned t s ∉ (l.closeWith cause).2 := by
    intro cause hmem
    obtain ⟨u, hu⟩ := eq_settled_of_mem_closeWith l cause hmem
    simp at hu
  cases hm with
  | writeFailed x running | expired x limit running =>
    rcases List.mem_append.mp h with hmem | hmem
    · exact absurd hmem (hclosing _)
    · obtain ⟨rfl, rfl⟩ := by simpa using hmem
      refine ⟨x, running, rfl, rfl, nextTicket_closeWith l _, ?_,
        .inl ⟨_, rfl, connected_closeWith l _⟩⟩
      rw [accepted_append, accepted_closeWith]
      rfl
  | collected x s' running flushed settled =>
    obtain ⟨rfl, rfl⟩ := by simpa using h
    exact ⟨x, running, rfl, rfl, rfl, rfl, .inr ⟨flushed, settled, rfl⟩⟩
  | abandoned x running =>
    rcases List.mem_append.mp h with hmem | hmem
    · exact absurd hmem (hclosing _)
    · simp at hmem
  | stopped cause | closed | shutdownBegun => exact absurd h (hclosing _)
  | _ => simp at h

/-- A request that has returned is behind the link. -/
def Past (l : Link) (effects : List Effect) : Prop :=
  ∀ t s, .returned t s ∈ effects → t < l.nextTicket ∧ ∀ x, l.exchange? = some x → x.ticket ≠ t

/-- What a step makes of the exchange, if there is one behind it. -/
theorem Moves.ticket_eq {x' : Exchange} (hm : Moves l e l' more) (hx' : l'.exchange? = some x') :
    (∃ x, l.exchange? = some x ∧ x'.ticket = x.ticket ∧ l'.nextTicket = l.nextTicket) ∨
      (x'.ticket = l.nextTicket ∧ l'.nextTicket = l.nextTicket + 1) := by
  cases hm with
  | registered =>
    obtain rfl : _ = x' := by simpa using hx'
    exact .inr ⟨rfl, rfl⟩
  | wrote x count running | flushed x running =>
    obtain rfl : _ = x' := by simpa using hx'
    exact .inl ⟨x, running, rfl, rfl⟩
  | settled | stopped | closed | shutdownBegun =>
    obtain ⟨x, running, rfl⟩ := by simpa using hx'
    exact .inl ⟨x, running, by simp, by simp⟩
  | writeFailed | collected | expired | abandoned => simp [shut] at hx'
  | _ => exact .inl ⟨x', hx', rfl, rfl⟩

theorem Moves.nextTicket_le (hm : Moves l e l' more) : l.nextTicket ≤ l'.nextTicket := by
  cases hm with
  | registered => exact Nat.le_succ _
  | writeFailed | expired | abandoned => exact Nat.le_of_eq (nextTicket_closeWith l _).symm
  | stopped | closed | shutdownBegun => exact Nat.le_of_eq (nextTicket_closeWith l _).symm
  | _ => exact Nat.le_refl _

theorem Past.step (h : Past l effects) (hwritten : Written l frames effects)
    (hm : Moves l e l' more) : Past l' (effects ++ more) := by
  intro t s hmem
  rcases List.mem_append.mp hmem with hbefore | hnow
  · obtain ⟨hlt, hne⟩ := h t s hbefore
    refine ⟨Nat.lt_of_lt_of_le hlt hm.nextTicket_le, fun x' hx' => ?_⟩
    rcases hm.ticket_eq hx' with ⟨x, hx, hticket, -⟩ | ⟨hticket, -⟩
    · rw [hticket]
      exact hne x hx
    · rw [hticket]
      exact Nat.ne_of_gt hlt
  · obtain ⟨x, hx, rfl, hgone, hn, -⟩ := hm.of_returned hnow
    refine ⟨hn ▸ (hwritten.running x hx).ticket_lt hwritten.count, fun x' hx' => ?_⟩
    simp [hgone] at hx'

/-- A step writes nothing for a request that is not running. -/
theorem Moves.acceptedOf_eq_nil {t : Ticket} (hm : Moves l e l' more)
    (h : ∀ x, l.exchange? = some x → x.ticket ≠ t) : acceptedOf t more = [] := by
  cases hm with
  | wrote x count running =>
    simp [acceptedOf, Effect.bytesOf, h x running]
  | writeFailed | expired | abandoned =>
    refine Link.acceptedOf_eq_nil ?_
    rw [accepted_append, accepted_closeWith]
    rfl
  | stopped | closed | shutdownBegun =>
    exact Link.acceptedOf_eq_nil (accepted_closeWith l _)
  | _ => rfl

/-- A response is the answer of the peer to the frame of a request: that is the frame that the
request wrote, the peer has received all of it, and it is the one that the answer is to. -/
def Answered (peer : Nat → Answer) (frames : List Bytes) (effects : List Effect) (t : Ticket)
    (r : Response) : Prop :=
  ∃ frame, frames[t]? = some frame ∧ acceptedOf t effects = frame ∧
    (Wire.split (accepted effects)).1[t]? = some frame.dropLast ∧ r = (peer t).response

theorem getElem?_of_isPrefix {α : Type} {a b : List α} {i : Nat} {x : α} (h : a <+: b)
    (hx : a[i]? = some x) : b[i]? = some x := by
  obtain ⟨hi, rfl⟩ := List.getElem?_eq_some_iff.mp hx
  exact List.prefix_iff_getElem?.mp h i hi

/-- What follows does not change which frame an answer is to. -/
theorem Answered.mono {frames' : List Bytes} {t : Ticket} {r : Response}
    (h : Answered peer frames effects t r) (hframes : frames <+: frames')
    (hmore : acceptedOf t more = []) : Answered peer frames' (effects ++ more) t r := by
  obtain ⟨frame, hframe, hown, hsegment, hr⟩ := h
  refine ⟨frame, getElem?_of_isPrefix hframes hframe, ?_, ?_, hr⟩
  · rw [acceptedOf_append, hmore, List.append_nil, hown]
  · rw [accepted_append]
    exact getElem?_of_isPrefix (Wire.segments_prefix_append _ _) hsegment

/-- The frame of an exchange that has written all of it is complete on the wire. -/
theorem Writing.answered {x : Exchange} (h : Writing x frames effects)
    (hframes : ∀ f ∈ frames, Wire.IsFrame f) (hflushed : x.flushed = true) {r : Response}
    (hr : r = (peer x.ticket).response) : Answered peer frames effects x.ticket r := by
  obtain ⟨earlier, hlast, hticket, -⟩ := h.last
  have hframe : frames[x.ticket]? = some x.frame := by
    rw [hlast, ← hticket]
    simp
  refine ⟨x.frame, hframe, ?_, ?_, hr⟩
  · rw [h.own, h.whole hflushed, List.take_length]
  · rw [h.eq_flatten hflushed, Wire.split_flatten hframes, List.getElem?_map, hframe]
    rfl

/-! ## Every run -/

/-- What holds at every moment of a run with an honest peer. -/
structure Correlated (peer : Nat → Answer) (l : Link) (es : List Event) (frames : List Bytes)
    (effects : List Effect) : Prop where
  turn : Turn l
  written : Written l frames effects
  reads : Reads l es
  past : Past l effects
  settled : ∀ x r, l.exchange? = some x → x.settlement? = some (.ok r) →
    r = (peer x.ticket).response
  returned : ∀ t r, .returned t (.ok r) ∈ effects → Answered peer frames effects t r

theorem correlated_new (options : LinkOptions) : Correlated peer (new options) [] [] [] where
  turn := turn_new options
  written := written_new options
  reads := reads_new options
  past := by intro t s h; simp at h
  settled := by intro x r hx; simp [new] at hx
  returned := by intro t r h; simp at h

/-- The response that is handed out next is the answer to the request that waits. -/
theorem Correlated.answer_eq {a : Accumulator} {r : Response} {rest : List Response} {x : Exchange}
    (h : Correlated peer l es frames effects)
    (hreading : ∃ k, (Reading.of (Link.received es)).responses =
      (List.range k).map fun i => (peer i).response)
    (hr : l.reader = .delivering a r rest) (hx : l.exchange? = some x)
    (hslot : l.slot? = some x.ticket) (hc : l.connected = true) :
    r = (peer x.ticket).response := by
  obtain ⟨-, handed, hresponses, hcount⟩ := h.reads a (r :: rest) (by
    rw [hr, ReaderPhase.ahead?])
  obtain ⟨k, hanswers⟩ := hreading
  obtain ⟨earlier, hlast, hticket, -⟩ := (h.written.running x hx).last
  -- All requests before this one have had their responses, one each.
  have hlength : handed.length = x.ticket := by
    have hcounted := hcount hc
    have htotal := h.written.count
    rw [hlast, List.length_append, List.length_singleton] at htotal
    rw [hslot, Option.toList_some, List.length_singleton] at hcounted
    exact Nat.succ.inj (hcounted.trans (htotal.symm.trans (congrArg Nat.succ hticket)))
  have hnext : (Reading.of (Link.received es)).responses[handed.length]? = some r := by
    rw [hresponses]
    simp
  rw [hanswers, List.getElem?_map] at hnext
  obtain ⟨i, hi, rfl⟩ := Option.map_eq_some_iff.mp hnext
  obtain ⟨hlt, rfl⟩ := List.getElem?_eq_some_iff.mp hi
  rw [List.getElem_range, hlength]

/-- What a settlement is, once a step has taken place. -/
theorem Correlated.settled_step (h : Correlated peer l es frames effects)
    (hreading : ∃ k, (Reading.of (Link.received es)).responses =
      (List.range k).map fun i => (peer i).response)
    (hm : Moves l e l' more) {x' : Exchange} {r : Response} (hx' : l'.exchange? = some x')
    (hs' : x'.settlement? = some (.ok r)) : r = (peer x'.ticket).response := by
  have hclosing : ∀ cause, (l.closeWith cause).1.exchange? = some x' →
      r = (peer x'.ticket).response := by
    intro cause hclosed
    rw [exchange?_closeWith] at hclosed
    obtain ⟨x, hx, rfl⟩ := Option.map_eq_some_iff.mp hclosed
    by_cases hslot : l.slot? = some x.ticket
    · simp [Exchange.told, hslot] at hs'
    · rw [Exchange.told, if_neg hslot] at hs' ⊢
      exact h.settled x r hx hs'
  cases hm with
  | registered =>
    obtain rfl : _ = x' := by simpa using hx'
    simp at hs'
  | wrote x count running | flushed x running =>
    obtain rfl : _ = x' := by simpa using hx'
    exact h.settled x r running hs'
  | settled a r' rest t delivering waiting =>
    obtain ⟨x, hx, rfl⟩ := Option.map_eq_some_iff.mp hx'
    cases h.turn with
    | idle gone => simp [gone] at hx
    | settled y s running free => simp [free] at waiting
    | waiting y running slot unsettled live =>
      -- The ticket that is settled is that of the exchange.
      obtain rfl : x = y := by simpa [hx] using running
      obtain rfl : x.ticket = t := by simpa [waiting] using slot.symm
      obtain rfl : r' = r := by simpa using hs'
      rw [Exchange.ticket_told]
      exact h.answer_eq hreading delivering hx slot live
  | stopped cause | closed | shutdownBegun => exact hclosing _ hx'
  | writeFailed | collected | expired | abandoned => simp [shut] at hx'
  | _ => exact h.settled x' r hx' hs'

/-- **A step keeps requests and answers together**, if what has arrived is the beginning of the
answers to the commands that are complete. -/
theorem Correlated.step (h : Correlated peer l es frames effects)
    (hframes : ∀ f ∈ frames, Wire.IsFrame f)
    (harrived : Link.received es <+: answers peer (complete effects)) (hm : Moves l e l' more) :
    Correlated peer l' (es ++ [e]) (frames ++ begunBy l e l') (effects ++ more) := by
  obtain ⟨-, k, hk, hresponses⟩ := reading_of_beginning harrived
  have hbound : (Reading.of (Link.received es)).responses.length ≤ l.nextTicket := by
    rw [hresponses, List.length_map, List.length_range, ← h.written.count]
    exact Nat.le_trans hk (h.written.onWire.complete_le hframes)
  constructor
  · exact h.turn.step hm
  · exact h.written.step hm
  · exact h.reads.step h.turn hm hbound
  · exact h.past.step h.written hm
  · intro x' r hx' hs'
    exact h.settled_step ⟨k, hresponses⟩ hm hx' hs'
  · intro t r hmem
    have hgrows : frames <+: frames ++ begunBy l e l' := List.prefix_append _ _
    rcases List.mem_append.mp hmem with hbefore | hnow
    · -- Nothing more is written for a request that has returned.
      obtain ⟨-, hne⟩ := h.past t _ hbefore
      exact (h.returned t r hbefore).mono hgrows (hm.acceptedOf_eq_nil hne)
    · obtain ⟨x, hx, rfl, -, -, hsilent, hwhy⟩ := hm.of_returned hnow
      rcases hwhy with ⟨err, herr, -⟩ | ⟨hflushed, hs, -⟩
      · simp at herr
      · have hanswered := (h.written.running x hx).answered hframes hflushed (h.settled x r hx hs)
        exact hanswered.mono hgrows (Link.acceptedOf_eq_nil hsilent)

/-! ## Lost requests -/

/-- Whether a request has ended without a response: it failed, it took too long, or its caller went
away. -/
def Effect.isLoss : Effect → Bool
  | .returned _ (.error _) => true
  | .abandoned _ => true
  | _ => false

/-- Whether a request has returned. -/
def Effect.isReturn : Effect → Bool
  | .returned _ _ => true
  | _ => false

/-- Once a request was lost, no request returns any more: the link is closed and idle. -/
structure Settles (l : Link) (effects : List Effect) : Prop where
  order : effects.Pairwise fun a b => a.isLoss = true → b.isReturn = false
  dead : ∀ a ∈ effects, a.isLoss = true → l.exchange? = none ∧ l.connected = false

theorem settles_of_no_loss (h : ∀ a ∈ effects, a.isLoss = false) : Settles l effects where
  order := by
    refine List.pairwise_of_forall_mem_list fun a ha b _ hloss => ?_
    simp [h a ha] at hloss
  dead := by
    intro a ha hloss
    simp [h a ha] at hloss

/-- A request may be lost at the end of a step that leaves the link closed and idle. -/
theorem settles_of_last (h : ∀ a ∈ effects, a.isLoss = false) (last : Effect)
    (hx : l.exchange? = none) (hc : l.connected = false) : Settles l (effects ++ [last]) where
  order := by
    refine List.pairwise_append.mpr
      ⟨(settles_of_no_loss (l := l) h).order, List.pairwise_singleton _ _, ?_⟩
    intro a ha b _ hloss
    simp [h a ha] at hloss
  dead := fun _ _ _ => ⟨hx, hc⟩

/-- A step that loses a request does nothing after that, and leaves the link closed and idle. -/
theorem Moves.settles (hm : Moves l e l' more) (hturn : Turn l) : Settles l' more := by
  have hclosing : ∀ cause, ∀ a ∈ (l.closeWith cause).2, a.isLoss = false := by
    intro cause a ha
    obtain ⟨t, rfl⟩ := eq_settled_of_mem_closeWith l cause ha
    rfl
  cases hm with
  | writeFailed | expired | abandoned =>
    exact settles_of_last (hclosing _) _ rfl (connected_closeWith l _)
  | collected x s running flushed settled =>
    cases s with
    | ok r => exact settles_of_no_loss (by simp [Effect.isLoss])
    | error err =>
      -- A request that is settled with an error is settled by closing.
      have hdead : l.connected = false := by
        refine Bool.eq_false_iff.mpr fun hconnected => ?_
        obtain ⟨r, hr⟩ := hturn.settlement_eq_ok running settled hconnected
        simp at hr
      have hnothing : ∀ a ∈ ([] : List Effect), a.isLoss = false := by simp
      exact settles_of_last hnothing _ rfl hdead
  | stopped cause | closed | shutdownBegun => exact settles_of_no_loss (hclosing _)
  | _ => exact settles_of_no_loss (by simp [Effect.isLoss])

theorem Settles.step (h : Settles l effects) (hturn : Turn l) (hm : Moves l e l' more) :
    Settles l' (effects ++ more) := by
  have hnow := hm.settles hturn
  constructor
  · refine List.pairwise_append.mpr ⟨h.order, hnow.order, fun a ha b hb hloss => ?_⟩
    obtain ⟨hx, -⟩ := h.dead a ha hloss
    refine Bool.eq_false_iff.mpr fun hreturn => ?_
    cases b with
    | returned t s =>
      obtain ⟨x, hrunning, -⟩ := hm.of_returned hb
      simp [hx] at hrunning
    | _ => simp [Effect.isReturn] at hreturn
  · intro a ha hloss
    rcases List.mem_append.mp ha with hbefore | hafter
    · obtain ⟨hx, hc⟩ := h.dead a hbefore hloss
      obtain ⟨hx', hc', -⟩ := hm.silent hx hc
      exact ⟨hx', hc'⟩
    · exact hnow.dead a hafter hloss

/-! ## The result -/

/-- The frames of all requests of a run, those included that found the link closed. -/
def Event.dispatches : Event → List Bytes
  | .begin frame => [frame]
  | _ => []

/-- The frames of all requests of a run, in their order. -/
def dispatched (es : List Event) : List Bytes := es.flatMap Event.dispatches

theorem dispatched_snoc (es : List Event) (e : Event) :
    dispatched (es ++ [e]) = dispatched es ++ e.dispatches := by
  simp [dispatched]

/-- Requests that find the link closed come after all those that do not. -/
theorem begun_of_run {l₀ : Link} (hrun : Run Link.step l₀ es l effects) :
    (l.connected = true → begun l₀ es = dispatched es) ∧ begun l₀ es <+: dispatched es := by
  induction hrun with
  | nil => exact ⟨fun _ => rfl, List.prefix_refl _⟩
  | @snoc es l₁ effects₁ e l₂ more hrun hstep ih =>
    obtain ⟨hsame, hgrows⟩ := ih
    have hm := moves_of_step hstep
    rw [begun, log_snoc hrun hstep, dispatched_snoc]
    by_cases hc : l₁.connected = true
    · have hnew : begunBy l₁ e l₂ = e.dispatches := by
        cases e with
        | begin frame => exact if_pos hc
        | _ => rfl
      have hall : log Link.step begunBy l₀ es = dispatched es := hsame hc
      rw [hnew, hall]
      exact ⟨fun _ => rfl, List.prefix_refl _⟩
    · have hnew : begunBy l₁ e l₂ = [] := by
        cases e with
        | begin frame => exact if_neg hc
        | _ => rfl
      rw [hnew, List.append_nil]
      constructor
      · intro hc'
        have hdead := hm.connected_eq_false (by simpa using hc)
        simp [hdead] at hc'
      · exact hgrows.trans (List.prefix_append _ _)

theorem correlated_of_run {options : LinkOptions} (hrun : Run Link.step (new options) es l effects)
    (hframes : ∀ f ∈ dispatched es, Wire.IsFrame f) (honest : Honest peer (new options) es) :
    Correlated peer l es (begun (new options) es) effects := by
  induction hrun with
  | nil => exact correlated_new options
  | @snoc es l₁ effects₁ e l₂ more hrun hstep ih =>
    rw [dispatched_snoc] at hframes
    have hbefore : ∀ f ∈ dispatched es, Wire.IsFrame f :=
      fun f hf => hframes f (List.mem_append_left _ hf)
    have hbegun : ∀ f ∈ begun (new options) es, Wire.IsFrame f :=
      fun f hf => hbefore f ((begun_of_run hrun).2.subset hf)
    have harrived := honest es (List.prefix_append _ _) l₁ effects₁ (run_eq_some_iff.mpr hrun)
    have hcorrelated := ih hbefore (honest.mono (List.prefix_append _ _))
    have hnext := hcorrelated.step hbegun harrived (moves_of_step hstep)
    rw [begun, log_snoc hrun hstep]
    exact hnext

theorem settles_of_run {options : LinkOptions} (hrun : Run Link.step (new options) es l effects) :
    Turn l ∧ Settles l effects := by
  induction hrun with
  | nil => exact ⟨turn_new options, List.Pairwise.nil, fun a ha => by simp at ha⟩
  | snoc hrun hstep ih =>
    obtain ⟨hturn, hsettles⟩ := ih
    have hm := moves_of_step hstep
    exact ⟨hturn.step hm, hsettles.step hturn hm⟩

/-- **What a request returns is the answer to its own frame.**  Whatever the order of events on a
link with an honest peer, a response that a request returns is the peer's answer to the frame that
this very request wrote; and once a request has failed, has taken too long or was abandoned, no
request returns any more, so that no other one gets its late response. -/
theorem returned_eq_answer {options : LinkOptions}
    (hrun : (new options).run es = some (l, effects))
    (hmade : ∀ frame ∈ dispatched es, ∃ c : Command, c.Made ∧ c.encode = frame)
    (honest : Honest peer (new options) es) :
    (∀ t r, .returned t (.ok r) ∈ effects → Answered peer (dispatched es) effects t r) ∧
      effects.Pairwise fun a b => a.isLoss = true → b.isReturn = false := by
  have hrun := run_eq_some_iff.mp hrun
  have hframes : ∀ f ∈ dispatched es, Wire.IsFrame f := by
    intro f hf
    obtain ⟨c, hc, rfl⟩ := hmade f hf
    exact hc.isFrame
  constructor
  · intro t r hmem
    have hanswered := (correlated_of_run hrun hframes honest).returned t r hmem
    have hsame := hanswered.mono (begun_of_run hrun).2 (show acceptedOf t [] = [] from rfl)
    rwa [List.append_nil] at hsame
  · exact (settles_of_run hrun).2.order

/-- A request that returns its response, which arrives in two chunks, and one that is abandoned
before its response arrives. -/
theorem returned_eq_answer_late :
    let frame := (Command.load "[]").encode
    let es : List Event := [.begin frame, .accept 2, .accept 4, .flush, .receive [79],
      .receive [104, 4], .deliver, .collect, .begin frame, .accept 6, .abandon,
      .receive [78, 104, 4], .deliver]
    let peer : Nat → Answer := fun i =>
      ⟨⟨if i = 0 then .ok else .serverError, [104]⟩, 0,
        show terminator ∉ [104] by decide, show Bytes.trimZeros [104] = [104] by decide⟩
    ∃ l effects, (new ⟨none, 100⟩).run es = some (l, effects) ∧
      .abandoned 1 ∈ effects ∧ .dropped ⟨.serverError, [104]⟩ ∈ effects ∧
      .returned 0 (.ok ⟨.ok, [104]⟩) ∈ effects ∧
      Answered peer (dispatched es) effects 0 ⟨.ok, [104]⟩ := by
  intro frame es peer
  have hrun : (new ⟨none, 100⟩).run es =
      some (⟨false, none, none, .listening (.new 100), false, none, 2⟩,
        [.registered 0, .wrote 0 [105, 109], .wrote 0 [112, 91, 93, 4],
          .settled 0 (.ok ⟨.ok, [104]⟩), .returned 0 (.ok ⟨.ok, [104]⟩), .registered 1,
          .wrote 1 [105, 109, 112, 91, 93, 4], .settled 1 (.error .connectionClosed),
          .abandoned 1, .dropped ⟨.serverError, [104]⟩]) := by cbv
  have hpayload : Command.ofPayload (.text "[]") = .ok (.load "[]") := by cbv
  have hmade : ∀ f ∈ dispatched es, ∃ c : Command, c.Made ∧ c.encode = f := by
    intro f hf
    have hframe : f = frame := by simpa [dispatched, es, Event.dispatches] using hf
    exact ⟨.load "[]", .load hpayload, hframe.symm⟩
  have honest : Honest peer (new ⟨none, 100⟩) es := by decide +kernel
  refine ⟨_, _, hrun, by simp, by simp, by simp, ?_⟩
  exact (returned_eq_answer hrun hmade honest).1 0 ⟨.ok, [104]⟩ (by simp)

end Link

end KvClient

import KvClient.Proofs.Link.Step

/-!
# What a link has written

The transport accepts a frame in pieces of any size, and an exchange may end in the middle of its
frame.  Yet what the transport has accepted is always a number of whole frames, in the order in
which their exchanges began, and after them at most one frame that is not whole.

## How it works

* **Each piece is the next part of the frame**: `Writing.wrote`.
* **Every step keeps the invariant**: `Written.step`, so that it holds in every run
  (`written_of_run`).
* **An exchange whose frame is not whole leaves a closed link behind**, and nothing follows it:
  `Written.ended`, `silent_of_run`.
-/

namespace KvClient.Link

/-! ## Reading a run -/

/-- The bytes that an effect put on the wire. -/
def Effect.bytes : Effect → Bytes
  | .wrote _ bytes => bytes
  | _ => []

/-- The bytes that an exchange put on the wire. -/
def Effect.bytesOf (t : Ticket) : Effect → Bytes
  | .wrote ticket bytes => if ticket = t then bytes else []
  | _ => []

/-- All bytes that the transport has accepted. -/
def accepted (effects : List Effect) : Bytes := effects.flatMap Effect.bytes

/-- The bytes that the transport has accepted from one exchange. -/
def acceptedOf (t : Ticket) (effects : List Effect) : Bytes := effects.flatMap (Effect.bytesOf t)

@[simp] theorem accepted_append (a b : List Effect) :
    accepted (a ++ b) = accepted a ++ accepted b :=
  List.flatMap_append

@[simp] theorem acceptedOf_append (t : Ticket) (a b : List Effect) :
    acceptedOf t (a ++ b) = acceptedOf t a ++ acceptedOf t b :=
  List.flatMap_append

theorem acceptedOf_eq_nil {t : Ticket} {effects : List Effect} (h : accepted effects = []) :
    acceptedOf t effects = [] := by
  refine List.flatMap_eq_nil_iff.mpr fun effect he => ?_
  have hb := List.flatMap_eq_nil_iff.mp h effect he
  cases effect with
  | wrote ticket bytes =>
    by_cases ht : ticket = t
    · simpa [Effect.bytesOf, Effect.bytes, ht] using hb
    · simp [Effect.bytesOf, ht]
  | _ => rfl

@[simp] theorem accepted_closeWith (l : Link) (cause : Error) :
    accepted (l.closeWith cause).2 = [] := by
  rw [effects_closeWith]
  cases l.slot? <;> rfl

/-- The frame of an exchange that an event begins. -/
def begunBy (l : Link) (e : Event) (_ : Link) : List Bytes :=
  match e with
  | .begin frame => if l.connected then [frame] else []
  | _ => []

/-- The frames of the exchanges that a run begins. -/
def begun (l : Link) (es : List Event) : List Bytes := log step begunBy l es

/-- Frames on the wire: all of them, or all but the last one and a part of that. -/
def OnWire (frames : List Bytes) (wire : Bytes) : Prop :=
  wire = frames.flatten ∨
    ∃ earlier last p, frames = earlier ++ [last] ∧ p <+: last ∧ p ≠ last ∧
      wire = earlier.flatten ++ p

/-! ## The invariant -/

/-- The exchange that runs is the last one, and its frame is on the wire as far as it was sent. -/
structure Writing (x : Exchange) (frames : List Bytes) (effects : List Effect) : Prop where
  last : ∃ earlier, frames = earlier ++ [x.frame] ∧ earlier.length = x.ticket ∧
    accepted effects = earlier.flatten ++ x.frame.take x.sent
  sent : x.sent ≤ x.frame.length
  whole : x.flushed = true → x.sent = x.frame.length
  own : acceptedOf x.ticket effects = x.frame.take x.sent

/-- The state of a link that has begun these frames, and has done all that. -/
structure Written (l : Link) (frames : List Bytes) (effects : List Effect) : Prop where
  count : frames.length = l.nextTicket
  running : ∀ x, l.exchange? = some x → Writing x frames effects
  gone : l.exchange? = none → OnWire frames (accepted effects)
  ready : l.exchange? = none → l.connected = true → accepted effects = frames.flatten
  fresh : ∀ t, l.nextTicket ≤ t → acceptedOf t effects = []

variable {l l' : Link} {e : Event} {frames : List Bytes} {effects more : List Effect}

theorem written_new (options : LinkOptions) : Written (new options) [] [] where
  count := rfl
  running := by intro x hx; simp [new] at hx
  gone := fun _ => .inl rfl
  ready := fun _ _ => rfl
  fresh := fun _ _ => rfl

theorem Writing.onWire {x : Exchange} (h : Writing x frames effects) :
    OnWire frames (accepted effects) := by
  obtain ⟨earlier, hframes, -, hwire⟩ := h.last
  -- A frame that is sent to its end counts as whole, flushed or not.
  by_cases hsent : x.sent = x.frame.length
  · refine .inl ?_
    rw [hwire, hframes, hsent, List.take_length]
    simp
  · refine .inr ⟨earlier, x.frame, x.frame.take x.sent, hframes, List.take_prefix _ _, ?_, hwire⟩
    intro heq
    have hlength := congrArg List.length heq
    have hle := h.sent
    simp only [List.length_take] at hlength
    omega

/-- **What is on the wire is a number of whole frames and at most one that is not.** -/
theorem Written.onWire (h : Written l frames effects) : OnWire frames (accepted effects) := by
  cases hx : l.exchange? with
  | none => exact h.gone hx
  | some x => exact (h.running x hx).onWire

/-- Once an exchange has written its whole frame, all frames are whole. -/
theorem Writing.eq_flatten {x : Exchange} (h : Writing x frames effects)
    (hflushed : x.flushed = true) : accepted effects = frames.flatten := by
  obtain ⟨earlier, hframes, -, hwire⟩ := h.last
  rw [hwire, hframes, h.whole hflushed, List.take_length]
  simp

/-- Effects that write nothing change nothing. -/
theorem Writing.of_silent {x : Exchange} (h : Writing x frames effects)
    (hmore : accepted more = []) : Writing x frames (effects ++ more) where
  last := by simpa [hmore] using h.last
  sent := h.sent
  whole := h.whole
  own := by simpa [acceptedOf_eq_nil hmore] using h.own

/-- What is told to an exchange does not touch its frame. -/
theorem Writing.told {x : Exchange} (h : Writing x frames effects) (t? : Option Ticket)
    (s : Settlement) : Writing (x.told t? s) frames effects where
  last := by simpa using h.last
  sent := by simpa using h.sent
  whole := by simpa using h.whole
  own := by simpa using h.own

/-- **Each piece is the next part of the frame.** -/
theorem Writing.wrote {x : Exchange} (h : Writing x frames effects) (count : Nat)
    (hfits : x.sent + count ≤ x.frame.length) (hpos : 0 < count) :
    Writing { x with sent := x.sent + count } frames
      (effects ++ [.wrote x.ticket ((x.frame.drop x.sent).take count)]) where
  last := by
    obtain ⟨earlier, hframes, hticket, hwire⟩ := h.last
    refine ⟨earlier, hframes, hticket, ?_⟩
    rw [accepted_append, hwire, List.append_assoc]
    show _ = earlier.flatten ++ x.frame.take (x.sent + count)
    rw [List.take_add]
    simp [accepted, Effect.bytes]
  sent := hfits
  whole := by
    intro hflushed
    have hwhole := h.whole hflushed
    omega
  own := by
    rw [acceptedOf_append, h.own, List.take_add]
    simp [acceptedOf, Effect.bytesOf]

theorem Writing.ticket_lt {x : Exchange} (h : Writing x frames effects)
    (hcount : frames.length = l.nextTicket) : x.ticket < l.nextTicket := by
  obtain ⟨earlier, hframes, hticket, -⟩ := h.last
  calc x.ticket = earlier.length := hticket.symm
    _ < (earlier ++ [x.frame]).length := by simp
    _ = l.nextTicket := hframes ▸ hcount

/-! ## Steps keep the invariant -/

/-- A step that begins nothing, writes nothing and ends no exchange. -/
theorem Written.quiet (h : Written l frames effects) (t? : Option Ticket) (s : Settlement)
    (hx : l'.exchange? = l.exchange?.map (·.told t? s)) (hn : l'.nextTicket = l.nextTicket)
    (hc : l'.connected = true → l.connected = true) (hmore : accepted more = []) :
    Written l' frames (effects ++ more) where
  count := h.count.trans hn.symm
  running := by
    intro x' hx'
    rw [hx] at hx'
    obtain ⟨x, hrunning, rfl⟩ := Option.map_eq_some_iff.mp hx'
    exact ((h.running x hrunning).told t? s).of_silent hmore
  gone := by
    intro hnone
    rw [hx, Option.map_eq_none_iff] at hnone
    simpa [hmore] using h.gone hnone
  ready := by
    intro hnone hconnected
    rw [hx, Option.map_eq_none_iff] at hnone
    simpa [hmore] using h.ready hnone (hc hconnected)
  fresh := by
    intro t ht
    rw [acceptedOf_append, h.fresh t (hn ▸ ht), acceptedOf_eq_nil hmore]
    rfl

/-- A step that ends the exchange, and leaves the link connected only if its frame is whole. -/
theorem Written.ended (h : Written l frames effects) {x : Exchange} (hx : l.exchange? = some x)
    (hx' : l'.exchange? = none) (hn : l'.nextTicket = l.nextTicket)
    (hc : l'.connected = true → x.flushed = true) (hmore : accepted more = []) :
    Written l' frames (effects ++ more) where
  count := h.count.trans hn.symm
  running := by
    intro y hy
    simp [hx'] at hy
  gone := by
    intro _
    simpa [hmore] using (h.running x hx).onWire
  ready := by
    intro _ hconnected
    simpa [hmore] using (h.running x hx).eq_flatten (hc hconnected)
  fresh := by
    intro t ht
    rw [acceptedOf_append, h.fresh t (hn ▸ ht), acceptedOf_eq_nil hmore]
    rfl

/-- A step that takes the exchange one piece further. -/
theorem Written.advanced (h : Written l frames effects) {x x' : Exchange}
    (hx : l.exchange? = some x) (hx' : l'.exchange? = some x') (hn : l'.nextTicket = l.nextTicket)
    (hwriting : Writing x' frames (effects ++ more))
    (hmore : ∀ t, t ≠ x.ticket → acceptedOf t more = []) :
    Written l' frames (effects ++ more) where
  count := h.count.trans hn.symm
  running := by
    intro y hy
    obtain rfl : x' = y := by simpa [hx'] using hy
    exact hwriting
  gone := by intro hnone; simp [hx'] at hnone
  ready := by intro hnone; simp [hx'] at hnone
  fresh := by
    intro t ht
    have hlt := (h.running x hx).ticket_lt h.count
    have hle : l.nextTicket ≤ t := hn ▸ ht
    rw [acceptedOf_append, h.fresh t hle, hmore t (Nat.ne_of_gt (Nat.lt_of_lt_of_le hlt hle))]
    rfl

/-- An exchange begins only on a link whose frames are all whole. -/
theorem Written.begun (h : Written l frames effects) (frame : Bytes) (hx : l.exchange? = none)
    (hc : l.connected = true) (hx' : l'.exchange? = some ⟨l.nextTicket, frame, 0, false, none⟩)
    (hn : l'.nextTicket = l.nextTicket + 1) (hmore : accepted more = []) :
    Written l' (frames ++ [frame]) (effects ++ more) where
  count := by simp [h.count, hn]
  running := by
    intro x hrunning
    obtain rfl : _ = x := by simpa [hx'] using hrunning
    constructor
    · -- The wire ends behind a whole frame, which is where the new one starts.
      refine ⟨frames, rfl, h.count, ?_⟩
      rw [accepted_append, hmore, h.ready hx hc]
      simp
    · exact Nat.zero_le _
    · intro hflushed; simp at hflushed
    · rw [acceptedOf_append, h.fresh _ (Nat.le_refl _), acceptedOf_eq_nil hmore]
      rfl
  gone := by intro hnone; simp [hx'] at hnone
  ready := by intro hnone; simp [hx'] at hnone
  fresh := by
    intro t ht
    have hle : l.nextTicket ≤ t := Nat.le_of_succ_le (Nat.le_trans (Nat.le_of_eq hn.symm) ht)
    rw [acceptedOf_append, h.fresh t hle, acceptedOf_eq_nil hmore]
    rfl

/-- **A step keeps the invariant.** -/
theorem Written.step (h : Written l frames effects) (hm : Moves l e l' more) :
    Written l' (frames ++ begunBy l e l') (effects ++ more) := by
  -- Every event but the one that begins an exchange begins no frame.
  have hnone : ∀ {new : List Bytes}, new = [] → Written l' frames (effects ++ more) →
      Written l' (frames ++ new) (effects ++ more) := by
    rintro _ rfl hwritten
    rwa [List.append_nil]
  cases hm with
  | registered frame idle live =>
    rw [begunBy, if_pos live]
    exact h.begun frame idle live rfl rfl rfl
  | refused frame idle dead =>
    refine hnone (if_neg (by simp [dead])) ?_
    exact h.quiet none (.error .connectionClosed) (by simp) rfl id rfl
  | wrote x count running pos fits =>
    refine hnone rfl ?_
    have hwriting := (h.running x running).wrote count fits pos
    refine h.advanced running rfl rfl hwriting fun t ht => ?_
    simp [acceptedOf, Effect.bytesOf, ht.symm]
  | flushed x running whole =>
    refine hnone rfl ?_
    have hwriting := (h.running x running).of_silent (show accepted [] = [] from rfl)
    refine h.advanced running rfl rfl ?_ fun _ _ => rfl
    exact ⟨hwriting.last, hwriting.sent, fun _ => whole, hwriting.own⟩
  | writeFailed x running | expired x limit running | abandoned x running =>
    refine hnone rfl (h.ended running rfl (nextTicket_closeWith l _) ?_ ?_)
    · intro hconnected
      simp [shut] at hconnected
    · rw [accepted_append, accepted_closeWith]
      rfl
  | collected x s running flushed =>
    exact hnone rfl (h.ended running rfl rfl (fun _ => flushed) rfl)
  | received | streamEnded | readFailed | dropped | shutdownFinished =>
    refine hnone rfl ?_
    exact h.quiet none (.error .connectionClosed) (by simp) rfl id rfl
  | settled a r rest t =>
    exact hnone rfl (h.quiet _ _ rfl rfl id rfl)
  | stopped cause | closed | shutdownBegun =>
    refine hnone rfl (h.quiet _ _ (exchange?_closeWith l _) (nextTicket_closeWith l _) ?_ ?_)
    · intro hconnected
      simp at hconnected
    · exact accepted_closeWith l _

/-- **In every run the invariant holds.** -/
theorem written_of_run {options : LinkOptions} {es : List Event}
    (h : Run step (new options) es l effects) :
    Written l (Link.begun (new options) es) effects := by
  induction h with
  | nil => exact written_new options
  | snoc hrun hstep ih =>
    rw [Link.begun, log_snoc hrun hstep]
    exact ih.step (moves_of_step hstep)

/-! ## After the end -/

/-- On a closed link without an exchange nothing is written any more. -/
theorem Moves.silent (hm : Moves l e l' more) (hx : l.exchange? = none)
    (hc : l.connected = false) :
    l'.exchange? = none ∧ l'.connected = false ∧ accepted more = [] ∧ begunBy l e l' = [] := by
  refine ⟨?_, hm.connected_eq_false hc, ?_, ?_⟩
  · cases hm with
    | registered frame idle live => simp [hc] at live
    | settled | stopped | closed | shutdownBegun => simp [hx]
    | wrote x count running | flushed x running => simp [hx] at running
    | writeFailed | expired | abandoned | collected => rfl
    | _ => exact hx
  · cases hm with
    | wrote x count running => simp [hx] at running
    | writeFailed x running | expired x limit running | abandoned x running => simp [hx] at running
    | stopped | closed | shutdownBegun => exact accepted_closeWith l _
    | _ => rfl
  · cases hm with
    | registered frame idle live => simp [hc] at live
    | refused frame idle dead => simp [begunBy, hc]
    | _ => rfl

/-- **What an exchange left unfinished is never followed by anything.** -/
theorem silent_of_run {es : List Event} (h : Run step l es l' more) (hx : l.exchange? = none)
    (hc : l.connected = false) :
    l'.exchange? = none ∧ l'.connected = false ∧ accepted more = [] ∧ Link.begun l es = [] := by
  induction h with
  | nil => exact ⟨hx, hc, rfl, rfl⟩
  | snoc hrun hstep ih =>
    obtain ⟨hx₁, hc₁, hmore₁, hbegun₁⟩ := ih
    obtain ⟨hx₂, hc₂, hmore₂, hbegun₂⟩ := (moves_of_step hstep).silent hx₁ hc₁
    refine ⟨hx₂, hc₂, ?_, ?_⟩
    · rw [accepted_append, hmore₁, hmore₂]
      rfl
    · rw [Link.begun, log_snoc hrun hstep, hbegun₂, List.append_nil]
      exact hbegun₁

end KvClient.Link

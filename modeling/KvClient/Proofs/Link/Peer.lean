import KvClient.Proofs.Link.Written
import KvClient.Proofs.Reassembly
import Mathlib.Data.List.Infix

/-!
# The peer of a link

A peer answers each command once it has received all of it, in order, with one valid response frame.
It may stop at any byte.  So what has arrived from it is at any time the beginning of its answers to
the commands that are complete on the wire.

* **An answer is any frame that is a response**: `exists_answer`.
* **What an honest peer sent reads as its first answers**: `reading_of_beginning`.
-/

namespace KvClient

/-! ## Answers -/

/-- A valid response frame: the response and the zeros behind its payload. -/
structure Answer where
  response : Response
  padding : Nat
  unreserved : terminator ∉ response.payload
  trimmed : Bytes.trimZeros response.payload = response.payload

namespace Answer

/-- The bytes of an answer. -/
def frame (a : Answer) : Bytes := a.response.encode a.padding

/-- The frame in front of its terminator. -/
def body (a : Answer) : Bytes :=
  a.response.status.byte :: (a.response.payload ++ Bytes.zeros a.padding)

theorem frame_eq (a : Answer) : a.frame = a.body ++ [terminator] := rfl

theorem not_mem_body (a : Answer) : terminator ∉ a.body :=
  a.response.status.terminator_not_mem_cons
    (terminator_not_mem_append_zeros a.unreserved a.padding)

theorem isFrame (a : Answer) : Wire.IsFrame a.frame := ⟨a.body, a.frame_eq, a.not_mem_body⟩

theorem dropLast_frame (a : Answer) : a.frame.dropLast = a.body := by
  rw [a.frame_eq, List.dropLast_concat]

theorem ofSegment_body (a : Answer) : Response.ofSegment a.body = .ok a.response :=
  Response.ofSegment_eq_ok_iff.mpr
    ⟨⟨a.padding, rfl⟩, (Bytes.trimZeros_eq_self_iff a.response.payload).mp a.trimmed⟩

end Answer

/-- **An answer is any frame that is a response.** -/
theorem exists_answer {segment : Bytes} (h : terminator ∉ segment) {r : Response}
    (hr : Response.ofSegment segment = .ok r) :
    ∃ a : Answer, a.response = r ∧ a.frame = segment ++ [terminator] := by
  obtain ⟨⟨n, rfl⟩, hlast⟩ := Response.ofSegment_eq_ok_iff.mp hr
  have hpayload : terminator ∉ r.payload := fun hm =>
    h (List.mem_cons_of_mem _ (List.mem_append_left _ hm))
  have htrimmed := (Bytes.trimZeros_eq_self_iff r.payload).mpr hlast
  exact ⟨⟨r, n, hpayload, htrimmed⟩, rfl, rfl⟩

/-! ## What a peer sends -/

/-- The answers of a peer to the first `n` commands. -/
def answers (peer : Nat → Answer) (n : Nat) : Bytes :=
  ((List.range n).map fun i => (peer i).frame).flatten

/-- Segments that are responses read as these. -/
theorem readSegments_map {ι : Type} (g : ι → Bytes) (f : ι → Response) (is : List ι)
    (h : ∀ i ∈ is, Response.ofSegment (g i) = .ok (f i)) :
    readSegments (is.map g) = (is.map f, none) := by
  induction is with
  | nil => rfl
  | cons i is ih =>
    obtain ⟨hi, his⟩ := List.forall_mem_cons.mp h
    rw [List.map_cons, readSegments, hi, ih his]
    rfl

/-- **What an honest peer sent reads as its first answers**, at whichever byte it stopped. -/
theorem reading_of_beginning {peer : Nat → Answer} {n : Nat} {stream : Bytes}
    (h : stream <+: answers peer n) :
    (Reading.of stream).fault? = none ∧
      ∃ k ≤ n, (Reading.of stream).responses = (List.range k).map fun i => (peer i).response := by
  have hframes : ∀ f ∈ (List.range n).map fun i => (peer i).frame, Wire.IsFrame f := by
    intro f hf
    obtain ⟨i, -, rfl⟩ := List.mem_map.mp hf
    exact (peer i).isFrame
  have hsplit : (Wire.split (answers peer n)).1 = (List.range n).map fun i => (peer i).body := by
    rw [answers, Wire.split_flatten hframes, List.map_map]
    exact List.map_congr_left fun i _ => (peer i).dropLast_frame
  -- The segments of a beginning are the first ones.
  have hprefix := Wire.segments_mono h
  rw [hsplit, List.prefix_iff_eq_take, ← List.map_take, List.take_range] at hprefix
  have hreads := readSegments_map (fun i => (peer i).body) (fun i => (peer i).response)
    (List.range (min (Wire.split stream).1.length n)) fun i _ => (peer i).ofSegment_body
  rw [← hprefix] at hreads
  refine ⟨congrArg Prod.snd hreads, min (Wire.split stream).1.length n, Nat.min_le_right _ _, ?_⟩
  exact congrArg Prod.fst hreads

namespace Link

/-! ## Honest peers -/

/-- The bytes that have arrived. -/
def Event.bytes : Event → Bytes
  | .receive chunk => chunk
  | _ => []

/-- All bytes that have arrived. -/
def received (es : List Event) : Bytes := es.flatMap Event.bytes

/-- How many commands are complete on the wire. -/
def complete (effects : List Effect) : Nat := (Wire.split (accepted effects)).1.length

/-- At no moment of a run has more arrived than the answers of the peer to the commands that were
complete by then. -/
def Honest (peer : Nat → Answer) (l : Link) (es : List Event) : Prop :=
  ∀ before, before <+: es → ∀ l' effects, l.run before = some (l', effects) →
    received before <+: answers peer (complete effects)

theorem Honest.mono {peer : Nat → Answer} {l : Link} {es es' : List Event}
    (h : Honest peer l es) (hp : es' <+: es) : Honest peer l es' :=
  fun before hb => h before (hb.trans hp)

theorem honest_iff {peer : Nat → Answer} {l : Link} {es : List Event} :
    Honest peer l es ↔ ∀ before ∈ es.inits, ∀ p ∈ l.run before,
      received before <+: answers peer (complete p.2) := by
  constructor
  · intro h before hb p hp
    exact h before ((List.mem_inits _ _).mp hb) p.1 p.2 hp
  · intro h before hb l' effects hrun
    exact h before ((List.mem_inits _ _).mpr hb) (l', effects) hrun

instance (peer : Nat → Answer) (l : Link) (es : List Event) : Decidable (Honest peer l es) :=
  decidable_of_iff _ honest_iff.symm

/-- A stream of frames of which the last may be cut holds no other complete frame. -/
theorem OnWire.segments_of_frames {frames : List Bytes} {wire : Bytes} (h : OnWire frames wire)
    (hframes : ∀ f ∈ frames, Wire.IsFrame f) :
    (Wire.split wire).1 <+: frames.map List.dropLast := by
  rcases h with rfl | ⟨earlier, last, p, rfl, hp, hne, rfl⟩
  · exact (congrArg Prod.fst (Wire.split_flatten hframes)).subst List.prefix_rfl
  · obtain ⟨hearlier, hlast⟩ := List.forall_mem_append.mp hframes
    have hnot := (hlast last (List.mem_singleton_self _)).not_mem_of_part hp hne
    rw [Wire.split_flatten_append hearlier, Wire.split_of_not_mem hnot, List.map_append,
      List.append_nil]
    exact List.prefix_append _ _

theorem OnWire.complete_le {frames : List Bytes} {effects : List Effect}
    (h : OnWire frames (accepted effects)) (hframes : ∀ f ∈ frames, Wire.IsFrame f) :
    complete effects ≤ frames.length := by
  have hle := (h.segments_of_frames hframes).length_le
  rwa [List.length_map] at hle

end Link

end KvClient

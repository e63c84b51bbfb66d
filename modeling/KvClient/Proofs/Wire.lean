import KvClient.Wire

/-!
# Streams of frames

A frame is a byte string that ends in a terminator and holds no other.  A stream of frames can be
cut at any place, and what was cut off so far stays as it is.

* **Cutting loses nothing**: `flatMap_split`.
* **A stream can be cut piece by piece**: `split_append`.
* **A stream of frames is cut into them**: `split_flatten`.
-/

namespace KvClient.Wire

/-! ## Cutting one stream -/

theorem split_of_cut?_none {bytes : Bytes} (h : cut? bytes = none) : split bytes = ([], bytes) := by
  rw [split.eq_def]
  split
  · rfl
  · next hc => rw [h] at hc; simp at hc

theorem split_of_cut?_some {bytes segment rest : Bytes} (h : cut? bytes = some (segment, rest)) :
    split bytes = (segment :: (split rest).1, (split rest).2) := by
  rw [split.eq_def]
  split
  · next hc => rw [h] at hc; simp at hc
  · next hc =>
    rw [h] at hc
    obtain ⟨rfl, rfl⟩ := Prod.mk.inj (Option.some.inj hc)
    rfl

theorem split_of_not_mem {bytes : Bytes} (h : terminator ∉ bytes) : split bytes = ([], bytes) :=
  split_of_cut?_none (cut?_eq_none.mpr h)

theorem split_cons_segment {segment : Bytes} (rest : Bytes) (h : terminator ∉ segment) :
    split (segment ++ terminator :: rest) = (segment :: (split rest).1, (split rest).2) :=
  split_of_cut?_some (cut?_append rest h)

/-- A stream is a number of segments, each with its terminator, and a tail without any. -/
theorem split_induction {P : Bytes → Prop} (tail : ∀ bytes, terminator ∉ bytes → P bytes)
    (segment : ∀ segment rest, terminator ∉ segment → P rest →
      P (segment ++ terminator :: rest)) (bytes : Bytes) : P bytes := by
  cases hc : cut? bytes with
  | none => exact tail bytes (cut?_eq_none.mp hc)
  | some p =>
    obtain ⟨s, rest⟩ := p
    have hlt : rest.length < bytes.length := by
      have := length_of_cut? hc
      omega
    obtain ⟨rfl, hs⟩ := cut?_eq_some hc
    exact segment s rest hs (split_induction tail segment rest)
termination_by bytes.length

theorem not_mem_tail (bytes : Bytes) : terminator ∉ (split bytes).2 := by
  induction bytes using split_induction with
  | tail bytes h => rw [split_of_not_mem h]; exact h
  | segment s rest h ih => rw [split_cons_segment rest h]; exact ih

/-- **Cutting loses nothing.** -/
theorem flatMap_split (bytes : Bytes) :
    (split bytes).1.flatMap (· ++ [terminator]) ++ (split bytes).2 = bytes := by
  induction bytes using split_induction with
  | tail bytes h => rw [split_of_not_mem h]; simp
  | segment s rest h ih =>
    rw [split_cons_segment rest h, List.flatMap_cons, List.append_assoc, ih]
    simp

/-! ## Cutting piece by piece -/

/-- **A stream can be cut piece by piece.**  The tail of the first piece goes in front of the
next. -/
theorem split_append (a b : Bytes) :
    split (a ++ b) =
      ((split a).1 ++ (split ((split a).2 ++ b)).1, (split ((split a).2 ++ b)).2) := by
  induction a using split_induction with
  | tail a h => rw [split_of_not_mem h]; simp
  | segment s rest h ih =>
    rw [List.append_assoc, List.cons_append, split_cons_segment _ h, split_cons_segment _ h, ih]
    simp

theorem segments_prefix_append (a b : Bytes) : (split a).1 <+: (split (a ++ b)).1 := by
  rw [split_append a b]
  exact List.prefix_append _ _

theorem segments_mono {a b : Bytes} (h : a <+: b) : (split a).1 <+: (split b).1 := by
  obtain ⟨rest, rfl⟩ := h
  exact segments_prefix_append a rest

/-! ## Frames -/

/-- A byte string that ends in a terminator and holds no other. -/
def IsFrame (frame : Bytes) : Prop := ∃ body, frame = body ++ [terminator] ∧ terminator ∉ body

namespace IsFrame

variable {frame : Bytes}

theorem dropLast_append (h : IsFrame frame) : frame.dropLast ++ [terminator] = frame := by
  obtain ⟨body, rfl, -⟩ := h
  rw [List.dropLast_concat]

theorem count (h : IsFrame frame) : frame.count terminator = 1 := by
  obtain ⟨body, rfl, hb⟩ := h
  rw [List.count_append, List.count_eq_zero_of_not_mem hb]
  rfl

theorem getLast? (h : IsFrame frame) : frame.getLast? = some terminator := by
  obtain ⟨body, rfl, -⟩ := h
  exact List.getLast?_concat

/-- A proper beginning of a frame holds no terminator. -/
theorem not_mem_of_part (h : IsFrame frame) {p : Bytes} (hp : p <+: frame) (hne : p ≠ frame) :
    terminator ∉ p := by
  obtain ⟨body, rfl, hb⟩ := h
  rcases List.prefix_concat_iff.mp hp with rfl | hp
  · exact absurd rfl hne
  · exact fun hm => hb (hp.subset hm)

theorem split_append (h : IsFrame frame) (rest : Bytes) :
    split (frame ++ rest) = (frame.dropLast :: (split rest).1, (split rest).2) := by
  obtain ⟨body, rfl, hb⟩ := h
  rw [List.append_assoc, List.singleton_append, split_cons_segment rest hb, List.dropLast_concat]

end IsFrame

/-- **A stream of frames is cut into them**, and what follows has no part in that. -/
theorem split_flatten_append {frames : List Bytes} (h : ∀ f ∈ frames, IsFrame f) (rest : Bytes) :
    split (frames.flatten ++ rest) =
      (frames.map List.dropLast ++ (split rest).1, (split rest).2) := by
  induction frames with
  | nil => simp
  | cons f frames ih =>
    obtain ⟨hf, hfs⟩ := List.forall_mem_cons.mp h
    rw [List.flatten_cons, List.append_assoc, hf.split_append, ih hfs]
    simp

theorem split_flatten {frames : List Bytes} (h : ∀ f ∈ frames, IsFrame f) :
    split frames.flatten = (frames.map List.dropLast, []) := by
  have hsplit := split_flatten_append h []
  rw [List.append_nil, split_of_not_mem (by simp : terminator ∉ ([] : Bytes))] at hsplit
  simpa using hsplit

/-- The segments of a stream of frames are the frames without their terminators. -/
theorem map_segments {frames : List Bytes} (h : ∀ f ∈ frames, IsFrame f) :
    (frames.map List.dropLast).map (· ++ [terminator]) = frames := by
  calc (frames.map List.dropLast).map (· ++ [terminator])
      = frames.map (fun f => f.dropLast ++ [terminator]) := List.map_map
    _ = frames.map id := List.map_congr_left fun f hf => (h f hf).dropLast_append
    _ = frames := List.map_id frames

end KvClient.Wire

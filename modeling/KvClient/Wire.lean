import KvClient.Protocol

/-!
# Segments of a byte stream

A stream of frames is cut after each terminator.  What stands behind the last one is the tail, the
beginning of a frame that has not arrived completely.

* **Cutting loses nothing**: `cut?_eq_some`, `cut?_eq_none`.
* **A frame comes off whole**: `cut?_append`.
-/

namespace KvClient.Wire

/-- The bytes in front of the first terminator and those behind it, if there is one. -/
def cut? (bytes : Bytes) : Option (Bytes × Bytes) :=
  match bytes.dropWhile (· != terminator) with
  | [] => none
  | _ :: rest => some (bytes.takeWhile (· != terminator), rest)

theorem cut?_nil : cut? [] = none := rfl

theorem cut?_cons (b : UInt8) (rest : Bytes) :
    cut? (b :: rest) =
      if b = terminator then some ([], rest)
      else (cut? rest).map fun p => (b :: p.1, p.2) := by
  by_cases hb : b = terminator
  · simp [cut?, hb]
  · have hne : (b != terminator) = true := by simpa using hb
    simp only [cut?, List.dropWhile_cons, hne, if_true, List.takeWhile_cons, hb, if_false]
    cases List.dropWhile (· != terminator) rest <;> rfl

theorem cut?_append {segment : Bytes} (rest : Bytes) (h : terminator ∉ segment) :
    cut? (segment ++ terminator :: rest) = some (segment, rest) := by
  induction segment with
  | nil => simp [cut?_cons]
  | cons b segment ih =>
    obtain ⟨hb, hs⟩ := (not_or.mp fun hm => h (List.mem_cons.mpr hm))
    simp [cut?_cons, Ne.symm hb, ih hs]

theorem cut?_eq_none {bytes : Bytes} : cut? bytes = none ↔ terminator ∉ bytes := by
  induction bytes with
  | nil => simp [cut?_nil]
  | cons b rest ih =>
    by_cases hb : b = terminator
    · simp [cut?_cons, hb]
    · simp [cut?_cons, hb, ih, Ne.symm hb]

theorem cut?_eq_some {bytes segment rest : Bytes} (h : cut? bytes = some (segment, rest)) :
    bytes = segment ++ terminator :: rest ∧ terminator ∉ segment := by
  induction bytes generalizing segment with
  | nil => simp [cut?_nil] at h
  | cons b bytes ih =>
    by_cases hb : b = terminator
    · rw [cut?_cons, if_pos hb] at h
      obtain ⟨rfl, rfl⟩ := by simpa using h
      simp [hb]
    · rw [cut?_cons, if_neg hb] at h
      obtain ⟨⟨s, t⟩, hst, heq⟩ := Option.map_eq_some_iff.mp h
      obtain ⟨rfl, rfl⟩ : b :: s = segment ∧ t = rest := by simpa using heq
      obtain ⟨rfl, hm⟩ := ih hst
      exact ⟨rfl, fun h => (List.mem_cons.mp h).elim (Ne.symm hb) hm⟩

theorem length_of_cut? {bytes segment rest : Bytes} (h : cut? bytes = some (segment, rest)) :
    bytes.length = segment.length + 1 + rest.length := by
  rw [(cut?_eq_some h).1]
  simp
  omega

/-- The segments of a stream, each without its terminator, and the tail. -/
def split (bytes : Bytes) : List Bytes × Bytes :=
  match _h : cut? bytes with
  | none => ([], bytes)
  | some (segment, rest) => (segment :: (split rest).1, (split rest).2)
termination_by bytes.length
decreasing_by
  all_goals
    have := length_of_cut? _h
    omega

end KvClient.Wire

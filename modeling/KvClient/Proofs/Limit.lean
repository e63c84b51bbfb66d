import KvClient.Proofs.Reassembly

/-!
# What the limit bounds

The limit of an accumulator is compared with the bytes that wait for a terminator, once all complete
frames are gone.  It bounds what waits, and not the frames: a frame that arrives with its terminator
is never measured.

## How it works

* **An accumulator that is not failed is nothing but the bytes that wait**: `waiting`, which a chunk
  takes to the bytes that wait behind it (`feed_waiting`, `feedAll_new_eq_waiting`).
* **What a call answers is read off what it has before it**: `Reading.answer`.
* **What the limit comes to for a frame**: `feed_eq_tooLong_iff`, `limit_bounds_waiting`.
* **What becomes of an accumulator that has complained**: `after_error`.
-/

namespace KvClient

/-! ## Where responses come from -/

/-- Each response comes from the segment in its place. -/
theorem getElem?_readSegments {segments : List Bytes} {i : Nat} {r : Response}
    (h : (readSegments segments).1[i]? = some r) :
    ∃ segment, segments[i]? = some segment ∧ Response.ofSegment segment = .ok r := by
  induction segments generalizing i with
  | nil => simp [readSegments] at h
  | cons segment rest ih =>
    cases hs : Response.ofSegment segment with
    | error m => simp [readSegments, hs] at h
    | ok r' =>
      simp only [readSegments, hs] at h
      cases i with
      | zero =>
        obtain rfl : r' = r := by simpa using h
        exact ⟨segment, rfl, hs⟩
      | succ i => simpa using ih (by simpa using h)

/-- A segment is shorter than the stream that it was cut from. -/
theorem Wire.length_lt_of_mem_split {stream segment : Bytes} (h : segment ∈ (split stream).1) :
    segment.length < stream.length := by
  induction stream using split_induction with
  | tail bytes hnot => simp [split_of_not_mem hnot] at h
  | segment s rest hnot ih =>
    rw [split_cons_segment rest hnot] at h
    rw [List.length_append, List.length_cons]
    rcases List.mem_cons.mp h with rfl | hmem
    · omega
    · have := ih hmem
      omega

namespace Reading

/-- A fault of the first piece is one of the whole. -/
theorem fault?_of_append {a b : Bytes} (h : (of (a ++ b)).fault? = none) :
    (of a).fault? = none := by
  cases hm : (of a).fault? with
  | none => rfl
  | some m => exact absurd (h.symm.trans (of_append_of_fault b hm).2) (by simp)

/-- What a call answers that has such a stream before it, if `limit` bytes may wait. -/
def answer (limit : Nat) (reading : Reading) : Except Malformation (List Response) :=
  match reading.fault? with
  | some m => if reading.responses.isEmpty then .error m else .ok reading.responses
  | none =>
    if limit < reading.tail.length then .error (.tooLong limit) else .ok reading.responses

variable {limit : Nat} {reading : Reading}

theorem answer_of_fault {m : Malformation} (h : reading.fault? = some m) :
    reading.answer limit =
      if reading.responses.isEmpty then .error m else .ok reading.responses := by
  rw [answer, h]

theorem answer_of_le (h : reading.fault? = none) (hle : reading.tail.length ≤ limit) :
    reading.answer limit = .ok reading.responses := by
  rw [answer, h]
  exact if_neg (Nat.not_lt.mpr hle)

theorem answer_of_lt (h : reading.fault? = none) (hlt : limit < reading.tail.length) :
    reading.answer limit = .error (.tooLong limit) := by
  rw [answer, h]
  exact if_pos hlt

end Reading

namespace Accumulator

variable {limit : Nat} {tail : Bytes}

/-! ## The bytes that wait -/

/-- An accumulator in which `tail` waits for a terminator. -/
def waiting (limit : Nat) (tail : Bytes) : Accumulator := ⟨tail.toArray, tail.length, limit, none⟩

@[simp] theorem toList_buffer_waiting (limit : Nat) (tail : Bytes) :
    (waiting limit tail).buffer.toList = tail := rfl

theorem follows_waiting (limit : Nat) (h : terminator ∉ tail) :
    Follows (waiting limit tail) tail := by
  constructor
  · rw [Reading.of_of_not_mem h]
    rfl
  · intro _
    rw [Reading.of_of_not_mem h]
    rfl
  · intro _
    exact Nat.le_refl _

theorem takeResponses_waiting (h : terminator ∉ tail) {chunk : Bytes}
    (hfault : (Reading.of (tail ++ chunk)).fault? = none) :
    ((waiting limit tail).append chunk).takeResponses.2 =
      waiting limit (Reading.of (tail ++ chunk)).tail := by
  have hlist : ((waiting limit tail).append chunk).buffer.toList = tail ++ chunk := by
    simp [append, waiting]
  by_cases hf : ((waiting limit tail).append chunk).hasFrame = true
  · obtain ⟨-, hdrained, htail⟩ := drain_reading (tail ++ chunk)
    rw [hfault] at hdrained
    rw [takeResponses_of_hasFrame hf, hlist, hdrained, htail hfault]
    rfl
  · have hnot : terminator ∉ tail ++ chunk := fun hmem =>
      hf (((follows_waiting limit h).hasFrame_append rfl chunk).mpr hmem)
    rw [takeResponses_of_not_hasFrame hf, Reading.of_of_not_mem hnot]
    simp [append, waiting]

/-- **A chunk is answered for what waits together with it.** -/
theorem feed_waiting (limit : Nat) (h : terminator ∉ tail) (chunk : Bytes) :
    ((waiting limit tail).feed chunk).1 = (Reading.of (tail ++ chunk)).answer limit ∧
      ((Reading.of (tail ++ chunk)).fault? = none →
        ((waiting limit tail).feed chunk).2 = waiting limit (Reading.of (tail ++ chunk)).tail) := by
  obtain ⟨hresponses, hfailure, hlimit, hbuffer, -⟩ :=
    (follows_waiting limit h).takeResponses_append rfl chunk
  rw [toList_buffer_waiting] at hresponses hfailure hbuffer
  rw [feed_of_no_failure rfl]
  refine ⟨?_, takeResponses_waiting h⟩
  rw [verdict, hresponses, hfailure, hlimit, Reading.answer]
  cases hfault : (Reading.of (tail ++ chunk)).fault? with
  | some m => rfl
  | none =>
    have hsize := congrArg List.length (hbuffer hfault)
    rw [Array.length_toList] at hsize
    rw [hsize]
    rfl

theorem feedAll_waiting (h : terminator ∉ tail) (chunks : List Bytes)
    (hfault : (Reading.of (tail ++ chunks.flatten)).fault? = none) :
    ((waiting limit tail).feedAll chunks).2 =
      waiting limit (Reading.of (tail ++ chunks.flatten)).tail := by
  induction chunks generalizing tail with
  | nil => simp [feedAll, Reading.of_of_not_mem h]
  | cons chunk rest ih =>
    rw [List.flatten_cons, ← List.append_assoc] at hfault ⊢
    have hfirst := Reading.fault?_of_append hfault
    rw [Reading.of_append rest.flatten hfirst] at hfault ⊢
    rw [feedAll, (feed_waiting limit h chunk).2 hfirst]
    exact ih (Reading.not_mem_tail _) hfault

/-- An accumulator that has taken in chunks follows the stream of them. -/
theorem follows_feedAll_new (limit : Nat) (chunks : List Bytes) :
    Follows ((new limit).feedAll chunks).2 chunks.flatten := by
  have h := (follows_new limit).feedAll chunks
  rwa [List.nil_append] at h

/-- **An accumulator that is not failed is nothing but the bytes that wait.** -/
theorem feedAll_new_eq_waiting {chunks : List Bytes}
    (h : ((new limit).feedAll chunks).2.isFailed = false) :
    (Reading.of chunks.flatten).fault? = none ∧
      ((new limit).feedAll chunks).2 = waiting limit (Reading.of chunks.flatten).tail := by
  have hfollows := follows_feedAll_new limit chunks
  have hfault : (Reading.of chunks.flatten).fault? = none := by
    rwa [hfollows.isFailed_eq, Option.isSome_eq_false_iff, Option.isNone_iff_eq_none] at h
  refine ⟨hfault, ?_⟩
  have hwaiting := @feedAll_waiting limit [] (by simp) chunks
  rw [List.nil_append] at hwaiting
  exact hwaiting hfault

/-- **A call is answered for what waited together with the chunk**, and that is what the chunk adds
to the reading of the stream. -/
theorem feed_of_sound {chunks : List Bytes}
    (h : ((new limit).feedAll chunks).2.isFailed = false) (chunk : Bytes) :
    let reading := Reading.of ((Reading.of chunks.flatten).tail ++ chunk)
    let whole := Reading.of (chunks.flatten ++ chunk)
    (((new limit).feedAll chunks).2.feed chunk).1 = reading.answer limit ∧
      whole.responses = (Reading.of chunks.flatten).responses ++ reading.responses ∧
      whole.fault? = reading.fault? ∧ whole.tail = reading.tail := by
  intro reading whole
  obtain ⟨hfault, hwaiting⟩ := feedAll_new_eq_waiting h
  have happend : whole = _ := Reading.of_append chunk hfault
  rw [hwaiting, happend]
  exact ⟨(feed_waiting limit (Reading.not_mem_tail _) chunk).1, rfl, rfl, rfl⟩

/-! ## What the limit comes to for a frame -/

/-- What a call answered was answered to the accumulator that had taken in the chunks before. -/
theorem mem_feedAll {a : Accumulator} {chunks : List Bytes}
    {x : Except Malformation (List Response)} :
    x ∈ (a.feedAll chunks).1 ↔ ∃ earlier chunk later, chunks = earlier ++ chunk :: later ∧
      x = ((a.feedAll earlier).2.feed chunk).1 := by
  induction chunks generalizing a with
  | nil => simp [feedAll]
  | cons chunk rest ih =>
    rw [feedAll, List.mem_cons, ih]
    constructor
    · rintro (rfl | ⟨earlier, chunk', later, rfl, rfl⟩)
      · exact ⟨[], chunk, rest, rfl, rfl⟩
      · exact ⟨chunk :: earlier, chunk', later, rfl, rfl⟩
    · rintro ⟨earlier, chunk', later, heq, rfl⟩
      cases earlier with
      | nil =>
        obtain ⟨rfl, rfl⟩ := List.cons.inj heq
        exact .inl rfl
      | cons first earlier =>
        obtain ⟨rfl, rfl⟩ := List.cons.inj heq
        exact .inr ⟨earlier, chunk', later, rfl, rfl⟩

/-- **What is too long is what waits.**  A call complains exactly if the bytes behind the last
terminator exceed the limit, and no segment in front of it is bad. -/
theorem feed_eq_tooLong_iff (limit : Nat) (chunks : List Bytes) (chunk : Bytes) :
    (((new limit).feedAll chunks).2.feed chunk).1 = .error (.tooLong limit) ↔
      (Reading.of (chunks.flatten ++ chunk)).fault? = none ∧
        limit < (Reading.of (chunks.flatten ++ chunk)).tail.length := by
  cases hfailed : ((new limit).feedAll chunks).2.isFailed with
  | true =>
    have hfollows := follows_feedAll_new limit chunks
    obtain ⟨m, hm⟩ := Option.isSome_iff_exists.mp hfailed
    have hfault := hfollows.failure.symm.trans hm
    have hne : m ≠ .tooLong limit := by
      rintro rfl
      exact Reading.fault?_ne_tooLong _ _ hfault
    rw [feed_of_failure hm, (Reading.of_append_of_fault chunk hfault).2]
    simp [hne]
  | false =>
    obtain ⟨hanswer, -, hfault, htail⟩ := feed_of_sound hfailed chunk
    have hne := Reading.fault?_ne_tooLong ((Reading.of chunks.flatten).tail ++ chunk)
    rw [hanswer, hfault, htail]
    generalize Reading.of ((Reading.of chunks.flatten).tail ++ chunk) = reading at hne
    cases hreading : reading.fault? with
    | some m =>
      have hm : m ≠ .tooLong limit := by
        rintro rfl
        exact hne _ hreading
      rw [Reading.answer_of_fault hreading]
      cases reading.responses <;> simp [hm]
    | none =>
      by_cases hlt : limit < reading.tail.length
      · simp [Reading.answer_of_lt hreading hlt, hlt]
      · simp [Reading.answer_of_le hreading (Nat.not_lt.mp hlt), hlt]

/-- A frame that arrives whole is one response, and what is behind it waits. -/
theorem reading_of_frame {segment rest : Bytes} {r : Response} (h : terminator ∉ segment)
    (hr : Response.ofSegment segment = .ok r) (hrest : terminator ∉ rest) :
    Reading.of (segment ++ terminator :: rest) = ⟨[r], none, rest⟩ := by
  rw [Reading.of_segment rest h, hr, Reading.of_of_not_mem hrest]

/-- Without a terminator a chunk gives nothing back, and waits with the rest. -/
theorem feed_waiting_of_not_mem (limit : Nat) {chunk : Bytes} (h : terminator ∉ tail ++ chunk) :
    given ((waiting limit tail).feed chunk).1 = [] ∧
      ((waiting limit tail).feed chunk).2 = waiting limit (tail ++ chunk) := by
  have htail : terminator ∉ tail := fun hmem => h (List.mem_append_left _ hmem)
  obtain ⟨hanswer, hstate⟩ := feed_waiting limit htail chunk
  rw [Reading.of_of_not_mem h] at hanswer hstate
  refine ⟨?_, hstate rfl⟩
  rw [hanswer, Reading.answer]
  by_cases hlt : limit < (tail ++ chunk).length
  · rw [if_pos hlt]
    rfl
  · rw [if_neg hlt]
    rfl

/-- The end of a frame gives it back, and nothing waits behind it. -/
theorem feed_waiting_of_frame (limit : Nat) {segment : Bytes} {r : Response}
    (h : terminator ∉ tail ++ segment) (hr : Response.ofSegment (tail ++ segment) = .ok r) :
    ((waiting limit tail).feed (segment ++ [terminator])).1 = .ok [r] ∧
      ((waiting limit tail).feed (segment ++ [terminator])).2 = waiting limit [] := by
  have htail : terminator ∉ tail := fun hmem => h (List.mem_append_left _ hmem)
  obtain ⟨hanswer, hstate⟩ := feed_waiting limit htail (segment ++ [terminator])
  rw [← List.append_assoc, reading_of_frame h hr (by simp)] at hanswer hstate
  exact ⟨hanswer.trans (Reading.answer_of_le rfl (Nat.zero_le _)), hstate rfl⟩

/-- Empty chunks give nothing back. -/
theorem given_feedAll_of_flatten_eq_nil {chunks : List Bytes} (h : chunks.flatten = []) :
    ((waiting limit []).feedAll chunks).1.flatMap given = [] := by
  have hnil : terminator ∉ ([] : Bytes) := by simp
  have hfollows := follows_waiting limit hnil
  have hfits := hfollows.not_isOversize_feedAll chunks fun run hrun _ => by
    rw [h] at hrun
    simp [List.eq_nil_of_infix_nil hrun]
  have hgiven := hfollows.given_feedAll chunks hfits
  rw [h, List.append_nil, Reading.of_of_not_mem hnil] at hgiven
  exact hgiven.symm

/-- **A frame is given back whatever its length.**  Its own call does not measure it, and a call
that complained before has kept what waits. -/
theorem given_feedAll_frame {segment : Bytes} {r : Response} {chunks : List Bytes}
    (h : terminator ∉ tail ++ segment) (hr : Response.ofSegment (tail ++ segment) = .ok r)
    (hchunks : chunks.flatten = segment ++ [terminator]) :
    ((waiting limit tail).feedAll chunks).1.flatMap given = [r] := by
  induction chunks generalizing tail segment with
  | nil => simp at hchunks
  | cons chunk rest ih =>
    rw [List.flatten_cons] at hchunks
    rw [feedAll, List.flatMap_cons]
    by_cases hend : rest.flatten = []
    · -- The chunk is the end of the frame.
      rw [hend, List.append_nil] at hchunks
      subst hchunks
      obtain ⟨hanswer, hstate⟩ := feed_waiting_of_frame limit h hr
      rw [hanswer, hstate, given_feedAll_of_flatten_eq_nil hend]
      rfl
    · -- The chunk ends inside the frame.
      obtain ⟨more, rfl, hmore⟩ : ∃ more, segment = chunk ++ more ∧
          rest.flatten = more ++ [terminator] := by
        rcases List.append_eq_append_iff.mp hchunks with ⟨more, rfl, hmore⟩ | ⟨beyond, rfl, hbeyond⟩
        · exact ⟨more, rfl, hmore⟩
        · rcases List.append_eq_singleton_iff.mp hbeyond.symm with ⟨rfl, hrest⟩ | ⟨-, hrest⟩
          · exact ⟨[], by simp, hrest⟩
          · exact absurd hrest hend
      rw [← List.append_assoc] at h hr
      have hnot : terminator ∉ tail ++ chunk := fun hmem => h (List.mem_append_left _ hmem)
      obtain ⟨hgiven, hstate⟩ := feed_waiting_of_not_mem limit hnot
      rw [hgiven, hstate, List.nil_append]
      exact ih h hr hmore

/-- A beginning of a frame that is not all of it has its own bytes waiting, and the frame none. -/
theorem tail_of_beginning {segment part : Bytes} {r : Response} (h : terminator ∉ segment)
    (hr : Response.ofSegment segment = .ok r) (hpart : part <+: segment ++ [terminator]) :
    (Reading.of part).fault? = none ∧
      ((Reading.of part).tail.length = part.length ∧ part.length ≤ segment.length ∨
        (Reading.of part).tail = [] ∧ part.length = segment.length + 1) := by
  rcases List.prefix_concat_iff.mp hpart with rfl | hpart
  · rw [reading_of_frame h hr (by simp)]
    exact ⟨rfl, .inr ⟨rfl, by simp⟩⟩
  · rw [Reading.of_of_not_mem fun hmem => h (hpart.subset hmem)]
    exact ⟨rfl, .inl ⟨rfl, hpart.length_le⟩⟩

/-- **Whether a frame is complained about depends on the cut**: a chunk has to end inside it and
behind more than `limit` bytes. -/
theorem tooLong_mem_feedAll_iff {segment : Bytes} {r : Response} {cut : List Bytes}
    (h : terminator ∉ segment) (hr : Response.ofSegment segment = .ok r)
    (hcut : cut.flatten = segment ++ [terminator]) :
    .error (.tooLong limit) ∈ ((new limit).feedAll cut).1 ↔
      ∃ earlier later, cut = earlier ++ later ∧
        limit < earlier.flatten.length ∧ earlier.flatten.length ≤ segment.length := by
  rw [mem_feedAll]
  constructor
  · rintro ⟨earlier, chunk, later, rfl, hx⟩
    obtain ⟨-, hlt⟩ := (feed_eq_tooLong_iff limit earlier chunk).mp hx.symm
    have hpart : earlier.flatten ++ chunk <+: segment ++ [terminator] := by
      rw [← hcut]
      exact ⟨later.flatten, by simp⟩
    refine ⟨earlier ++ [chunk], later, by simp, ?_⟩
    rcases (tail_of_beginning h hr hpart).2 with ⟨hlength, hle⟩ | ⟨hnil, -⟩
    · simp only [List.flatten_append, List.flatten_singleton]
      omega
    · simp [hnil] at hlt
  · rintro ⟨earlier, later, rfl, hlt, hle⟩
    -- The chunk in question is the last one of those that are not behind it.
    rcases List.eq_nil_or_concat earlier with rfl | ⟨before, chunk, rfl⟩
    · simp at hlt
    · have hpart : before.flatten ++ chunk <+: segment ++ [terminator] := by
        rw [← hcut]
        exact ⟨later.flatten, by simp⟩
      refine ⟨before, chunk, later, by simp, ((feed_eq_tooLong_iff limit before chunk).mpr ?_).symm⟩
      obtain ⟨hfault, hlength⟩ := tail_of_beginning h hr hpart
      simp only [List.concat_eq_append, List.flatten_append, List.flatten_singleton] at hlt hle
      refine ⟨hfault, ?_⟩
      rcases hlength with ⟨hlength, -⟩ | ⟨-, hlength⟩
      · omega
      · omega

/-- Without a complaint no more than `limit` bytes wait. -/
theorem pending_feed_le {chunks : List Bytes} {chunk : Bytes} {responses : List Response}
    (h : (((new limit).feedAll chunks).2.feed chunk).1 = .ok responses)
    (hsound : (((new limit).feedAll chunks).2.feed chunk).2.isFailed = false) :
    (((new limit).feedAll chunks).2.feed chunk).2.pending ≤ limit := by
  have hfollows := (follows_feedAll_new limit chunks).feed chunk
  have hfault := hfollows.isFailed_eq.symm.trans hsound
  rw [Option.isSome_eq_false_iff, Option.isNone_iff_eq_none] at hfault
  rw [hfollows.pending_eq hfault]
  refine Nat.not_lt.mp fun hlong => ?_
  have hrefused := (feed_eq_tooLong_iff limit chunks chunk).mpr ⟨hfault, hlong⟩
  simp [h] at hrefused

/-- A call gives back nothing but the responses before it, in their places. -/
theorem mem_responses_of_answer {reading : Reading} {i : Nat} {r : Response}
    (h : (given (reading.answer limit))[i]? = some r) : reading.responses[i]? = some r := by
  unfold Reading.answer at h
  split at h
  · split at h
    · simp [given] at h
    · exact h
  · split at h
    · simp [given] at h
    · exact h

/-- A response that is given back comes from a segment of what waited and the chunk. -/
theorem segment_of_given {chunks : List Bytes} {chunk : Bytes} {i : Nat} {r : Response}
    (h : (given (((new limit).feedAll chunks).2.feed chunk).1)[i]? = some r) :
    ∃ segment, (Wire.split (((new limit).feedAll chunks).2.buffer.toList ++ chunk)).1[i]? =
        some segment ∧ Response.ofSegment segment = .ok r ∧
      segment.length < ((new limit).feedAll chunks).2.pending + chunk.length := by
  cases hfailed : ((new limit).feedAll chunks).2.isFailed with
  | true =>
    obtain ⟨m, hm⟩ := Option.isSome_iff_exists.mp hfailed
    rw [feed_of_failure hm] at h
    simp [given] at h
  | false =>
    rw [(feed_of_sound hfailed chunk).1] at h
    rw [(feedAll_new_eq_waiting hfailed).2]
    obtain ⟨segment, hsegment, hr⟩ := getElem?_readSegments (mem_responses_of_answer h)
    have hlength := Wire.length_lt_of_mem_split (List.mem_of_getElem? hsegment)
    rw [List.length_append] at hlength
    exact ⟨segment, hsegment, hr, hlength⟩

/-- **What the limit bounds is what waits, and not the frames.**  Behind any chunks a call complains
exactly if more than `limit` bytes wait behind it for a terminator; without a complaint no more than
that wait.  A frame that is given back is shorter than what waited and the chunk together, and that
is all that is known of its length: a frame above the limit is given back however it is cut, and is
complained about before exactly if a chunk ends inside it and behind more than `limit` bytes. -/
theorem limit_bounds_waiting (limit : Nat) (chunks : List Bytes) (chunk : Bytes) :
    let a := ((new limit).feedAll chunks).2
    let reading := Reading.of (chunks.flatten ++ chunk)
    ((a.feed chunk).1 = .error (.tooLong limit) ↔
      reading.fault? = none ∧ limit < reading.tail.length) ∧
    (∀ responses, (a.feed chunk).1 = .ok responses → (a.feed chunk).2.isFailed = false →
      (a.feed chunk).2.pending ≤ limit) ∧
    (∀ (i : Nat) r, (given (a.feed chunk).1)[i]? = some r →
      ∃ segment, (Wire.split (a.buffer.toList ++ chunk)).1[i]? = some segment ∧
        Response.ofSegment segment = .ok r ∧ segment.length < a.pending + chunk.length) ∧
    (∀ segment r, terminator ∉ segment → Response.ofSegment segment = .ok r →
      ∀ cut, cut.flatten = segment ++ [terminator] →
        let out := (new limit).feedAll cut
        out.1.flatMap given = [r] ∧
        (.error (.tooLong limit) ∈ out.1 ↔ ∃ earlier later, cut = earlier ++ later ∧
          limit < earlier.flatten.length ∧ earlier.flatten.length ≤ segment.length)) := by
  intro a reading
  refine ⟨feed_eq_tooLong_iff limit chunks chunk, fun responses => pending_feed_le,
    fun i r => segment_of_given, ?_⟩
  intro segment r hnot hr cut hcut out
  exact ⟨given_feedAll_frame hnot hr hcut, tooLong_mem_feedAll_iff hnot hr hcut⟩

/-- A frame of four bytes where three may wait: it is given back from one chunk and from two, and
only in the second case there is a complaint. -/
theorem limit_bounds_waiting_cut :
    let whole := (new 3).feedAll [[79, 49, 50, 51, 4]]
    let parts := (new 3).feedAll [[79, 49, 50, 51], [4]]
    whole.1.flatMap given = [⟨.ok, [49, 50, 51]⟩] ∧ .error (.tooLong 3) ∉ whole.1 ∧
      parts.1.flatMap given = [⟨.ok, [49, 50, 51]⟩] ∧ .error (.tooLong 3) ∈ parts.1 := by
  intro whole parts
  obtain ⟨-, -, -, hframe⟩ := limit_bounds_waiting 3 [] []
  have hnot : terminator ∉ ([79, 49, 50, 51] : Bytes) := by decide
  obtain ⟨hwhole, hwhole'⟩ := hframe _ _ hnot rfl [[79, 49, 50, 51, 4]] rfl
  obtain ⟨hparts, hparts'⟩ := hframe _ _ hnot rfl [[79, 49, 50, 51], [4]] rfl
  refine ⟨hwhole, fun hmem => ?_, hparts, hparts'.mpr ⟨[_], [_], rfl, by decide, by decide⟩⟩
  obtain ⟨earlier, later, hcut, hlt, hle⟩ := hwhole'.mp hmem
  -- The only chunk is the whole frame.
  rcases List.append_eq_singleton_iff.mp hcut.symm with ⟨rfl, -⟩ | ⟨rfl, -⟩
  · simp at hlt
  · simp at hle

/-- A frame above the limit that a call gives back; the same bytes without the terminator are
refused. -/
theorem given_above_limit :
    ((new 3).feed ([79, 49, 50, 51] ++ [terminator])).1 = .ok [⟨.ok, [49, 50, 51]⟩] ∧
      Response.ofSegment [79, 49, 50, 51] = .ok ⟨.ok, [49, 50, 51]⟩ ∧
      ¬ ([79, 49, 50, 51] : Bytes).length ≤ 3 ∧
      ((new 3).feed [79, 49, 50, 51]).1 = .error (.tooLong 3) :=
  ⟨by cbv, rfl, by decide, by cbv⟩

/-! ## After a complaint -/

/-- A failed accumulator stays as it is. -/
theorem feedAll_eq_self_of_failure {a : Accumulator} {m : Malformation} (hm : a.failure? = some m)
    (chunks : List Bytes) : (a.feedAll chunks).2 = a := by
  induction chunks with
  | nil => rfl
  | cons chunk rest ih =>
    rw [feedAll, feed_of_failure hm]
    exact ih

theorem feedAll_concat (a : Accumulator) (chunks : List Bytes) (chunk : Bytes) :
    (a.feedAll (chunks ++ [chunk])).2 = ((a.feedAll chunks).2.feed chunk).2 := by
  induction chunks generalizing a with
  | nil => rfl
  | cons first rest ih => exact ih (a.feed first).2

/-- An accumulator that reports an error and is not failed has complained about the size. -/
theorem tooLong_of_not_isFailed {chunks : List Bytes} {chunk : Bytes} {m : Malformation}
    (h : (((new limit).feedAll chunks).2.feed chunk).1 = .error m)
    (hsound : (((new limit).feedAll chunks).2.feed chunk).2.isFailed = false) :
    m = .tooLong limit ∧ limit < (Reading.of (chunks.flatten ++ chunk)).tail.length ∧
      (((new limit).feedAll chunks).2.feed chunk).2 =
        waiting limit (Reading.of (chunks.flatten ++ chunk)).tail := by
  have hlast := feedAll_concat (new limit) chunks chunk
  have hflatten : (chunks ++ [chunk]).flatten = chunks.flatten ++ chunk := by simp
  obtain ⟨hfault, hwaiting⟩ := feedAll_new_eq_waiting (hlast ▸ hsound)
  rw [hlast, hflatten] at hwaiting
  rw [hflatten] at hfault
  by_cases hlt : limit < (Reading.of (chunks.flatten ++ chunk)).tail.length
  · have hrefused := (feed_eq_tooLong_iff limit chunks chunk).mpr ⟨hfault, hlt⟩
    exact ⟨by simpa using h.symm.trans hrefused, hlt, hwaiting⟩
  · -- What fits is no reason to report an error.
    have hbefore : ((new limit).feedAll chunks).2.isFailed = false := by
      refine Bool.eq_false_iff.mpr fun hfailed => ?_
      obtain ⟨m', hm'⟩ := Option.isSome_iff_exists.mp hfailed
      rw [feed_of_failure hm'] at hsound
      simp [hsound] at hfailed
    obtain ⟨hanswer, -, hsame, htail⟩ := feed_of_sound hbefore chunk
    rw [htail] at hlt
    rw [hanswer, Reading.answer_of_le (hsame.symm.trans hfault) (Nat.not_lt.mp hlt)] at h
    simp at h

/-- A failed accumulator reports the fault that it has recorded, which is one of the stream. -/
theorem failure?_of_isFailed {chunks : List Bytes} {chunk : Bytes} {m : Malformation}
    (h : (((new limit).feedAll chunks).2.feed chunk).1 = .error m)
    (hfailed : (((new limit).feedAll chunks).2.feed chunk).2.isFailed = true) :
    (((new limit).feedAll chunks).2.feed chunk).2.failure? = some m := by
  obtain ⟨m', hm'⟩ := Option.isSome_iff_exists.mp hfailed
  suffices m' = m from this ▸ hm'
  cases hbefore : ((new limit).feedAll chunks).2.isFailed with
  | true =>
    obtain ⟨m₀, hm₀⟩ := Option.isSome_iff_exists.mp hbefore
    rw [feed_of_failure hm₀] at h hm'
    obtain rfl : m₀ = m := by simpa using h
    simpa using hm'.symm.trans hm₀
  | false =>
    have hfollows := (follows_feedAll_new limit chunks).feed chunk
    obtain ⟨hanswer, -, hsame, -⟩ := feed_of_sound hbefore chunk
    have hfault := hsame.symm.trans (hfollows.failure.symm.trans hm')
    rw [hanswer, Reading.answer_of_fault hfault] at h
    split at h
    · simpa using h
    · simp at h

/-- **What has become of an accumulator whose call reports an error.**  If it is failed, a segment
was bad: it stays as it is, and every later call reports the same.  If it is not, more than `limit`
bytes wait, and the complaint is all that there was: the bytes go on to wait and further ones with
them, each time with the same complaint, until a terminator makes a frame of them, which is given
back as if nothing had happened. -/
theorem after_error {chunks : List Bytes} {chunk : Bytes} {m : Malformation}
    (h : (((new limit).feedAll chunks).2.feed chunk).1 = .error m) :
    let a := (((new limit).feedAll chunks).2.feed chunk).2
    (a.isFailed = true →
      (Reading.of (chunks.flatten ++ chunk)).fault? = some m ∧ a.finish = .error m ∧
      ∀ later, (∀ x ∈ (a.feedAll later).1, x = .error m) ∧ (a.feedAll later).2 = a) ∧
    (a.isFailed = false →
      m = .tooLong limit ∧ limit < a.pending ∧ a.finish = .error (.cut a.pending) ∧
      ∀ more, terminator ∉ more →
        (a.feed more).1 = .error (.tooLong limit) ∧
        (a.feed more).2.pending = a.pending + more.length ∧
        ∀ r, Response.ofSegment (a.buffer.toList ++ more) = .ok r →
          (a.feed (more ++ [terminator])).1 = .ok [r] ∧
          (a.feed (more ++ [terminator])).2 = waiting limit []) := by
  intro a
  have hfollows := (follows_feedAll_new limit chunks).feed chunk
  constructor
  · intro hfailed
    have hm : a.failure? = some m := failure?_of_isFailed h hfailed
    have hfault := hfollows.failure.symm.trans hm
    exact ⟨hfault, hfollows.finish_eq.trans (Reading.finish_of_fault hfault),
      fun later => ⟨feedAll_of_failure hm later, feedAll_eq_self_of_failure hm later⟩⟩
  · intro hsound
    obtain ⟨hm, hlt, hwaiting⟩ := tooLong_of_not_isFailed h hsound
    have ha : a = waiting limit (Reading.of (chunks.flatten ++ chunk)).tail := hwaiting
    have hnot := Reading.not_mem_tail (chunks.flatten ++ chunk)
    generalize (Reading.of (chunks.flatten ++ chunk)).tail = tail at hlt ha hnot
    rw [ha]
    refine ⟨hm, hlt, ?_, ?_⟩
    · have hne : tail ≠ [] := List.ne_nil_of_length_pos (Nat.zero_lt_of_lt hlt)
      have hreading := Reading.of_of_not_mem hnot
      rw [(follows_waiting limit hnot).finish_eq, hreading, Reading.finish]
      exact if_neg hne
    · intro more hmore
      have hboth : terminator ∉ tail ++ more :=
        fun hmem => (List.mem_append.mp hmem).elim hnot hmore
      refine ⟨?_, ?_, fun r hr => feed_waiting_of_frame limit hboth hr⟩
      · have hlonger : limit < (tail ++ more).length := by
          rw [List.length_append]
          omega
        rw [(feed_waiting limit hnot more).1, Reading.of_of_not_mem hboth]
        exact Reading.answer_of_lt rfl hlonger
      · rw [(feed_waiting_of_not_mem limit hboth).2]
        exact List.length_append

/-- A segment that is no response, and a frame of which more waits than may. -/
theorem after_error_samples :
    let bad := ((new 8).feed [33, 4]).2
    let long := ((new 1).feed [79, 49]).2
    (∀ later, ∀ x ∈ (bad.feedAll later).1, x = .error (.unknownStatus 33)) ∧
      bad.finish = .error (.unknownStatus 33) ∧
      (long.feed [50]).1 = .error (.tooLong 1) ∧ (long.feed [50]).2.pending = 3 ∧
      (long.feed [50, 4]).1 = .ok [⟨.ok, [49, 50]⟩] ∧ (long.feed [50, 4]).2.pending = 0 := by
  have hbad : (new 8).feed [33, 4] =
      (.error (.unknownStatus 33), ⟨#[33, 4], 0, 8, some (.unknownStatus 33)⟩) := by cbv
  have hlong : (new 1).feed [79, 49] = (.error (.tooLong 1), waiting 1 [79, 49]) := by cbv
  obtain ⟨hfailed, -⟩ := @after_error 8 [] [33, 4] _ (congrArg Prod.fst hbad)
  obtain ⟨-, hsound⟩ := @after_error 1 [] [79, 49] _ (congrArg Prod.fst hlong)
  simp only [feedAll, hbad] at hfailed
  simp only [feedAll, hlong] at hsound
  obtain ⟨-, hfinish, hlater⟩ := hfailed rfl
  obtain ⟨-, -, -, hmore⟩ := hsound rfl
  obtain ⟨hrefused, hpending, hframe⟩ := hmore [50] (by decide)
  obtain ⟨hgiven, hempty⟩ := hframe ⟨.ok, [49, 50]⟩ rfl
  simp only [hbad, hlong]
  exact ⟨fun later => (hlater later).1, hfinish, hrefused, hpending, hgiven,
    congrArg pending hempty⟩

/-- After a complaint more bytes go on to wait, a call gives back the frame that was refused, and
the stream may end. -/
theorem complaint_forgotten :
    let a := waiting 1 [79, 49]
    (new 1).feed [79, 49] = (.error (.tooLong 1), a) ∧
      a.feed [50] = (.error (.tooLong 1), waiting 1 [79, 49, 50]) ∧
      a.feed [50, 4] = (.ok [⟨.ok, [49, 50]⟩], new 1) ∧ (new 1).finish = .ok () :=
  ⟨by cbv, by cbv, by cbv, rfl⟩

end Accumulator

end KvClient

import KvClient.Proofs.Limit
import Mathlib.Logic.Relation

/-!
# The search for terminators

Bytes that were searched are not searched again.  So whether a frame is found depends on what the
accumulator knows of its buffer, and on nothing that it may look up.

The search goes on turn after turn: while there is a terminator among the bytes that were not
searched, a response is taken off the front of the buffer, and nothing of the rest counts as
searched.  A turn fails if it reaches out of the buffer.

## How it works

* **What counts as searched is there, and holds no terminator**: `Searched`, which is kept by a chunk
  (`Searched.append`), by a turn (`Searched.of_turn`) and by the whole search (`Search.searched`).
* **Then a turn cannot fail, and each response takes two bytes at least**: `Searched.inSearch`.
* **So the search ends, with what `takeResponses` gives**: `search_takeResponses`.
* **What holds of the state between two calls holds in each call**: `searched_of_feeds`.
-/

namespace KvClient.Accumulator

variable {a a' b : Accumulator} {r : Response} {responses : List Response} {limit : Nat}

/-! ## What is known of the buffer -/

/-- What is known of the buffer is true: the bytes that were searched are there, and there is no
terminator among them. -/
structure Searched (a : Accumulator) : Prop where
  inRange : a.scanned ≤ a.buffer.size
  free : terminator ∉ a.buffer.toList.take a.scanned

theorem searched_of_zero (h : a.scanned = 0) : Searched a where
  inRange := h ▸ Nat.zero_le _
  free := by simp [h]

/-- A chunk goes behind what was searched. -/
theorem Searched.append (h : Searched a) (chunk : Bytes) : Searched (a.append chunk) := by
  have hle : a.scanned ≤ a.buffer.toList.length := by simpa using h.inRange
  have hlist : (a.append chunk).buffer.toList = a.buffer.toList ++ chunk := by simp [Accumulator.append]
  constructor
  · show a.scanned ≤ (a.append chunk).buffer.size
    rw [← Array.length_toList, hlist, List.length_append]
    omega
  · rw [hlist]
    show terminator ∉ (a.buffer.toList ++ chunk).take a.scanned
    rw [List.take_append_of_le_length hle]
    exact h.free

/-- To look at the rest is to look at all. -/
theorem Searched.mem_drop_iff (h : Searched a) :
    terminator ∈ a.buffer.toList.drop a.scanned ↔ terminator ∈ a.buffer.toList := by
  refine ⟨List.mem_of_mem_drop, fun hmem => ?_⟩
  rw [← List.take_append_drop a.scanned a.buffer.toList] at hmem
  exact (List.mem_append.mp hmem).resolve_left h.free

/-! ## Turns -/

/-- The bytes that were not searched, if the others are there. -/
def unsearched? (a : Accumulator) : Option Bytes :=
  if a.scanned ≤ a.buffer.size then some (a.buffer.toList.drop a.scanned) else none

/-- The accumulator without the first bytes of its buffer, if there are as many. -/
def advance? (a : Accumulator) (count : Nat) : Option Accumulator :=
  if count ≤ a.buffer.size then
    some { a with buffer := (a.buffer.toList.drop count).toArray, scanned := 0 }
  else none

/-- What a turn of the search comes to. -/
inductive Turn
  /-- The search ends here. -/
  | last (a : Accumulator)
  /-- A response was taken off, and the search goes on. -/
  | took (r : Response) (a : Accumulator)

/-- A turn of the search; nothing if it reaches out of the buffer. -/
def turn? (a : Accumulator) : Option Turn :=
  match a.unsearched? with
  | none => none
  | some bytes =>
    if terminator ∈ bytes then
      match Response.decode a.buffer.toList with
      | .ok none => some (.last a)
      | .ok (some (r, used)) => (a.advance? used).map (.took r)
      | .error m => some (.last { a with failure? := some m })
    else some (.last { a with scanned := a.buffer.size })

/-- Without a terminator all of the buffer was searched. -/
theorem Searched.turn?_of_not_mem (h : Searched a) (hnot : terminator ∉ a.buffer.toList) :
    a.turn? = some (.last { a with scanned := a.buffer.size }) := by
  have hrest : terminator ∉ a.buffer.toList.drop a.scanned := mt h.mem_drop_iff.mp hnot
  simp only [turn?, unsearched?, if_pos h.inRange, if_neg hrest]

/-- A segment in front is taken off if it is a response. -/
theorem Searched.turn?_of_segment (h : Searched a) {segment rest : Bytes}
    (hbuffer : a.buffer.toList = segment ++ terminator :: rest) (hnot : terminator ∉ segment) :
    a.turn? = some
      (match Response.ofSegment segment with
      | .ok r => .took r { a with buffer := rest.toArray, scanned := 0 }
      | .error m => .last { a with failure? := some m }) := by
  have hmem : terminator ∈ a.buffer.toList.drop a.scanned := by
    rw [h.mem_drop_iff, hbuffer]
    simp
  have hdecode := Response.decode_of_cut? (Wire.cut?_append rest hnot)
  rw [← hbuffer] at hdecode
  simp only [turn?, unsearched?, if_pos h.inRange, if_pos hmem, hdecode]
  cases Response.ofSegment segment with
  | error m => rfl
  | ok r =>
    have hsize : a.buffer.size = segment.length + 1 + rest.length := by
      rw [← Array.length_toList, hbuffer]
      simp
      omega
    have hrest : a.buffer.toList.drop (segment.length + 1) = rest := by
      rw [hbuffer, List.append_cons]
      exact List.drop_left' (by simp)
    simp only [Except.map, advance?, if_pos (show segment.length + 1 ≤ a.buffer.size by omega), hrest,
      Option.map_some]

/-- A turn that takes a response off takes two bytes at least, and forgets what it knew. -/
theorem size_of_took (h : a.turn? = some (.took r b)) :
    b.buffer.size + 2 ≤ a.buffer.size ∧ b.scanned = 0 ∧ b.failure? = a.failure? := by
  unfold turn? at h
  split at h
  · simp at h
  · split at h
    · split at h
      · simp at h
      · next r' used hdecode =>
        obtain ⟨b', hadvance, hb'⟩ := Option.map_eq_some_iff.mp h
        obtain ⟨rfl, rfl⟩ := Turn.took.inj hb'
        have hused := Response.used_of_decode hdecode
        rw [Array.length_toList] at hused
        rw [advance?, if_pos hused.2] at hadvance
        obtain rfl := Option.some.inj hadvance
        refine ⟨?_, rfl, rfl⟩
        simp only [List.size_toArray, List.length_drop, Array.length_toList]
        omega
      · simp at h
    · simp at h

/-- One response is taken off by a turn. -/
def Takes (a b : Accumulator) : Prop := ∃ r, a.turn? = some (.took r b)

/-- What holds while the search goes on. -/
structure InSearch (a : Accumulator) : Prop where
  searched : Searched a
  /-- To look at what was not searched is to look at the whole buffer. -/
  finds : ∃ bytes, a.unsearched? = some bytes ∧ (terminator ∈ bytes ↔ terminator ∈ a.buffer.toList)
  hasFrame_iff : a.hasFrame = true ↔ terminator ∈ a.buffer.toList
  /-- The turn does not fail. -/
  turns : ∃ t, a.turn? = some t
  /-- A response that it takes off takes two bytes at least. -/
  shrinks : ∀ b, Takes a b → b.buffer.size + 2 ≤ a.buffer.size

theorem Searched.inSearch (h : Searched a) : InSearch a where
  searched := h
  finds := ⟨a.buffer.toList.drop a.scanned, if_pos h.inRange, h.mem_drop_iff⟩
  hasFrame_iff := Accumulator.hasFrame_iff.trans h.mem_drop_iff
  turns := by
    cases hcut : Wire.cut? a.buffer.toList with
    | none => exact ⟨_, h.turn?_of_not_mem (Wire.cut?_eq_none.mp hcut)⟩
    | some p =>
      obtain ⟨hbuffer, hnot⟩ := Wire.cut?_eq_some hcut
      exact ⟨_, h.turn?_of_segment hbuffer hnot⟩
  shrinks b := fun ⟨r, hr⟩ => (size_of_took hr).1

/-- **What is known of the buffer stays true from turn to turn.** -/
theorem Searched.of_turns (h : Searched a) (hturns : Relation.ReflTransGen Takes a b) :
    Searched b := by
  induction hturns with
  | refl => exact h
  | tail _ htakes _ =>
    obtain ⟨r, hr⟩ := htakes
    exact searched_of_zero (size_of_took hr).2.1

/-- The last turn leaves the buffer as it is.  If nothing is wrong, all of it was searched. -/
theorem Searched.of_last (h : Searched a) (hturn : a.turn? = some (.last a')) :
    a'.buffer = a.buffer ∧ Searched a' ∧
      (a'.failure? = none → terminator ∉ a'.buffer.toList ∧ a'.scanned = a'.buffer.size) := by
  cases hcut : Wire.cut? a.buffer.toList with
  | none =>
    have hnot := Wire.cut?_eq_none.mp hcut
    rw [h.turn?_of_not_mem hnot] at hturn
    obtain rfl := Turn.last.inj (Option.some.inj hturn)
    exact ⟨rfl, ⟨Nat.le_refl _, fun hmem => hnot (List.mem_of_mem_take hmem)⟩, fun _ => ⟨hnot, rfl⟩⟩
  | some p =>
    obtain ⟨hbuffer, hnot⟩ := Wire.cut?_eq_some hcut
    rw [h.turn?_of_segment hbuffer hnot] at hturn
    cases hsegment : Response.ofSegment p.1 with
    | ok r => simp [hsegment] at hturn
    | error m =>
      rw [hsegment] at hturn
      obtain rfl := Turn.last.inj (Option.some.inj hturn)
      exact ⟨rfl, ⟨h.inRange, h.free⟩, fun hnone => by simp at hnone⟩

/-! ## The search -/

/-- A search from a state to the one in which it ends, and the responses that it takes off. -/
inductive Search : Accumulator → List Response → Accumulator → Prop
  | last {a a' : Accumulator} (turn : a.turn? = some (.last a')) : Search a [] a'
  | took {a b a' : Accumulator} {r : Response} {responses : List Response}
      (turn : a.turn? = some (.took r b)) (rest : Search b responses a') :
      Search a (r :: responses) a'

/-- A search has one end. -/
theorem Search.unique (h : Search a responses a') {responses' : List Response} {a'' : Accumulator}
    (h' : Search a responses' a'') : responses' = responses ∧ a'' = a' := by
  induction h generalizing responses' with
  | last turn =>
    cases h' with
    | last turn' =>
      obtain rfl := Turn.last.inj (Option.some.inj (turn.symm.trans turn'))
      exact ⟨rfl, rfl⟩
    | took turn' => simp [turn] at turn'
  | took turn _ ih =>
    cases h' with
    | last turn' => simp [turn] at turn'
    | took turn' rest' =>
      obtain ⟨rfl, rfl⟩ := Turn.took.inj (Option.some.inj (turn.symm.trans turn'))
      obtain ⟨rfl, rfl⟩ := ih rest'
      exact ⟨rfl, rfl⟩

/-- What holds of the state in which a search ends. -/
structure Ended (a : Accumulator) (responses : List Response) (a' : Accumulator) : Prop where
  searched : Searched a'
  /-- Each response was taken off with two bytes at least. -/
  size_le : a'.buffer.size + 2 * responses.length ≤ a.buffer.size
  /-- If nothing is wrong, what is left holds no terminator, and was searched to its end. -/
  waits : a'.failure? = none → terminator ∉ a'.buffer.toList ∧ a'.scanned = a'.buffer.size

theorem Search.ended (h : Search a responses a') (ha : Searched a) : Ended a responses a' := by
  induction h with
  | last turn =>
    obtain ⟨hbuffer, hsearched, hwaits⟩ := ha.of_last turn
    exact ⟨hsearched, by simp [hbuffer], hwaits⟩
  | took turn _ ih =>
    obtain ⟨hsize, hzero, -⟩ := size_of_took turn
    obtain ⟨hsearched, hle, hwaits⟩ := ih (searched_of_zero hzero)
    refine ⟨hsearched, ?_, hwaits⟩
    rw [List.length_cons]
    omega

/-- What is taken off behind a segment is what is taken off without it. -/
theorem takeResponses_of_segment (ha : Searched a) (hm : a.failure? = none) {segment rest : Bytes}
    (hbuffer : a.buffer.toList = segment ++ terminator :: rest) (hnot : terminator ∉ segment) :
    a.takeResponses =
      match Response.ofSegment segment with
      | .ok r =>
        (r :: (Accumulator.takeResponses { a with buffer := rest.toArray, scanned := 0 }).1,
          (Accumulator.takeResponses { a with buffer := rest.toArray, scanned := 0 }).2)
      | .error m => ([], { a with failure? := some m }) := by
  have hframe : a.hasFrame = true := by
    rw [ha.inSearch.hasFrame_iff, hbuffer]
    simp
  rw [takeResponses_of_hasFrame hframe, hbuffer, drain_segment rest hnot]
  cases Response.ofSegment segment with
  | error m => simp [← hbuffer]
  | ok r =>
    by_cases hrest : terminator ∈ rest
    · have hmore : ({ a with buffer := rest.toArray, scanned := 0 } : Accumulator).hasFrame = true :=
        (searched_of_zero rfl).inSearch.hasFrame_iff.mpr (by simpa using hrest)
      rw [takeResponses_of_hasFrame hmore]
      simp
    · have hmore : ¬({ a with buffer := rest.toArray, scanned := 0 } : Accumulator).hasFrame = true :=
        fun hframe => hrest (by simpa using (searched_of_zero rfl).inSearch.hasFrame_iff.mp hframe)
      rw [takeResponses_of_not_hasFrame hmore, drain_of_not_mem hrest]
      simp [hm]

/-- **The search ends, with what `takeResponses` gives.** -/
theorem search_takeResponses (ha : Searched a) (hm : a.failure? = none) :
    Search a a.takeResponses.1 a.takeResponses.2 := by
  generalize hbytes : a.buffer.toList = bytes
  induction bytes using Wire.split_induction generalizing a with
  | tail bytes hnot =>
    rw [← hbytes] at hnot
    have hframe : ¬a.hasFrame = true := fun h => hnot (ha.inSearch.hasFrame_iff.mp h)
    rw [takeResponses_of_not_hasFrame hframe]
    exact .last (ha.turn?_of_not_mem hnot)
  | segment segment rest hnot ih =>
    have hturn := ha.turn?_of_segment hbytes hnot
    rw [takeResponses_of_segment ha hm hbytes hnot]
    cases hsegment : Response.ofSegment segment with
    | error m =>
      rw [hsegment] at hturn
      exact .last hturn
    | ok r =>
      rw [hsegment] at hturn
      exact .took hturn (ih (searched_of_zero rfl) hm (by simp))

/-! ## Calls -/

/-- **A call keeps what is known of the buffer true.** -/
theorem Searched.feed (h : Searched a) (chunk : Bytes) : Searched (a.feed chunk).2 := by
  cases hm : a.failure? with
  | some m =>
    rw [feed_of_failure hm]
    exact h
  | none =>
    rw [feed_of_no_failure hm]
    exact ((search_takeResponses (h.append chunk) hm).ended (h.append chunk)).searched

theorem Searched.feedAll (h : Searched a) (chunks : List Bytes) : Searched (a.feedAll chunks).2 := by
  induction chunks generalizing a with
  | nil => exact h
  | cons chunk rest ih => exact ih (h.feed chunk)

/-- What holds of a call: how it searches, and what it leaves behind. -/
structure Feeds (a : Accumulator) (chunk : Bytes) : Prop where
  /-- What is known of the buffer is true before the call and behind it. -/
  before : Searched a
  behind : Searched (a.feed chunk).2
  /-- An unusable stream is not searched. -/
  unusable : ∀ m, a.failure? = some m → a.feed chunk = (.error m, a)
  /-- While the search goes on, no turn fails, and each takes two bytes at least. -/
  turns : a.failure? = none → ∀ b, Relation.ReflTransGen Takes (a.append chunk) b → InSearch b
  /-- The search ends, and its end is what the call tells and leaves behind. -/
  ends : a.failure? = none → ∃ responses a', Search (a.append chunk) responses a' ∧
    Ended (a.append chunk) responses a' ∧ a.feed chunk = (verdict responses a', a')
  /-- Without an error nothing but a part of a frame waits, all of it searched, and no more than may
  wait. -/
  waits : ∀ responses, (a.feed chunk).1 = .ok responses → (a.feed chunk).2.isFailed = false →
    terminator ∉ (a.feed chunk).2.buffer.toList ∧
    (a.feed chunk).2.scanned = (a.feed chunk).2.buffer.size ∧
    (a.feed chunk).2.buffer.size ≤ a.limit

theorem Searched.feeds (h : Searched a) (chunk : Bytes) : Feeds a chunk := by
  have hchunk := h.append chunk
  have hends : a.failure? = none → ∃ responses a', Search (a.append chunk) responses a' ∧
      Ended (a.append chunk) responses a' ∧ a.feed chunk = (verdict responses a', a') := by
    intro hm
    have hsearch := search_takeResponses hchunk hm
    exact ⟨_, _, hsearch, hsearch.ended hchunk, feed_of_no_failure hm chunk⟩
  refine ⟨h, h.feed chunk, fun m hm => feed_of_failure hm chunk,
    fun _ b hturns => (hchunk.of_turns hturns).inSearch, hends, ?_⟩
  intro responses hok hsound
  cases hm : a.failure? with
  | some m =>
    rw [feed_of_failure hm] at hok
    simp at hok
  | none =>
    obtain ⟨found, a', -, hended, hfeed⟩ := hends hm
    have hlimit : (a.feed chunk).2.limit = a.limit := limit_feed chunk
    rw [hfeed] at hok hsound hlimit ⊢
    have hfine : a'.failure? = none := by simpa [isFailed] using hsound
    obtain ⟨hnot, hall⟩ := hended.waits hfine
    refine ⟨hnot, hall, ?_⟩
    -- More than the limit would have been complained about.
    rw [← hlimit]
    refine Nat.not_lt.mp fun hlong => ?_
    simp [verdict, hfine, hlong] at hok

theorem limit_feedAll (a : Accumulator) (chunks : List Bytes) :
    (a.feedAll chunks).2.limit = a.limit := by
  induction chunks generalizing a with
  | nil => rfl
  | cons chunk rest ih => exact (ih (a.feed chunk).2).trans (limit_feed chunk)

/-- **The accumulator knows its buffer.**  Behind any chunks, whatever the calls have told, the bytes
that count as searched are there and hold no terminator.  In the next call no turn of the search
fails or overlooks a terminator, and the search ends; and if the call tells no error and the stream
is usable, what waits holds no terminator, was searched to its end, and is within the limit. -/
theorem searched_of_feeds (limit : Nat) (chunks : List Bytes) (chunk : Bytes) :
    let a := ((new limit).feedAll chunks).2
    a.limit = limit ∧ Feeds a chunk := by
  intro a
  have hnew : Searched (new limit) := searched_of_zero rfl
  exact ⟨limit_feedAll _ chunks, (hnew.feedAll chunks).feeds chunk⟩

/-- Two bytes where one may wait: they were searched although there was a complaint.  The terminator
behind them is found, and what follows it waits. -/
theorem searched_of_feeds_complaint :
    let a := ((new 1).feedAll [[79, 97]]).2
    a.scanned = 2 ∧ Searched a ∧ (a.feed [4, 79]).1 = .ok [⟨.ok, [97]⟩] ∧
      terminator ∉ (a.feed [4, 79]).2.buffer.toList ∧
      (a.feed [4, 79]).2.scanned = (a.feed [4, 79]).2.buffer.size ∧
      (a.feed [4, 79]).2.buffer.size ≤ 1 := by
  have hfirst : (new 1).feed [79, 97] = (.error (.tooLong 1), waiting 1 [79, 97]) := by cbv
  have ha : ((new 1).feedAll [[79, 97]]).2 = waiting 1 [79, 97] := congrArg Prod.snd hfirst
  have hfeed : (waiting 1 [79, 97]).feed [4, 79] = (.ok [⟨.ok, [97]⟩], waiting 1 [79]) := by cbv
  intro a
  rw [← ha] at hfeed
  obtain ⟨hlimit, hfeeds⟩ := searched_of_feeds 1 [[79, 97]] [4, 79]
  have hok := congrArg Prod.fst hfeed
  have hsound : (a.feed [4, 79]).2.isFailed = false := by rw [hfeed]; rfl
  obtain ⟨hnot, hall, hle⟩ := hfeeds.waits _ hok hsound
  exact ⟨congrArg scanned ha, hfeeds.before, hok, hnot, hall, hlimit ▸ hle⟩

end KvClient.Accumulator

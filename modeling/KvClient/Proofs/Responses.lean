import KvClient.Response

/-!
# The format of responses

A response stands in front of a buffer if its frame does: the status byte, the payload, any number
of zeros, and the terminator.  The payload holds no terminator and does not end in a zero, so that a
frame can be taken apart in one way only.

## How it works

* **The first terminator decides**: `decode_segment`, whatever stands behind it.
* **Reading is the inverse of the format**: `decode_inverts_encode`.
-/

namespace KvClient.Response

variable {buffer segment : Bytes} {r : Response} {m : Malformation} {used : Nat}

/-! ## Buffers -/

/-- **The first terminator decides**, whatever stands behind it. -/
theorem decode_segment (rest : Bytes) (h : terminator ∉ segment) :
    decode (segment ++ terminator :: rest) =
      (ofSegment segment).map fun r => some (r, segment.length + 1) :=
  decode_of_cut? (Wire.cut?_append rest h)

/-- A buffer has no terminator, or a first one. -/
theorem exists_segment (h : terminator ∈ buffer) :
    ∃ segment rest, buffer = segment ++ terminator :: rest ∧ terminator ∉ segment := by
  cases hc : Wire.cut? buffer with
  | none => exact absurd h (Wire.cut?_eq_none.mp hc)
  | some p => exact ⟨p.1, p.2, Wire.cut?_eq_some hc⟩

theorem decode_eq_iff {x : Except Malformation (Option (Response × Nat))} (hx : x ≠ .ok none) :
    decode buffer = x ↔
      ∃ segment rest, buffer = segment ++ terminator :: rest ∧ terminator ∉ segment ∧
        (ofSegment segment).map (fun r => some (r, segment.length + 1)) = x := by
  constructor
  · rintro rfl
    have hmem : terminator ∈ buffer := by
      refine Decidable.byContradiction fun hm => hx ?_
      exact decode_of_not_mem hm
    obtain ⟨segment, rest, rfl, hs⟩ := exists_segment hmem
    exact ⟨segment, rest, rfl, hs, (decode_segment rest hs).symm⟩
  · rintro ⟨segment, rest, rfl, hs, rfl⟩
    exact decode_segment rest hs

theorem decode_eq_none_iff : decode buffer = .ok none ↔ terminator ∉ buffer := by
  refine ⟨fun h hm => ?_, decode_of_not_mem⟩
  obtain ⟨segment, rest, rfl, hs⟩ := exists_segment hm
  rw [decode_segment rest hs] at h
  cases hsegment : ofSegment segment with
  | error m => simp [hsegment, Except.map] at h
  | ok r => simp [hsegment, Except.map] at h

/-- **A response is read just if its frame stands in front.** -/
theorem decode_eq_some_iff :
    decode buffer = .ok (some (r, used)) ↔
      ∃ n rest, buffer = r.encode n ++ rest ∧ terminator ∉ r.payload ∧
        r.payload.getLast? ≠ some 0 ∧ used = 2 + r.payload.length + n := by
  have hlength : ∀ n, (r.status.byte :: (r.payload ++ Bytes.zeros n)).length + 1 =
      2 + r.payload.length + n := by
    intro n
    simp only [List.length_cons, List.length_append, Bytes.length_zeros]
    omega
  rw [decode_eq_iff (by simp)]
  constructor
  · rintro ⟨segment, rest, rfl, hs, hmap⟩
    cases hsegment : ofSegment segment with
    | error m => simp [hsegment, Except.map] at hmap
    | ok r' =>
      obtain ⟨rfl, rfl⟩ : r' = r ∧ segment.length + 1 = used := by
        simpa [hsegment, Except.map] using hmap
      obtain ⟨⟨n, rfl⟩, hlast⟩ := ofSegment_eq_ok_iff.mp hsegment
      refine ⟨n, rest, by simp [encode], fun hm => hs ?_, hlast, hlength n⟩
      exact List.mem_cons_of_mem _ (List.mem_append_left _ hm)
  · rintro ⟨n, rest, rfl, hpayload, hlast, rfl⟩
    refine ⟨r.status.byte :: (r.payload ++ Bytes.zeros n), rest, by simp [encode], ?_, ?_⟩
    · exact r.status.terminator_not_mem_cons (terminator_not_mem_append_zeros hpayload n)
    · rw [ofSegment_eq_ok_iff.mpr ⟨⟨n, rfl⟩, hlast⟩, Except.map, hlength]

/-- **A buffer is malformed because of its first byte**, once there is a terminator in it. -/
theorem decode_eq_error_iff :
    decode buffer = .error m ↔
      terminator ∈ buffer ∧ ∃ b, buffer.head? = some b ∧
        (b = terminator ∧ m = .noStatus ∨
          b ≠ terminator ∧ (∀ s : Status, b ≠ s.byte) ∧ m = .unknownStatus b) := by
  rw [decode_eq_iff (by simp)]
  have hmap : ∀ segment : Bytes,
      (ofSegment segment).map (fun r => some (r, segment.length + 1)) = .error m ↔
        ofSegment segment = .error m := by
    intro segment
    cases ofSegment segment with
    | error m' => simp [Except.map]
    | ok r => simp [Except.map]
  simp only [hmap, ofSegment_eq_error_iff]
  constructor
  · rintro ⟨segment, rest, rfl, hs, ⟨rfl, rfl⟩ | ⟨b, bytes, rfl, hb, rfl⟩⟩
    · exact ⟨by simp, terminator, rfl, .inl ⟨rfl, rfl⟩⟩
    · refine ⟨by simp, b, rfl, .inr ⟨fun hterminator => hs ?_, hb, rfl⟩⟩
      exact hterminator ▸ List.mem_cons_self ..
  · rintro ⟨hmem, b, hhead, hcause⟩
    obtain ⟨segment, rest, rfl, hs⟩ := exists_segment hmem
    refine ⟨segment, rest, rfl, hs, ?_⟩
    cases segment with
    | nil =>
      obtain rfl : terminator = b := by simpa using hhead
      rcases hcause with ⟨-, rfl⟩ | ⟨hne, -⟩
      · exact .inl ⟨rfl, rfl⟩
      · exact absurd rfl hne
    | cons c bytes =>
      obtain rfl : c = b := by simpa using hhead
      rcases hcause with ⟨rfl, -⟩ | ⟨-, hb, rfl⟩
      · exact absurd (List.mem_cons_self ..) hs
      · exact .inr ⟨c, bytes, rfl, hb, rfl⟩

/-- Bytes that arrive later do not change what has been read. -/
theorem decode_append (h : decode buffer ≠ .ok none) (more : Bytes) :
    decode (buffer ++ more) = decode buffer := by
  obtain ⟨segment, rest, rfl, hs, hmap⟩ := (decode_eq_iff h).mp rfl
  rw [← hmap, List.append_assoc, List.cons_append]
  exact decode_segment (rest ++ more) hs

/-! ## The result -/

/-- **Reading is the inverse of the format.**  It waits for a terminator; then it gives the one
response whose frame stands in front, and the size of that frame, or complains, just if the first
byte is no status; and bytes behind that frame change nothing. -/
theorem decode_inverts_encode (buffer : Bytes) :
    (decode buffer = .ok none ↔ terminator ∉ buffer) ∧
    (∀ (r : Response) (used : Nat), decode buffer = .ok (some (r, used)) ↔
      ∃ n rest, buffer = r.status.byte :: (r.payload ++ Bytes.zeros n ++ [terminator]) ++ rest ∧
        terminator ∉ r.payload ∧ r.payload.getLast? ≠ some 0 ∧
        used = 2 + r.payload.length + n) ∧
    ((∃ m, decode buffer = .error m) ↔
      terminator ∈ buffer ∧
        (buffer.head? = some terminator ∨ ∀ s : Status, buffer.head? ≠ some s.byte)) ∧
    (decode buffer ≠ .ok none → ∀ more, decode (buffer ++ more) = decode buffer) := by
  refine ⟨decode_eq_none_iff, fun r used => decode_eq_some_iff, ?_, decode_append⟩
  simp only [decode_eq_error_iff]
  constructor
  · rintro ⟨m, hmem, b, hhead, ⟨rfl, -⟩ | ⟨-, hb, -⟩⟩
    · exact ⟨hmem, .inl hhead⟩
    · exact ⟨hmem, .inr fun s hs => hb s (Option.some.inj (hhead.symm.trans hs))⟩
  · rintro ⟨hmem, hfirst⟩
    obtain ⟨b, hhead⟩ : ∃ b, buffer.head? = some b := by
      cases buffer with
      | nil => exact absurd hmem List.not_mem_nil
      | cons b rest => exact ⟨b, rfl⟩
    by_cases hb : b = terminator
    · exact ⟨.noStatus, hmem, b, hhead, .inl ⟨hb, rfl⟩⟩
    · refine ⟨.unknownStatus b, hmem, b, hhead, .inr ⟨hb, fun s hs => ?_, rfl⟩⟩
      rcases hfirst with hterminator | hnone
      · exact hb (Option.some.inj (hhead.symm.trans hterminator))
      · exact hnone s (hs ▸ hhead)

/-- Zeros inside the payload and behind it, and a frame that is malformed behind the first one. -/
theorem decode_inverts_encode_zeros :
    decode [79, 0, 97, 0, 0, 4, 33, 4] = .ok (some (⟨.ok, [0, 97]⟩, 6)) ∧
      ∀ more, decode ([79, 0, 97, 0, 0, 4, 33, 4] ++ more) = .ok (some (⟨.ok, [0, 97]⟩, 6)) := by
  have hspec := decode_inverts_encode [79, 0, 97, 0, 0, 4, 33, 4]
  have hread : decode [79, 0, 97, 0, 0, 4, 33, 4] = .ok (some (⟨.ok, [0, 97]⟩, 6)) :=
    (hspec.2.1 _ _).mpr ⟨2, [33, 4], rfl, by decide, by decide, rfl⟩
  refine ⟨hread, fun more => ?_⟩
  rw [hspec.2.2.2 (by rw [hread]; simp) more, hread]

end KvClient.Response

import KvClient.Proofs.Run
import Mathlib.Data.List.Permutation

/-!
# Order at the gate

A visitor of the gate is a caller that wants to use what is behind it, or a probe that wants to know
whether the gate is taken.  Both try the gate first.  A caller that finds it taken waits; a probe
gives back at once what it has got, but others may come in between.

## How it works

* **Trying the gate and waiting for it agree**: `tryEnter_eq_some_iff`, and trying fails just when
  the gate counts as taken: `tryEnter_eq_none_iff`.
* **What has happened tells who is at the gate**: `line`, `admitted` and `guards` are read off what
  the visitors did, and `Orderly` ties them to the gate.  Every step keeps it (`Orderly.step`).
* **The gate is safe, fair and never lost**: `fair_of_run`.
* **Callers that wait at once are served in the order in which they ask**: `fair_of_acts`.
-/

namespace KvClient

namespace Gate

/-! ## Moves at the gate -/

section

variable {α : Type} {g : Gate α} {c : α}

@[simp] theorem holder?_handOver (queue : List α) : (handOver queue).holder? = none := by
  cases queue <;> rfl

theorem eq_held_of_holder? (h : g.holder? = some c) : g = .held c g.waiting := by
  cases g with
  | held holder queue =>
    obtain rfl : holder = c := by simpa [holder?] using h
    rfl
  | _ => simp [holder?] at h

theorem mem_callers_of_holder? (h : g.holder? = some c) : c ∈ g.callers := by
  rw [eq_held_of_holder? h]
  exact List.mem_cons_self ..

theorem waiting_sublist_callers (g : Gate α) : g.waiting.Sublist g.callers := by
  cases g with
  | free => exact List.Sublist.refl _
  | granted => exact List.Sublist.refl _
  | held holder queue => exact List.sublist_cons_self holder queue

theorem mem_callers_of_waiting {d : α} (h : d ∈ g.waiting) : d ∈ g.callers :=
  g.waiting_sublist_callers.mem h

/-- A caller that arrives is admitted at once, or waits behind all others. -/
theorem arrive_cases (c : α) (g : Gate α) :
    (g.holder? = none ∧ g.waiting = [] ∧ (g.arrive c).holder? = some c ∧
        (g.arrive c).waiting = []) ∨
      ((g.arrive c).holder? = g.holder? ∧ (g.arrive c).waiting = g.waiting ++ [c]) := by
  cases g with
  | free => exact .inl ⟨rfl, rfl, rfl, rfl⟩
  | granted => exact .inr ⟨rfl, rfl⟩
  | held => exact .inr ⟨rfl, rfl⟩

/-- A gate that is given back has no holder, and the same callers wait. -/
theorem release_of_holder? [DecidableEq α] (h : g.holder? = some c) :
    (g.release c).holder? = none ∧ (g.release c).waiting = g.waiting ∧
      (g.release c).callers = g.waiting := by
  cases g with
  | held holder queue =>
    obtain rfl : holder = c := by simpa [holder?] using h
    rw [release, if_pos rfl]
    exact ⟨holder?_handOver queue, waiting_handOver queue, callers_handOver queue⟩
  | _ => simp [holder?] at h

/-- A caller that gives up makes no other one the holder, and lets no other one pass. -/
theorem cancel_cases [DecidableEq α] (c : α) (g : Gate α) :
    (∀ d, (g.cancel c).holder? = some d → g.holder? = some d) ∧
      (g.cancel c).waiting.Sublist g.waiting := by
  cases g with
  | free => exact ⟨fun _ h => h, List.Sublist.refl _⟩
  | granted next queue =>
    by_cases h : next = c
    · rw [cancel, if_pos h, waiting_handOver, holder?_handOver]
      exact ⟨fun d hd => by simp at hd, List.sublist_cons_self ..⟩
    · rw [cancel, if_neg h]
      exact ⟨fun d hd => by simp [holder?] at hd, List.erase_sublist.cons_cons _⟩
  | held holder queue =>
    by_cases h : holder = c
    · rw [cancel, if_pos h, waiting_handOver, holder?_handOver]
      exact ⟨fun d hd => by simp at hd, List.Sublist.refl _⟩
    · rw [cancel, if_neg h]
      exact ⟨fun _ hd => hd, List.erase_sublist⟩

/-- A caller that gives up while it waits leaves the line, and nothing else changes. -/
theorem cancel_of_waiting [DecidableEq α] (hnodup : g.callers.Nodup) (h : c ∈ g.waiting) :
    (g.cancel c).holder? = g.holder? ∧ (g.cancel c).waiting = g.waiting.erase c := by
  cases g with
  | free => simp [waiting] at h
  | granted next queue =>
    by_cases hc : next = c
    · -- The gate passes on to the next one that waits, which is not admitted by that.
      subst hc
      rw [cancel, if_pos rfl, holder?_handOver, waiting_handOver, waiting, List.erase_cons_head]
      exact ⟨rfl, rfl⟩
    · rw [cancel, if_neg hc, waiting, waiting, List.erase_cons_tail (by simpa using hc)]
      exact ⟨rfl, rfl⟩
  | held holder queue =>
    have hc : holder ≠ c := by
      rintro rfl
      exact (List.nodup_cons.mp hnodup).1 h
    rw [cancel, if_neg hc]
    exact ⟨rfl, rfl⟩

/-- A caller that gives up while it holds the gate gives it back. -/
theorem cancel_of_holder? [DecidableEq α] (h : g.holder? = some c) : g.cancel c = g.release c := by
  rw [eq_held_of_holder? h, cancel, release, if_pos rfl, if_pos rfl]

theorem isHeld_iff : g.isHeld = true ↔ g ≠ free := by
  cases g <;> simp [isHeld]

/-! ## Trying the gate -/

/-- The gate that a visitor has taken without waiting, if that is possible. -/
def tryEnter (c : α) : Gate α → Option (Gate α)
  | free => some (held c [])
  | _ => none

/-- **Who gets the gate by trying gets what it would get by waiting**, and passes nobody. -/
theorem tryEnter_eq_some_iff {g' : Gate α} :
    g.tryEnter c = some g' ↔ g = free ∧ g' = g.arrive c := by
  cases g with
  | free => simp [tryEnter, arrive, eq_comm]
  | _ => simp [tryEnter]

/-- **Trying fails just when the gate counts as taken.** -/
theorem tryEnter_eq_none_iff : g.tryEnter c = none ↔ g.isHeld = true := by
  cases g <;> simp [tryEnter, isHeld]

end

/-! ## Visitors -/

/-- Who comes to the gate. -/
inductive Visitor (α : Type)
  | caller (c : α)
  /-- Someone who asks whether the gate is taken. -/
  | probe (n : Nat)
  deriving DecidableEq

/-- What can happen at the gate. -/
inductive Event (α : Type)
  /-- A visitor takes the gate if it is free: a probe, or a caller that has just come. -/
  | tries (v : Visitor α)
  /-- A caller that has found the gate taken waits for it, unless it finds it free by now. -/
  | waits (c : α)
  /-- A visitor finds that the gate has been granted to it. -/
  | resumes (v : Visitor α)
  /-- A visitor gives its guard back. -/
  | leaves (v : Visitor α)
  /-- A caller goes away, whether it waits or holds a guard. -/
  | givesUp (c : α)

/-- What a visitor did. -/
inductive Effect (α : Type)
  /-- It has found out whether the gate is taken. -/
  | found (taken : Bool)
  /-- It has the gate, or a place in the line.  A visitor that has only found the gate taken has not
  arrived. -/
  | arrived (v : Visitor α)
  /-- It has got a guard. -/
  | admitted (v : Visitor α)
  /-- It has given its guard back. -/
  | left (v : Visitor α)
  /-- It has gone away without a guard. -/
  | gaveUp (v : Visitor α)
  deriving DecidableEq

variable {α : Type} [DecidableEq α]

/-- What an event makes of the gate; nothing if it cannot happen. -/
def step (g : Gate (Visitor α)) : Event α → Option (Gate (Visitor α) × List (Effect α))
  | .tries v =>
    if v ∈ g.callers then none
    else
      match g.tryEnter v with
      | some g' => some (g', [.found false, .arrived v, .admitted v])
      | none => some (g, [.found true])
  | .waits c =>
    if .caller c ∈ g.callers then none
    else if g.isHeld then some (g.arrive (.caller c), [.arrived (.caller c)])
    else some (g.arrive (.caller c), [.arrived (.caller c), .admitted (.caller c)])
  | .resumes v =>
    match g with
    | .granted next _ => if next = v then some (g.resume v, [.admitted v]) else none
    | _ => none
  | .leaves v => if g.holder? = some v then some (g.release v, [.left v]) else none
  | .givesUp c =>
    if g.holder? = some (.caller c) then some (g.cancel (.caller c), [.left (.caller c)])
    else if .caller c ∈ g.waiting then some (g.cancel (.caller c), [.gaveUp (.caller c)])
    else none

/-! ## Reading what has happened -/

/-- A list without the last occurrence of `v`. -/
def eraseLast (v : Visitor α) (line : List (Visitor α)) : List (Visitor α) :=
  (line.reverse.erase v).reverse

/-- The visitors in the order of their arrival, without those that gave up: these take their last
arrival back. -/
def line (effects : List (Effect α)) : List (Visitor α) :=
  effects.foldl (fun line e => match e with
    | .arrived v => line ++ [v]
    | .gaveUp v => eraseLast v line
    | _ => line) []

/-- The visitors that got a guard, in that order. -/
def admitted (effects : List (Effect α)) : List (Visitor α) :=
  effects.filterMap fun
    | .admitted v => some v
    | _ => none

/-- The guards that are out, by who has them. -/
def guards (effects : List (Effect α)) : List (Visitor α) :=
  effects.foldl (fun out e => match e with
    | .admitted v => out ++ [v]
    | .left v => out.erase v
    | _ => out) []

theorem line_arrived (effects : List (Effect α)) (v : Visitor α) :
    line (effects ++ [.arrived v]) = line effects ++ [v] := by
  simp [line]

theorem line_gaveUp (effects : List (Effect α)) (v : Visitor α) :
    line (effects ++ [.gaveUp v]) = eraseLast v (line effects) := by
  simp [line]

theorem guards_left (effects : List (Effect α)) (v : Visitor α) :
    guards (effects ++ [.left v]) = (guards effects).erase v := by
  simp [guards]

theorem eraseLast_append {a b : List (Visitor α)} {v : Visitor α} (hv : v ∈ b) (hb : b.Nodup) :
    eraseLast v (a ++ b) = a ++ b.erase v := by
  have hmem : v ∈ b.reverse := List.mem_reverse.mpr hv
  have hrev : b.reverse.Nodup := List.nodup_reverse.mpr hb
  -- There is only one occurrence, so the end from which it is looked for does not matter.
  have herase : b.reverse.erase v = (b.erase v).reverse := by
    rw [hrev.erase_eq_filter, hb.erase_eq_filter, List.filter_reverse]
  rw [eraseLast, List.reverse_append, List.erase_append_left _ hmem, herase, List.reverse_append,
    List.reverse_reverse, List.reverse_reverse]

/-! ## Order -/

/-- Who is at the gate is what has happened there. -/
structure Orderly (g : Gate (Visitor α)) (effects : List (Effect α)) : Prop where
  nodup : g.callers.Nodup
  line : line effects = admitted effects ++ g.waiting
  guards : guards effects = g.holder?.toList

variable {g g' : Gate (Visitor α)} {effects more : List (Effect α)} {v : Visitor α}

theorem orderly_free : Orderly (.free : Gate (Visitor α)) [] :=
  ⟨List.nodup_nil, rfl, rfl⟩

namespace Orderly

/-- Whether the gate is taken may be asked at any time. -/
theorem found (h : Orderly g effects) (taken : Bool) : Orderly g (effects ++ [.found taken]) := by
  obtain ⟨hnodup, hline, hguards⟩ := h
  refine ⟨hnodup, ?_, ?_⟩
  · simpa [Gate.line, admitted] using hline
  · simpa [Gate.guards] using hguards

/-- A visitor that comes to a free gate gets it. -/
theorem enters (h : Orderly .free effects) (v : Visitor α) :
    Orderly (.held v []) (effects ++ [.arrived v, .admitted v]) := by
  obtain ⟨-, hline, hguards⟩ := h
  refine ⟨by simp [callers], ?_, ?_⟩
  · simpa [Gate.line, admitted, waiting] using hline
  · simpa [Gate.guards, holder?] using hguards

/-- A visitor that comes to a gate that is taken is the last in the line. -/
theorem joins (h : Orderly g effects) (htaken : g.isHeld = true) (hnew : v ∉ g.callers) :
    Orderly (g.arrive v) (effects ++ [.arrived v]) := by
  obtain ⟨hnodup, hline, hguards⟩ := h
  have hlast : (g.arrive v).holder? = g.holder? ∧ (g.arrive v).waiting = g.waiting ++ [v] := by
    cases g with
    | free => simp [isHeld] at htaken
    | _ => exact ⟨rfl, rfl⟩
  refine ⟨?_, ?_, ?_⟩
  · rw [callers_arrive]
    refine List.nodup_append.mpr ⟨hnodup, by simp, ?_⟩
    rintro a ha b hb rfl
    obtain rfl : a = v := by simpa using hb
    exact hnew ha
  · rw [line_arrived, hline, hlast.2, List.append_assoc]
    simp [admitted]
  · rw [hlast.1]
    simpa [Gate.guards] using hguards

/-- The visitor to which the gate was granted is the next one in the line. -/
theorem admits {queue : List (Visitor α)} (h : Orderly (.granted v queue) effects) :
    Orderly (.held v queue) (effects ++ [.admitted v]) := by
  obtain ⟨hnodup, hline, hguards⟩ := h
  refine ⟨hnodup, ?_, ?_⟩
  · simpa [Gate.line, admitted, waiting] using hline
  · simpa [Gate.guards, holder?] using hguards

/-- A guard that is given back was the only one. -/
theorem leaves (h : Orderly g effects) (hholds : g.holder? = some v) :
    Orderly (g.release v) (effects ++ [.left v]) := by
  obtain ⟨hnodup, hline, hguards⟩ := h
  obtain ⟨hnone, hwaiting, hcallers⟩ := release_of_holder? hholds
  rw [hholds] at hguards
  rw [eq_held_of_holder? hholds] at hnodup
  refine ⟨?_, ?_, ?_⟩
  · rw [hcallers]
    exact (List.nodup_cons.mp hnodup).2
  · rw [hwaiting]
    simpa [Gate.line, admitted] using hline
  · rw [guards_left, hguards, hnone]
    simp

/-- A visitor that gives up leaves the line, which is otherwise as before. -/
theorem givesUp (h : Orderly g effects) (hwaits : v ∈ g.waiting) :
    Orderly (g.cancel v) (effects ++ [.gaveUp v]) := by
  obtain ⟨hnodup, hline, hguards⟩ := h
  obtain ⟨hholder, hwaiting⟩ := cancel_of_waiting hnodup hwaits
  have hline' : g.waiting.Nodup := hnodup.sublist g.waiting_sublist_callers
  refine ⟨?_, ?_, ?_⟩
  · rw [callers_cancel]
    exact hnodup.erase v
  · rw [hwaiting]
    rw [line_gaveUp, hline, eraseLast_append hwaits hline']
    simp [admitted]
  · rw [hholder]
    simpa [Gate.guards] using hguards

/-- **Every step keeps order.** -/
theorem step (h : Orderly g effects) {e : Event α} (hstep : g.step e = some (g', more)) :
    Orderly g' (effects ++ more) := by
  cases e with
  | tries v =>
    by_cases hin : v ∈ g.callers
    · simp [Gate.step, hin] at hstep
    · cases htry : g.tryEnter v with
      | none =>
        obtain ⟨rfl, rfl⟩ := by simpa [Gate.step, hin, htry] using hstep
        exact h.found true
      | some g₁ =>
        obtain ⟨rfl, rfl⟩ := by simpa [Gate.step, hin, htry] using hstep
        obtain ⟨rfl, rfl⟩ := tryEnter_eq_some_iff.mp htry
        have hfound := (h.found false).enters v
        rwa [List.append_assoc] at hfound
  | waits c =>
    by_cases hin : .caller c ∈ g.callers
    · simp [Gate.step, hin] at hstep
    · cases htaken : g.isHeld with
      | false =>
        obtain ⟨rfl, rfl⟩ := by simpa [Gate.step, hin, htaken] using hstep
        -- The gate has become free since the caller tried it.
        obtain rfl : g = .free := by
          cases g with
          | free => rfl
          | _ => simp [isHeld] at htaken
        exact h.enters (.caller c)
      | true =>
        obtain ⟨rfl, rfl⟩ := by simpa [Gate.step, hin, htaken] using hstep
        exact h.joins htaken hin
  | resumes v =>
    cases g with
    | granted next queue =>
      by_cases hnext : next = v
      · obtain ⟨rfl, rfl⟩ := by simpa [Gate.step, resume, hnext] using hstep
        subst hnext
        exact h.admits
      · simp [Gate.step, hnext] at hstep
    | _ => simp [Gate.step] at hstep
  | leaves v =>
    by_cases hholds : g.holder? = some v
    · obtain ⟨rfl, rfl⟩ := by simpa [Gate.step, hholds] using hstep
      exact h.leaves hholds
    · simp [Gate.step, hholds] at hstep
  | givesUp c =>
    by_cases hholds : g.holder? = some (.caller c)
    · obtain ⟨rfl, rfl⟩ := by simpa [Gate.step, hholds] using hstep
      rw [cancel_of_holder? hholds]
      exact h.leaves hholds
    · by_cases hwaits : .caller c ∈ g.waiting
      · obtain ⟨rfl, rfl⟩ := by simpa [Gate.step, hholds, hwaits] using hstep
        exact h.givesUp hwaits
      · simp [Gate.step, hholds, hwaits] at hstep

/-- **Every run from a free gate is orderly.** -/
theorem of_run {es : List (Event α)} (h : Run Gate.step .free es g effects) :
    Orderly g effects := by
  induction h with
  | nil => exact orderly_free
  | snoc _ hstep ih => exact ih.step hstep

/-- A gate with no guard out, before which nobody waits, is free. -/
theorem eq_free_iff (h : Orderly g effects) :
    g = .free ↔ Gate.guards effects = [] ∧ Gate.line effects = admitted effects := by
  rw [h.guards, h.line]
  cases g <;> simp [holder?, waiting]

/-- While no guard is out, the gate is granted to the first that waits. -/
theorem resumes_next (h : Orderly g effects) (hout : Gate.guards effects = [])
    {rest : List (Visitor α)} (hline : Gate.line effects = admitted effects ++ v :: rest) :
    g.step (.resumes v) = some (.held v rest, [.admitted v]) := by
  obtain hwaiting : g.waiting = v :: rest := List.append_cancel_left (h.line.symm.trans hline)
  have hnone : g.holder? = none := by simpa using h.guards.symm.trans hout
  cases g with
  | free => simp [waiting] at hwaiting
  | granted next queue =>
    obtain ⟨rfl, rfl⟩ : next = v ∧ queue = rest := by simpa [waiting] using hwaiting
    simp [Gate.step, resume]
  | held => simp [holder?] at hnone

end Orderly

/-! ## Safety and fairness -/

/-- What a gate owes to its visitors. -/
structure Fair (g : Gate (Visitor α)) (effects : List (Effect α)) : Prop where
  /-- **At most one guard is out.** -/
  exclusive : (guards effects).length ≤ 1
  /-- **The visitors get their guards in the order of their arrival**, those that have given up left
  out. -/
  inOrder : admitted effects <+: line effects
  /-- While no guard is out, the next one in the line can have it. -/
  next : ∀ v rest, guards effects = [] → line effects = admitted effects ++ v :: rest →
    g.step (.resumes v) = some (.held v rest, [.admitted v])
  /-- **The gate is never lost**: it is free just when no guard is out and nobody waits. -/
  free : g = .free ↔ guards effects = [] ∧ line effects = admitted effects
  /-- **It counts as taken just when it is not free.** -/
  taken : g.isHeld = true ↔ g ≠ .free
  /-- A new visitor that tries the gate finds out whether it is taken, and gets it if it is not. -/
  tries : ∀ v, v ∉ g.callers → ∃ g' more,
    g.step (.tries v) = some (g', .found g.isHeld :: more) ∧
      (.admitted v ∈ more ↔ g.isHeld = false)
  /-- A new caller that waits gets a place in the line, and the gate at once if it is not taken. -/
  waits : ∀ c, .caller c ∉ g.callers → ∃ g' more,
    g.step (.waits c) = some (g', .arrived (.caller c) :: more) ∧
      (.admitted (.caller c) ∈ more ↔ g.isHeld = false)

theorem Orderly.fair (h : Orderly g effects) : Fair g effects where
  exclusive := by
    rw [h.guards]
    cases g.holder? <;> simp
  inOrder := ⟨g.waiting, h.line.symm⟩
  next v rest hout hline := h.resumes_next hout hline
  free := h.eq_free_iff
  taken := isHeld_iff
  tries v hv := by
    cases htry : g.tryEnter v with
    | none =>
      have htaken := tryEnter_eq_none_iff.mp htry
      simp [Gate.step, hv, htry, htaken]
    | some g' =>
      obtain ⟨rfl, rfl⟩ := tryEnter_eq_some_iff.mp htry
      simp [Gate.step, hv, htry, isHeld]
  waits c hc := by
    cases htaken : g.isHeld <;> simp [Gate.step, hc, htaken]

/-- **The gate is safe, fair and never lost**, whatever its visitors do.  Between a try that fails
and the wait that follows it others may come; a caller arrives when it gets a place, and not
before. -/
theorem fair_of_run {es : List (Event α)} (hrun : runWith step .free es = some (g, effects)) :
    Fair g effects :=
  (Orderly.of_run (runWith_eq_some_iff.mp hrun)).fair

/-- Three callers wait while a fourth holds the gate.  The first of them gives up when the gate has
been granted to it, and the last before that; a probe gets the gate for a moment, and the caller
that finds it taken then has it after all. -/
theorem fair_of_run_mixed :
    let es : List (Event Nat) := [.tries (.caller 0), .tries (.caller 1), .waits 1, .waits 2,
      .tries (.probe 0), .waits 3, .leaves (.caller 0), .givesUp 3, .givesUp 1,
      .resumes (.caller 2), .leaves (.caller 2), .tries (.probe 1), .tries (.caller 4),
      .leaves (.probe 1), .waits 4, .givesUp 4]
    ∃ effects, runWith step .free es = some (.free, effects) ∧
      admitted effects = [.caller 0, .caller 2, .probe 1, .caller 4] ∧
      Fair (.free : Gate (Visitor Nat)) effects := by
  intro es
  have hrun : runWith step .free es = some (.free, [.found false, .arrived (.caller 0),
      .admitted (.caller 0), .found true, .arrived (.caller 1), .arrived (.caller 2), .found true,
      .arrived (.caller 3), .left (.caller 0), .gaveUp (.caller 3), .gaveUp (.caller 1),
      .admitted (.caller 2), .left (.caller 2), .found false, .arrived (.probe 1),
      .admitted (.probe 1), .found true, .left (.probe 1), .arrived (.caller 4),
      .admitted (.caller 4), .left (.caller 4)]) := rfl
  exact ⟨_, hrun, rfl, fair_of_run hrun⟩

/-! ## Callers that wait at once -/

/-- What a visitor does, if a caller that finds the gate taken waits for it at once. -/
inductive Act (α : Type)
  /-- A caller asks for a guard. -/
  | acquires (c : α)
  /-- Someone asks whether the gate is taken. -/
  | probes (n : Nat)
  | resumes (v : Visitor α)
  | leaves (v : Visitor α)
  | givesUp (c : α)

/-- The events of an act. -/
def Act.events (g : Gate (Visitor α)) : Act α → List (Event α)
  | .acquires c => .tries (.caller c) :: if g.isHeld then [.waits c] else []
  | .probes n => [.tries (.probe n)]
  | .resumes v => [.resumes v]
  | .leaves v => [.leaves v]
  | .givesUp c => [.givesUp c]

/-- What an act makes of the gate; nothing if it cannot happen. -/
def act (g : Gate (Visitor α)) (a : Act α) : Option (Gate (Visitor α) × List (Effect α)) :=
  runWith step g (a.events g)

/-- The callers that ask for a guard, in this order. -/
def asking (acts : List (Act α)) : List α :=
  acts.filterMap fun
    | .acquires c => some c
    | _ => none

/-- The callers that arrive, in this order. -/
def arriving (effects : List (Effect α)) : List α :=
  effects.filterMap fun
    | .arrived (.caller c) => some c
    | _ => none

/-- A caller arrives by asking, and in no other way. -/
theorem arriving_of_act {a : Act α} (h : g.act a = some (g', more)) :
    arriving more = asking [a] := by
  cases a with
  | acquires c =>
    by_cases hin : .caller c ∈ g.callers
    · simp [act, Act.events, runWith, step, hin] at h
    · cases htry : g.tryEnter (.caller c) with
      | none =>
        -- The try is no arrival; the wait behind it is.
        have htaken := tryEnter_eq_none_iff.mp htry
        obtain ⟨-, rfl⟩ := by simpa [act, Act.events, runWith, step, hin, htry, htaken] using h
        rfl
      | some g₁ =>
        have hfree : g.isHeld = false := by
          rw [(tryEnter_eq_some_iff.mp htry).1]
          rfl
        obtain ⟨-, rfl⟩ := by simpa [act, Act.events, runWith, step, hin, htry, hfree] using h
        rfl
  | probes n =>
    rw [act, Act.events, runWith_singleton, step] at h
    split at h
    · cases h
    · split at h <;> cases h <;> rfl
  | resumes v =>
    rw [act, Act.events, runWith_singleton] at h
    cases g with
    | granted next queue =>
      rw [step] at h
      split at h <;> cases h
      rfl
    | free | held => cases h
  | leaves v =>
    rw [act, Act.events, runWith_singleton, step] at h
    split at h <;> cases h
    rfl
  | givesUp c =>
    rw [act, Act.events, runWith_singleton, step] at h
    split at h
    · cases h
      rfl
    · split at h <;> cases h
      rfl

/-- **Callers that wait at once are served in the order in which they ask**: asking is arriving, and
the gate is fair to those that arrive. -/
theorem fair_of_acts {acts : List (Act α)} (hrun : runWith act .free acts = some (g, effects)) :
    Fair g effects ∧ arriving effects = asking acts := by
  replace hrun := runWith_eq_some_iff.mp hrun
  have hboth : (∃ es, Run step .free es g effects) ∧ arriving effects = asking acts := by
    induction hrun with
    | nil => exact ⟨⟨[], .nil⟩, rfl⟩
    | @snoc acts g₁ effects₁ a g₂ more _ hact ih =>
      obtain ⟨⟨es, hes⟩, harriving⟩ := ih
      refine ⟨⟨es ++ a.events g₁, hes.append (runWith_eq_some_iff.mp hact)⟩, ?_⟩
      rw [arriving, asking, List.filterMap_append, List.filterMap_append]
      exact congrArg₂ (· ++ ·) harriving (arriving_of_act hact)
  obtain ⟨⟨es, hes⟩, harriving⟩ := hboth
  exact ⟨(Orderly.of_run hes).fair, harriving⟩

end Gate

end KvClient

import KvClient.Client
import Mathlib.Data.List.Induction

/-!
# Runs

A link and a client are both a state that events take forward, and their runs are made in the same
way.  What holds of every run is said once, for any step function.

* **A run grows at its end**: `Run`, which is what `runWith` computes (`runWith_eq_some_iff`), so
  that a property of all runs is shown by induction on it.
* **Every beginning of a run is a run**: `Run.of_append`.
* **A log of a run grows with it**: `log_snoc`.
-/

namespace KvClient

variable {σ ε φ : Type}

/-- What a list of events makes of a state, and all that they did; nothing if one of them cannot
happen. -/
def runWith (step : σ → ε → Option (σ × List φ)) (s : σ) : List ε → Option (σ × List φ)
  | [] => some (s, [])
  | e :: rest =>
    match step s e with
    | none => none
    | some (s', effects) =>
      match runWith step s' rest with
      | none => none
      | some (s'', more) => some (s'', effects ++ more)

/-- A run from a state: the events so far, the state that they lead to, and all that they did. -/
inductive Run (step : σ → ε → Option (σ × List φ)) (s₀ : σ) : List ε → σ → List φ → Prop
  | nil : Run step s₀ [] s₀ []
  | snoc {es s effects e s' more} :
      Run step s₀ es s effects → step s e = some (s', more) →
      Run step s₀ (es ++ [e]) s' (effects ++ more)

variable {step : σ → ε → Option (σ × List φ)} {s s₁ s₂ : σ} {effects effects' : List φ}

/-! ## The two ways to make a run -/

theorem runWith_cons {e : ε} {es : List ε} :
    runWith step s (e :: es) = some (s₂, effects) ↔
      ∃ s₁ now later, step s e = some (s₁, now) ∧ runWith step s₁ es = some (s₂, later) ∧
        effects = now ++ later := by
  rw [runWith]
  cases hstep : step s e with
  | none => simp
  | some p =>
    obtain ⟨s₁, now⟩ := p
    show (match runWith step s₁ es with
      | none => none
      | some (s', later) => some (s', now ++ later)) = some (s₂, effects) ↔ _
    constructor
    · intro h
      cases hrun : runWith step s₁ es with
      | none => simp [hrun] at h
      | some q =>
        obtain ⟨s', later⟩ := q
        rw [hrun] at h
        obtain ⟨rfl, rfl⟩ := by simpa using h
        exact ⟨s₁, now, later, rfl, hrun, rfl⟩
    · rintro ⟨s₁', now', later', heq, hrun, rfl⟩
      obtain ⟨rfl, rfl⟩ := by simpa using heq
      rw [hrun]

theorem runWith_append {es es' : List ε} :
    runWith step s (es ++ es') = some (s₂, effects) ↔
      ∃ s₁ now later, runWith step s es = some (s₁, now) ∧ runWith step s₁ es' = some (s₂, later) ∧
        effects = now ++ later := by
  induction es generalizing s effects with
  | nil =>
    constructor
    · intro h
      exact ⟨s, [], effects, rfl, h, rfl⟩
    · rintro ⟨s', now, later, hnil, hes', rfl⟩
      obtain ⟨rfl, rfl⟩ := by simpa [runWith] using hnil
      exact hes'
  | cons e es ih =>
    rw [List.cons_append, runWith_cons]
    constructor
    · rintro ⟨s₁, now, later, hstep, hrest, rfl⟩
      obtain ⟨s', now', later', hes, hes', rfl⟩ := ih.mp hrest
      exact ⟨s', now ++ now', later', runWith_cons.mpr ⟨s₁, now, now', hstep, hes, rfl⟩, hes',
        (List.append_assoc ..).symm⟩
    · rintro ⟨s', now, later, hrun, hes', rfl⟩
      obtain ⟨s₁, now', later', hstep, hes, rfl⟩ := runWith_cons.mp hrun
      exact ⟨s₁, now', later' ++ later, hstep, ih.mpr ⟨s', later', later, hes, hes', rfl⟩,
        List.append_assoc ..⟩

theorem runWith_singleton {e : ε} : runWith step s [e] = step s e := by
  rw [runWith]
  cases step s e with
  | none => rfl
  | some p => simp [runWith]

/-- **What `runWith` computes are the runs.** -/
theorem runWith_eq_some_iff {es : List ε} :
    runWith step s es = some (s₁, effects) ↔ Run step s es s₁ effects := by
  constructor
  · -- `runWith` takes off the first event, a run the last one.
    intro h
    induction es using List.reverseRecOn generalizing s₁ effects with
    | nil =>
      obtain ⟨rfl, rfl⟩ := by simpa [runWith] using h
      exact .nil
    | append_singleton es e ih =>
      obtain ⟨s', now, later, hes, hlast, rfl⟩ := runWith_append.mp h
      exact .snoc (ih hes) (runWith_singleton.symm.trans hlast)
  · intro h
    induction h with
    | nil => rfl
    | snoc _ hstep ih =>
      exact runWith_append.mpr ⟨_, _, _, ih, runWith_singleton.trans hstep, rfl⟩

theorem Link.run_eq_runWith (l : Link) (es : List Link.Event) :
    l.run es = runWith Link.step l es := by
  induction es generalizing l with
  | nil => rfl
  | cons e es ih =>
    rw [Link.run, runWith]
    cases l.step e with
    | none => rfl
    | some p =>
      simp only [ih]
      cases runWith step p.1 es <;> rfl

theorem Client.run_eq_runWith (c : Client) (es : List Client.Event) :
    c.run es = runWith Client.step c es := by
  induction es generalizing c with
  | nil => rfl
  | cons e es ih =>
    rw [Client.run, runWith]
    cases c.step e with
    | none => rfl
    | some p =>
      simp only [ih]
      cases runWith step p.1 es <;> rfl

/-- **What a link's events make of it are its runs.** -/
theorem Link.run_eq_some_iff {l l' : Link} {es : List Link.Event} {effects : List Link.Effect} :
    l.run es = some (l', effects) ↔ Run Link.step l es l' effects := by
  rw [Link.run_eq_runWith, runWith_eq_some_iff]

/-- **What a client's events make of it are its runs.** -/
theorem Client.run_eq_some_iff {c c' : Client} {es : List Client.Event}
    {effects : List Client.Effect} :
    c.run es = some (c', effects) ↔ Run Client.step c es c' effects := by
  rw [Client.run_eq_runWith, runWith_eq_some_iff]

/-! ## Parts of a run -/

/-- **Every beginning of a run is a run.** -/
theorem Run.of_append {es es' : List ε} (h : Run step s (es ++ es') s₂ effects) :
    ∃ s₁ now later, Run step s es s₁ now ∧ Run step s₁ es' s₂ later ∧ effects = now ++ later := by
  obtain ⟨s₁, now, later, hes, hes', heq⟩ := runWith_append.mp (runWith_eq_some_iff.mpr h)
  exact ⟨s₁, now, later, runWith_eq_some_iff.mp hes, runWith_eq_some_iff.mp hes', heq⟩

/-- A run can be continued. -/
theorem Run.append {es es' : List ε} (h : Run step s es s₁ effects)
    (h' : Run step s₁ es' s₂ effects') : Run step s (es ++ es') s₂ (effects ++ effects') := by
  induction h' with
  | nil => simpa using h
  | snoc _ hstep ih =>
    rw [← List.append_assoc, ← List.append_assoc]
    exact ih.snoc hstep

/-- Two runs of the same events are one. -/
theorem Run.unique {es : List ε} (h : Run step s es s₁ effects) (h' : Run step s es s₂ effects') :
    s₁ = s₂ ∧ effects = effects' := by
  have heq := (runWith_eq_some_iff.mpr h).symm.trans (runWith_eq_some_iff.mpr h')
  simpa using heq

/-! ## Logs -/

/-- What an observer writes down during a run, who sees each event with the states around it. -/
def log {α : Type} (step : σ → ε → Option (σ × List φ)) (note : σ → ε → σ → List α) (s : σ) :
    List ε → List α
  | [] => []
  | e :: rest =>
    match step s e with
    | none => []
    | some (s', _) => note s e s' ++ log step note s' rest

/-- **A log grows with its run.** -/
theorem log_append {α : Type} {note : σ → ε → σ → List α} {es es' : List ε}
    (h : Run step s es s₁ effects) :
    log step note s (es ++ es') = log step note s es ++ log step note s₁ es' := by
  have hrun := runWith_eq_some_iff.mpr h
  clear h
  induction es generalizing s effects with
  | nil =>
    obtain ⟨rfl, -⟩ := by simpa [runWith] using hrun
    rfl
  | cons e es ih =>
    obtain ⟨s', now, later, hstep, hrest, -⟩ := runWith_cons.mp hrun
    simp only [List.cons_append, log, hstep, ih hrest, List.append_assoc]

theorem log_snoc {α : Type} {note : σ → ε → σ → List α} {es : List ε} {e : ε}
    (h : Run step s es s₁ effects) (hstep : step s₁ e = some (s₂, effects')) :
    log step note s (es ++ [e]) = log step note s es ++ note s₁ e s₂ := by
  rw [log_append h, log, hstep]
  simp [log]

end KvClient

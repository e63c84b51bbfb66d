import KvClient.Proofs.Client.Step
import KvClient.Proofs.Gate

/-!
# The order of calls

Calls that pass their check arrive at the gate one after the other.  The gate admits them in that
order; a call that is called off while it waits is left out.

## How it works

* **Each step moves at most one caller at the gate**: `AtGate`, `Moves.atGate`.
* **Admitted calls, and behind them those that wait, are in the order of arrival**: `Queued`, which
  every step keeps (`Queued.step`), so that it holds in every run (`queued_of_run`).
-/

namespace KvClient

namespace Client

variable {c c' : Client} {e : Event} {effects : List Effect}

/-! ## Calls and their commands -/

/-- The command that a caller wants to be sent. -/
def command? (c : Client) (id : CallId) : Option Command := (c.job? id).bind Job.command?

/-- The calls among these that want a command to be sent. -/
def commandsOf (c : Client) (ids : List CallId) : List (CallId × Command) :=
  ids.filterMap fun id => (c.command? id).map (id, ·)

/-- The call that an event makes, if it passes its check and wants a command to be sent. -/
def Event.checked : Event → List (CallId × Command)
  | .issue id request =>
    match request.check with
    | .ok job => (job.command?.map (id, ·)).toList
    | .error _ => []
  | _ => []

/-- The calls of a run that pass their check and want a command to be sent, in order of arrival. -/
def checked (es : List Event) : List (CallId × Command) := es.flatMap Event.checked

/-- The call that a step admits, if it wants a command to be sent. -/
def admittedBy (c : Client) (_ : Event) (c' : Client) : List (CallId × Command) :=
  if c.gate.holder? = none then commandsOf c' c'.gate.holder?.toList else []

/-- The calls that the gate admits in a run, in that order. -/
def admitted (c : Client) (es : List Event) : List (CallId × Command) := log step admittedBy c es

theorem checked_snoc (es : List Event) (e : Event) :
    checked (es ++ [e]) = checked es ++ e.checked := by
  simp [checked]

@[simp] theorem commandsOf_nil (c : Client) : commandsOf c [] = [] := rfl

theorem commandsOf_append (c : Client) (a b : List CallId) :
    commandsOf c (a ++ b) = commandsOf c a ++ commandsOf c b :=
  List.filterMap_append

theorem commandsOf_singleton {id : CallId} {command : Command} (h : c.command? id = some command) :
    commandsOf c [id] = [(id, command)] := by
  simp [commandsOf, h]

theorem commandsOf_congr {ids : List CallId} (h : ∀ id ∈ ids, c'.job? id = c.job? id) :
    commandsOf c' ids = commandsOf c ids := by
  refine List.filterMap_congr fun id hid => ?_
  rw [command?, command?, h id hid]

/-! ## Jobs -/

theorem job?_cons_self {id : CallId} {job : Job} (h : c'.jobs = (id, job) :: c.jobs) :
    c'.job? id = some job := by
  simp [job?, h]

theorem job?_cons_ne {id other : CallId} {job : Job} (h : c'.jobs = (id, job) :: c.jobs)
    (hne : other ≠ id) : c'.job? other = c.job? other := by
  simp [job?, h, hne.symm]

theorem job?_filter_ne {id other : CallId} (h : c'.jobs = c.jobs.filter (·.1 != id))
    (hne : other ≠ id) : c'.job? other = c.job? other := by
  unfold job?
  rw [h, List.find?_filter]
  congr 2
  funext p
  by_cases hp : p.1 = other
  · simp [hp, hne]
  · simp [hp]

theorem job?_congr (h : c'.jobs = c.jobs) (id : CallId) : c'.job? id = c.job? id := by
  rw [job?, job?, h]

/-! ## What a step does at the gate -/

/-- What an event does at the gate. -/
inductive AtGate (c : Client) (e : Event) (c' : Client) : Prop
  | stays (gate : c'.gate = c.gate) (jobs : c'.jobs = c.jobs) (nobody : e.checked = [])
  | arrives (id : CallId) (job : Job) (gate : c'.gate = c.gate.arrive id)
      (jobs : c'.jobs = (id, job) :: c.jobs) (absent : c.job? id = none)
      (arrival : e.checked = (job.command?.map (id, ·)).toList)
  | resumes (id : CallId) (queue : List CallId) (granted : c.gate = .granted id queue)
      (gate : c'.gate = .held id queue) (jobs : c'.jobs = c.jobs) (nobody : e.checked = [])
  | leaves (id : CallId) (holds : c.gate.holder? = some id) (gate : c'.gate = c.gate.release id)
      (jobs : c'.jobs = c.jobs.filter (·.1 != id)) (nobody : e.checked = [])
  | cancelled (id : CallId) (gate : c'.gate = c.gate.cancel id)
      (jobs : c'.jobs = c.jobs.filter (·.1 != id)) (nobody : e.checked = [])

@[simp] theorem gate_letGo (c : Client) (l : Link) : (c.letGo l).gate = c.gate := by
  unfold letGo; split <;> rfl

@[simp] theorem jobs_letGo (c : Client) (l : Link) : (c.letGo l).jobs = c.jobs := by
  unfold letGo; split <;> rfl

theorem takeCloser_cases (c : Client) :
    c.takeCloser.1.gate = c.gate ∧ c.takeCloser.1.jobs = c.jobs ∧
      (c.takeCloser.1.session = c.session ∧ c.takeCloser.2 = [] ∨
        ∃ l, c.session = .connected l ∧ c.takeCloser.1.session = .connected l.close.1 ∧
          c.takeCloser.2 = l.close.2.map .link) := by
  unfold takeCloser
  split
  · next l _ hsession => exact ⟨rfl, rfl, .inr ⟨l, hsession, rfl, rfl⟩⟩
  · exact ⟨rfl, rfl, .inl ⟨rfl, rfl⟩⟩

theorem abandonExchange_cases (c : Client) (id : CallId) :
    (c.abandonExchange id).1.gate = c.gate ∧ (c.abandonExchange id).1.jobs = c.jobs ∧
      (c.abandonExchange id = (c, []) ∧
          (∀ l, c.session = .connected l → c.gate.holder? = some id → l.exchange? = none) ∨
        ∃ l l' linkEffects, c.session = .connected l ∧ Link.Moves l .abandon l' linkEffects ∧
          (c.abandonExchange id).1.session = .connected l' ∧
          (c.abandonExchange id).2 = linkEffects.map .link) := by
  cases hsession : c.session with
  | connected l =>
    by_cases hholds : c.gate.holder? = some id
    · cases hstep : l.step .abandon with
      | some p =>
        have heq : c.abandonExchange id =
            ({ c with session := .connected p.1 }, p.2.map .link) := by
          simp [abandonExchange, hsession, hholds, hstep]
        rw [heq]
        exact ⟨rfl, rfl, .inr ⟨l, p.1, p.2, rfl, Link.moves_of_step hstep, rfl, rfl⟩⟩
      | none =>
        have heq : c.abandonExchange id = (c, []) := by
          simp [abandonExchange, hsession, hholds, hstep]
        rw [heq]
        refine ⟨rfl, rfl, .inl ⟨rfl, fun l₁ hl₁ _ => ?_⟩⟩
        obtain rfl : l = l₁ := by simpa using hl₁
        cases hx : l.exchange? with
        | none => rfl
        | some x => simp [Link.step, Link.abandon, hx] at hstep
    · have heq : c.abandonExchange id = (c, []) := by
        simp [abandonExchange, hsession, hholds]
      rw [heq]
      exact ⟨rfl, rfl, .inl ⟨rfl, fun _ _ hholds' => absurd hholds' hholds⟩⟩
  | _ =>
    have heq : c.abandonExchange id = (c, []) := by simp [abandonExchange, hsession]
    rw [heq]
    exact ⟨rfl, rfl, .inl ⟨rfl, fun l hl => by simp at hl⟩⟩

/-- **A step moves at most one caller at the gate.** -/
theorem Moves.atGate (hm : Moves c e c' effects) : AtGate c e c' := by
  cases hm with
  | invalid id request err refused => exact .stays rfl rfl (by rw [Event.checked, refused])
  | arrived id request job valid absent =>
    exact .arrives id job rfl rfl absent (by rw [Event.checked, valid])
  | arrivedToClose id request valid absent =>
    obtain ⟨hgate, hjobs, -⟩ := takeCloser_cases c
    exact .arrives id .close (by rw [hgate]) (by rw [hjobs]) absent (by rw [Event.checked, valid])
  | resumed id queue granted => exact .resumes id queue granted rfl rfl rfl
  | began | progressed | shutdownBegun => exact .stays rfl rfl rfl
  | completed e id command yield s le l l' linkEffects holds wants cause =>
    refine .leaves id holds (by simp [finish]) (by simp [finish]) ?_
    rcases cause with ⟨rfl, -⟩ | ⟨rfl, -⟩ <;> rfl
  | answered e id job result holds wants linkless cause =>
    refine .leaves id holds rfl rfl ?_
    rcases cause with rfl | ⟨err, rfl⟩ <;> rfl
  | closed id holds | shutDown id l l' linkEffects holds | dialed id credentials? holds =>
    exact .leaves id holds rfl rfl rfl
  | cancelled id =>
    obtain ⟨hgate, hjobs, -⟩ := abandonExchange_cases c id
    exact .cancelled id (by rw [hgate]) (by rw [hjobs]) rfl

/-! ## The order -/

/-- The calls at the gate are different ones, and it is known what they want.  Admitted calls, and
behind them those that wait, are in the order of arrival. -/
structure Queued (c : Client) (admitted arrived : List (CallId × Command)) : Prop where
  nodup : c.gate.callers.Nodup
  known : ∀ id ∈ c.gate.callers, (c.job? id).isSome
  order : (admitted ++ commandsOf c c.gate.waiting).Sublist arrived
  holder : ∀ id command, c.gate.holder? = some id → c.command? id = some command →
    (id, command) ∈ admitted

variable {adm arrived : List (CallId × Command)}

/-- A caller that is not known is not at the gate. -/
theorem Queued.not_mem (h : Queued c adm arrived) {id : CallId} (habsent : c.job? id = none) :
    id ∉ c.gate.callers := by
  intro hmem
  have hknown := h.known id hmem
  simp [habsent] at hknown

theorem queued_of_empty (hgate : c.gate = .free) : Queued c [] [] where
  nodup := by rw [hgate]; exact List.nodup_nil
  known := by intro id hid; simp [hgate, Gate.callers] at hid
  order := by rw [hgate]; exact List.Sublist.refl _
  holder := by intro id command hholds; simp [hgate, Gate.holder?] at hholds

/-- The holder of the gate behind a step held it before, or is admitted by the step. -/
theorem AtGate.holder_cases (hat : AtGate c e c') (h : Queued c adm arrived) {id : CallId}
    {command : Command} (hholds : c'.gate.holder? = some id)
    (hwants : c'.command? id = some command) :
    (c.gate.holder? = some id ∧ c.command? id = some command ∧ admittedBy c e c' = []) ∨
      (c.gate.holder? = none ∧ admittedBy c e c' = [(id, command)]) := by
  have hbefore : c.gate.holder? = some id → c'.job? id = c.job? id →
      c.gate.holder? = some id ∧ c.command? id = some command ∧ admittedBy c e c' = [] := by
    intro hheld hjob
    rw [command?, hjob] at hwants
    exact ⟨hheld, hwants, if_neg (by simp [hheld])⟩
  have hnew : c.gate.holder? = none → admittedBy c e c' = [(id, command)] := by
    intro hfree
    rw [admittedBy, if_pos hfree, hholds]
    exact commandsOf_singleton hwants
  cases hat with
  | stays gate jobs =>
    rw [gate] at hholds
    exact .inl (hbefore hholds (job?_congr jobs id))
  | arrives other job gate jobs absent =>
    rcases Gate.arrive_cases other c.gate with ⟨hfree, -⟩ | ⟨hsame, -⟩
    · exact .inr ⟨hfree, hnew hfree⟩
    · rw [gate, hsame] at hholds
      refine .inl (hbefore hholds (job?_cons_ne jobs ?_))
      rintro rfl
      exact h.not_mem absent (Gate.mem_callers_of_holder? hholds)
  | resumes other queue granted =>
    have hfree : c.gate.holder? = none := by rw [granted]; rfl
    exact .inr ⟨hfree, hnew hfree⟩
  | leaves other holds gate =>
    rw [gate, (Gate.release_of_holder? holds).1] at hholds
    simp at hholds
  | cancelled other gate jobs =>
    rw [gate] at hholds
    refine .inl (hbefore ((Gate.cancel_cases other c.gate).1 id hholds) (job?_filter_ne jobs ?_))
    rintro rfl
    have hmem := Gate.mem_callers_of_holder? hholds
    rw [Gate.callers_cancel] at hmem
    exact h.nodup.not_mem_erase hmem

/-- The holder of the gate behind a step was admitted by then. -/
theorem AtGate.holder_admitted (hat : AtGate c e c') (h : Queued c adm arrived) {id : CallId}
    {command : Command} (hholds : c'.gate.holder? = some id)
    (hwants : c'.command? id = some command) : (id, command) ∈ adm ++ admittedBy c e c' := by
  rcases hat.holder_cases h hholds hwants with ⟨hheld, hwanted, -⟩ | ⟨-, hnew⟩
  · exact List.mem_append_left _ (h.holder id command hheld hwanted)
  · rw [hnew]
    exact List.mem_append_right _ (List.mem_singleton_self _)

/-- A step that makes nobody the holder admits nobody. -/
theorem admittedBy_eq_nil (h : ∀ id, c'.gate.holder? = some id → c.gate.holder? = some id) :
    admittedBy c e c' = [] := by
  unfold admittedBy
  by_cases hfree : c.gate.holder? = none
  · have hnone : c'.gate.holder? = none := by
      refine Option.eq_none_iff_forall_ne_some.mpr fun id hid => ?_
      simp [h id hid] at hfree
    rw [if_pos hfree, hnone]
    rfl
  · rw [if_neg hfree]

/-- A step keeps the order if all that it does at the gate is to let callers go. -/
theorem Queued.fewer (h : Queued c adm arrived)
    (hcallers : c'.gate.callers.Sublist c.gate.callers)
    (hwaiting : c'.gate.waiting.Sublist c.gate.waiting)
    (hholder : ∀ id, c'.gate.holder? = some id → c.gate.holder? = some id)
    (hjob : ∀ id ∈ c'.gate.callers, c'.job? id = c.job? id) (nobody : e.checked = []) :
    Queued c' (adm ++ admittedBy c e c') (arrived ++ e.checked) := by
  rw [admittedBy_eq_nil hholder, nobody, List.append_nil, List.append_nil]
  constructor
  · exact h.nodup.sublist hcallers
  · intro id hid
    rw [hjob id hid]
    exact h.known id (hcallers.subset hid)
  · rw [commandsOf_congr fun id hid => hjob id (Gate.mem_callers_of_waiting hid)]
    exact ((List.Sublist.refl adm).append (hwaiting.filterMap _)).trans h.order
  · intro id command hholds hwants
    rw [command?, hjob id (Gate.mem_callers_of_holder? hholds)] at hwants
    exact h.holder id command (hholder id hholds) hwants

/-- A caller that arrives is admitted if nobody is at the gate, and is the last one otherwise. -/
theorem Queued.arrive (h : Queued c adm arrived) {id : CallId} {job : Job}
    (hat : AtGate c e c') (gate : c'.gate = c.gate.arrive id)
    (jobs : c'.jobs = (id, job) :: c.jobs) (absent : c.job? id = none)
    (arrival : e.checked = (job.command?.map (id, ·)).toList) :
    Queued c' (adm ++ admittedBy c e c') (arrived ++ e.checked) := by
  have hnot := h.not_mem absent
  have hcallers : c'.gate.callers = c.gate.callers ++ [id] := by
    rw [gate, Gate.callers_arrive]
  have hself : commandsOf c' [id] = e.checked := by
    rw [arrival, commandsOf, List.filterMap_cons, command?, job?_cons_self jobs]
    cases job <;> rfl
  constructor
  · rw [hcallers]
    refine List.nodup_append.mpr ⟨h.nodup, by simp, fun a ha b hb hab => ?_⟩
    rw [List.mem_singleton.mp hb] at hab
    exact hnot (hab ▸ ha)
  · intro other hother
    rw [hcallers] at hother
    by_cases hne : other = id
    · rw [hne, job?_cons_self jobs]
      rfl
    · rw [job?_cons_ne jobs hne]
      refine h.known other ((List.mem_append.mp hother).resolve_right ?_)
      simpa using hne
  · have hwaiting : commandsOf c' c.gate.waiting = commandsOf c c.gate.waiting := by
      refine commandsOf_congr fun other hother => job?_cons_ne jobs ?_
      rintro rfl
      exact hnot (Gate.mem_callers_of_waiting hother)
    rcases Gate.arrive_cases id c.gate with ⟨hfree, hnone, hheld, hempty⟩ | ⟨hsame, hlast⟩
    · -- Nobody waits at a free gate, so that the caller passes no other one.
      have horder := h.order
      rw [hnone, commandsOf_nil, List.append_nil] at horder
      rw [admittedBy, if_pos hfree, gate, hheld, hempty, commandsOf_nil, List.append_nil]
      exact horder.append (hself ▸ List.Sublist.refl _)
    · rw [admittedBy_eq_nil (fun other hother => hsame ▸ gate ▸ hother), gate, hlast,
        commandsOf_append, hwaiting, hself, List.append_nil, ← List.append_assoc]
      exact h.order.append (List.Sublist.refl _)
  · exact fun _ _ => hat.holder_admitted h

/-- The caller to which the gate was granted is admitted. -/
theorem Queued.resume (h : Queued c adm arrived) {id : CallId} {queue : List CallId}
    (hat : AtGate c e c') (granted : c.gate = .granted id queue) (gate : c'.gate = .held id queue)
    (jobs : c'.jobs = c.jobs) (nobody : e.checked = []) :
    Queued c' (adm ++ admittedBy c e c') (arrived ++ e.checked) := by
  have hcommands : ∀ ids, commandsOf c' ids = commandsOf c ids :=
    fun ids => commandsOf_congr fun other _ => job?_congr jobs other
  have hcallers : c'.gate.callers = c.gate.callers := by rw [gate, granted]; rfl
  constructor
  · exact hcallers ▸ h.nodup
  · intro other hother
    rw [job?_congr jobs]
    exact h.known other (hcallers ▸ hother)
  · have horder := h.order
    have hsplit : commandsOf c c.gate.waiting = commandsOf c [id] ++ commandsOf c queue := by
      rw [granted, ← commandsOf_append]
      rfl
    rw [hsplit, ← List.append_assoc] at horder
    rw [admittedBy, if_pos (by rw [granted]; rfl), gate, nobody, List.append_nil]
    show (adm ++ commandsOf c' [id] ++ commandsOf c' queue).Sublist arrived
    rw [hcommands, hcommands]
    exact horder
  · exact fun _ _ => hat.holder_admitted h

/-- **A step keeps the order.** -/
theorem Queued.step (h : Queued c adm arrived) (hat : AtGate c e c') :
    Queued c' (adm ++ admittedBy c e c') (arrived ++ e.checked) := by
  cases hat with
  | stays gate jobs nobody =>
    refine h.fewer ?_ ?_ (fun id hid => gate ▸ hid) (fun id _ => job?_congr jobs id) nobody
    · rw [gate]
    · rw [gate]
  | arrives id job gate jobs absent arrival =>
    exact h.arrive (.arrives id job gate jobs absent arrival) gate jobs absent arrival
  | resumes id queue granted gate jobs nobody =>
    exact h.resume (.resumes id queue granted gate jobs nobody) granted gate jobs nobody
  | leaves id holds gate jobs nobody =>
    obtain ⟨hnone, hwaiting, hcallers⟩ := Gate.release_of_holder? holds
    have hheld := Gate.eq_held_of_holder? holds
    have hnodup := h.nodup
    rw [hheld] at hnodup
    obtain ⟨hnot, -⟩ := List.nodup_cons.mp hnodup
    refine h.fewer ?_ ?_ ?_ (fun other hother => job?_filter_ne jobs ?_) nobody
    · rw [gate, hcallers, hheld]
      exact List.sublist_cons_self ..
    · rw [gate, hwaiting]
    · intro other hother
      rw [gate, hnone] at hother
      simp at hother
    · rintro rfl
      rw [gate, hcallers] at hother
      exact hnot hother
  | cancelled id gate jobs nobody =>
    obtain ⟨hkeeps, hwaiting⟩ := Gate.cancel_cases id c.gate
    have hcallers : c'.gate.callers = c.gate.callers.erase id := by
      rw [gate, Gate.callers_cancel]
    refine h.fewer ?_ ?_ ?_ (fun other hother => job?_filter_ne jobs ?_) nobody
    · rw [hcallers]
      exact List.erase_sublist
    · rw [gate]
      exact hwaiting
    · intro other hother
      exact hkeeps other (gate ▸ hother)
    · rintro rfl
      rw [hcallers] at hother
      exact h.nodup.not_mem_erase hother

/-- **In every run, calls are admitted in the order of their arrival.** -/
theorem queued_of_run {c₀ : Client} (hgate : c₀.gate = .free) {es : List Event}
    (hrun : Run step c₀ es c effects) : Queued c (admitted c₀ es) (checked es) := by
  induction hrun with
  | nil => exact queued_of_empty hgate
  | snoc hrun hstep ih =>
    rw [admitted, log_snoc hrun hstep, checked_snoc]
    exact ih.step (moves_of_step hstep).atGate

end Client

end KvClient

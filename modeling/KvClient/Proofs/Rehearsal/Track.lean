import KvClient.Proofs.Client.Single
import KvClient.Rehearsal.Session

/-!
# Rehearsals are runs of the client

A rehearsal is made of turns.  Whatever happens in a turn, to the pipe, to the peer, to the queue and
to the clock, the client goes on by its own events or stays as it is.  So what holds of every run of
a client holds of every rehearsal.

## How it works

* **Most of what happens leaves no track**: `Track`, with one lemma for each part of a turn
  (`track_wake` and so on).
* **Each turn takes the run of the client further**: `Rehearsed` says how a world goes with a run, and
  `Continues` that it goes on so, with one lemma for each kind of turn (`continues_stepTask`).
* **So does a session**: `rehearsed_of_perform`.
-/

namespace KvClient.Rehearsal

/-- What tells how the client of a world has come to where it is. -/
structure Track where
  host : Host
  callers : List Caller
  outcomes : List (CallId × Outcome)
  nextId : CallId
  /-- The numbers of the chores. -/
  errands : List CallId

namespace World

/-- The numbers of the chores. -/
def errands (w : World) : List CallId := w.chores.map (·.id)

/-- The track of a world. -/
def track (w : World) : Track := ⟨w.host, w.callers, w.outcomes, w.nextId, w.errands⟩

/-! ## What leaves no track -/

variable (w : World)

@[simp] theorem track_wake (t : Task) : (w.wake t).track = w.track := by
  unfold wake; split <;> rfl

@[simp] theorem track_wakeAll (ts : List Task) : (w.wakeAll ts).track = w.track := by
  induction ts generalizing w with
  | nil => rfl
  | cons t ts ih => exact (ih (w.wake t)).trans (track_wake w t)

@[simp] theorem track_block : w.block.track = w.track := rfl

@[simp] theorem track_setTimer (moment : Nat) (t : Task) :
    (w.setTimer moment t).track = w.track := rfl

@[simp] theorem track_wakePeer : w.wakePeer.track = w.track := by
  unfold wakePeer; split
  · exact track_wake _ _
  · rfl

@[simp] theorem track_wakeReader : w.wakeReader.track = w.track := by
  unfold wakeReader; split
  · exact track_wake _ _
  · rfl

@[simp] theorem track_wakeWriter : w.wakeWriter.track = w.track := by
  unfold wakeWriter; split
  · exact track_wake _ _
  · rfl

@[simp] theorem track_wakeSenders : w.wakeSenders.track = w.track := track_wakeAll _ _

@[simp] theorem track_noticeClientEnd : w.noticeClientEnd.track = w.track := by
  unfold noticeClientEnd; split <;> simp

@[simp] theorem track_dropWriter : w.dropWriter.track = w.track := track_noticeClientEnd _

@[simp] theorem track_dropReader : w.dropReader.track = w.track := track_noticeClientEnd _

@[simp] theorem track_dropPeer : w.dropPeer.track = w.track := by
  unfold dropPeer
  rw [track_wakeWriter, track_wakeReader]
  rfl

@[simp] theorem track_shutPipe : w.shutPipe.track = w.track := by
  unfold shutPipe; split
  · rfl
  · exact track_wakePeer _

@[simp] theorem track_breakPipe (kind : FaultKind) : (w.breakPipe kind).track = w.track := by
  cases kind with
  | read => exact track_wakeReader _
  | write => exact track_wakeWriter _
  | _ => rfl

@[simp] theorem track_sendSome (bytes : Bytes) : (w.sendSome bytes).1.track = w.track :=
  track_wakeReader _

@[simp] theorem track_noticeAbort (before after : Option Link) :
    (w.noticeAbort before after).track = w.track := by
  unfold noticeAbort
  extract_lets stopped
  split
  · exact track_wake _ _
  · rfl

@[simp] theorem track_noticeLinkEffect (holder? : Option CallId) (e : Link.Effect) :
    (w.noticeLinkEffect holder? e).track = w.track := by
  unfold noticeLinkEffect
  split
  · split <;> simp
  · rfl

@[simp] theorem track_noticeGrant (before after : Gate CallId) :
    (w.noticeGrant before after).track = w.track := by
  unfold noticeGrant
  split
  · split <;> simp
  · rfl

@[simp] theorem track_setChore (x : Chore) : (w.setChore x).track = w.track := by
  have herrands : (w.setChore x).errands = w.errands := by
    show (w.chores.map _).map _ = w.chores.map _
    rw [List.map_map]
    refine List.map_congr_left fun y _ => ?_
    by_cases hy : y.id = x.id <;> simp [hy]
  rw [track, herrands]
  rfl

@[simp] theorem track_moveTo (moment : Nat) : (w.moveTo moment).track = w.track :=
  track_wakeAll _ _

theorem track_stepAction (action : Action) (rest : List Action) :
    (w.stepAction action rest).track = w.track := by
  cases action with
  | send bytes =>
    simp only [stepAction]
    split
    · rfl
    · split
      · rfl
      · exact track_sendSome w bytes
  | wait time =>
    simp only [stepAction]
    split
    · split <;> rfl
    · split <;> rfl
  | fault kind => exact track_breakPipe w kind
  | hangUp => exact track_dropPeer w

/-- **A turn of the peer leaves no track.** -/
theorem track_stepPeer : w.stepPeer.track = w.track := by
  unfold stepPeer
  split
  · exact track_stepAction ..
  · split
    · rfl
    · split
      · rfl
      · split
        · split <;> rfl
        · exact track_wakeWriter _

/-! ## What goes with a run -/

/-- What callers are about. -/
def roll (w : World) : List (CallId × Matter) := w.callers.map fun x => (x.id, x.matter)

/-- What the effects of a client say that a call has come to. -/
inductive Tells (effects : List Client.Effect) (id : CallId) : Outcome → Prop
  | reply (r : Except Error Reply) (told : .finished id r ∈ effects) : Tells effects id (.reply r)
  | cancelled (told : .cancelled id ∈ effects) : Tells effects id .cancelled

/-- A world goes with a run of its client: the callers have asked for what they are about, each of
them once, and have come to what the client has told them.  Chores have numbers of their own. -/
structure Rehearsed (config : Config) (roll : List (CallId × Matter)) (w : World)
    (es : List Client.Event) (effects : List Client.Effect) : Prop where
  host : ∃ c, w.host = .client c ∧ Run Client.step (.withTransport config) es c effects
  callers : w.roll = roll
  distinct : (roll.map Prod.fst).Nodup
  numbered : ∀ p ∈ roll, p.1 < w.nextId
  asked : ∀ id request, (id, request) ∈ Client.asked es →
    (id, .request request) ∈ roll ∧ ∀ x ∈ w.callers, x.id = id → x.started = true
  once : ((Client.asked es).map Prod.fst).Nodup
  apart : ∀ id ∈ w.errands, id < w.nextId ∧ id ∉ roll.map Prod.fst
  told : ∀ id ∉ w.errands, ∀ o, (id, o) ∈ w.outcomes ↔ Tells effects id o

variable {config : Config} {roll : List (CallId × Matter)} {w w' w'' : World} {c c' : Client}
  {e : Client.Event} {es es' : List Client.Event} {effects effects' : List Client.Effect}
  {x x' : Caller}

theorem Rehearsed.congr (h : Rehearsed config roll w es effects) (htrack : w'.track = w.track) :
    Rehearsed config roll w' es effects := by
  obtain ⟨hhost, hcallers, houtcomes, hnextId, herrands⟩ := Track.mk.inj htrack
  obtain ⟨host, callers, distinct, numbered, asked, once, apart, told⟩ := h
  refine ⟨hhost ▸ host, (congrArg _ hcallers).trans callers, distinct, hnextId ▸ numbered,
    hcallers ▸ asked, once, ?_, ?_⟩
  · rw [herrands, hnextId]
    exact apart
  · rw [herrands, houtcomes]
    exact told

/-- From a world to another one, the run of the client goes on, with the same chores. -/
def Continues (w w' : World) : Prop :=
  ∀ config roll es effects, Rehearsed config roll w es effects → w'.errands = w.errands ∧
    ∃ es' effects', Rehearsed config roll w' (es ++ es') (effects ++ effects')

/-- What takes the run no further continues it. -/
theorem Continues.of_same (herrands : w'.errands = w.errands)
    (h : ∀ config roll es effects, Rehearsed config roll w es effects →
      Rehearsed config roll w' es effects) : Continues w w' := by
  intro config roll es effects hw
  refine ⟨herrands, [], [], ?_⟩
  rw [List.append_nil, List.append_nil]
  exact h config roll es effects hw

theorem Continues.of_track (h : w'.track = w.track) : Continues w w' :=
  .of_same (congrArg Track.errands h) fun _ _ _ _ hw => hw.congr h

theorem Continues.refl (w : World) : Continues w w := .of_track rfl

theorem Continues.trans (h : Continues w w') (h' : Continues w' w'') : Continues w w'' := by
  intro config roll es effects hw
  obtain ⟨herrands₁, es₁, effects₁, hw₁⟩ := h config roll es effects hw
  obtain ⟨herrands₂, es₂, effects₂, hw₂⟩ := h' config roll _ _ hw₁
  refine ⟨herrands₂.trans herrands₁, es₁ ++ es₂, effects₁ ++ effects₂, ?_⟩
  rw [← List.append_assoc, ← List.append_assoc]
  exact hw₂

/-- What leaves no track may come first, or last. -/
theorem Continues.after (h : Continues w' w'') (htrack : w'.track = w.track) : Continues w w'' :=
  (Continues.of_track htrack).trans h

theorem Continues.before (h : Continues w w') (htrack : w''.track = w'.track) : Continues w w'' :=
  h.trans (.of_track htrack)

/-! ## Events of the client -/

/-- What is recorded of the effects of an event. -/
def recorded (effects : List Client.Effect) (outcomes : List (CallId × Outcome)) :
    List (CallId × Outcome) :=
  effects.foldl (fun outcomes effect =>
    match effect with
    | .link _ => outcomes
    | .finished id result => (id, .reply result) :: outcomes
    | .cancelled id => (id, .cancelled) :: outcomes) outcomes

theorem mem_recorded {id : CallId} {o : Outcome} {outcomes : List (CallId × Outcome)} :
    (id, o) ∈ recorded effects outcomes ↔ (id, o) ∈ outcomes ∨ Tells effects id o := by
  induction effects generalizing outcomes with
  | nil =>
    refine (or_iff_left ?_).symm
    rintro (⟨r, told⟩ | ⟨told⟩)
    · exact List.not_mem_nil told
    · exact List.not_mem_nil told
  | cons effect rest ih =>
    refine ih.trans ?_
    have hrest : Tells rest id o → Tells (effect :: rest) id o := by
      rintro (⟨r, told⟩ | ⟨told⟩)
      · exact .reply r (List.mem_cons_of_mem _ told)
      · exact .cancelled (List.mem_cons_of_mem _ told)
    constructor
    · rintro (hfirst | htells)
      · cases effect with
        | link => exact .inl hfirst
        | finished other result =>
          rcases List.mem_cons.mp hfirst with heq | hbefore
          · obtain ⟨rfl, rfl⟩ := Prod.mk.inj heq
            exact .inr (.reply result (List.mem_cons_self ..))
          · exact .inl hbefore
        | cancelled other =>
          rcases List.mem_cons.mp hfirst with heq | hbefore
          · obtain ⟨rfl, rfl⟩ := Prod.mk.inj heq
            exact .inr (.cancelled (List.mem_cons_self ..))
          · exact .inl hbefore
      · exact .inr (hrest htells)
    · rintro (hbefore | ⟨r, told⟩ | ⟨told⟩)
      · left
        cases effect with
        | link => exact hbefore
        | finished | cancelled => exact List.mem_cons_of_mem _ hbefore
      · rcases List.mem_cons.mp told with rfl | hlater
        · exact .inl (List.mem_cons_self ..)
        · exact .inr (.reply r hlater)
      · rcases List.mem_cons.mp told with rfl | hlater
        · exact .inl (List.mem_cons_self ..)
        · exact .inr (.cancelled hlater)

theorem tells_append {id : CallId} {o : Outcome} :
    Tells (effects ++ effects') id o ↔ Tells effects id o ∨ Tells effects' id o := by
  constructor
  · rintro (⟨r, told⟩ | ⟨told⟩)
    · exact (List.mem_append.mp told).imp (.reply r) (.reply r)
    · exact (List.mem_append.mp told).imp .cancelled .cancelled
  · rintro ((⟨r, told⟩ | ⟨told⟩) | (⟨r, told⟩ | ⟨told⟩))
    · exact .reply r (List.mem_append_left _ told)
    · exact .cancelled (List.mem_append_left _ told)
    · exact .reply r (List.mem_append_right _ told)
    · exact .cancelled (List.mem_append_right _ told)

theorem track_foldl_notice (holder? : Option CallId) (w : World) :
    (effects.foldl (noticeClientEffect holder?) w).track =
      { w.track with outcomes := recorded effects w.outcomes } := by
  induction effects generalizing w with
  | nil => rfl
  | cons effect rest ih =>
    rw [List.foldl_cons, ih]
    cases effect with
    | link e =>
      have htrack := track_noticeLinkEffect w holder? e
      show ({ (w.noticeLinkEffect holder? e).track with
        outcomes := recorded rest (w.noticeLinkEffect holder? e).track.outcomes } : Track) = _
      rw [htrack]
      rfl
    | finished | cancelled => rfl

/-- An event of the client leaves the track of its effects. -/
theorem track_afterClient (before after : Client) (w : World) :
    (w.afterClient before after effects).track =
      ⟨.client after, w.callers, recorded effects w.outcomes, w.nextId, w.errands⟩ := by
  unfold afterClient
  rw [track_noticeGrant]
  split
  · rw [track_dropWriter, track_noticeAbort, track_foldl_notice]
    rfl
  · rw [track_noticeAbort, track_foldl_notice]
    rfl

/-- An event takes the run further; a request is that of a caller who has not asked before. -/
theorem Rehearsed.afterClient (h : Rehearsed config roll w es effects) (hhost : w.host = .client c)
    (hstep : c.step e = some (c', effects'))
    (hasked : ∀ id request, e = .issue id request → (id, .request request) ∈ roll ∧
      (∀ x ∈ w.callers, x.id = id → x.started = true) ∧ id ∉ (Client.asked es).map Prod.fst) :
    Rehearsed config roll (w.afterClient c c' effects') (es ++ [e]) (effects ++ effects') := by
  obtain ⟨⟨c₁, hhost₁, hrun⟩, hcallers, hdistinct, hnumbered, hbefore, honce, hapart, htold⟩ := h
  obtain rfl : c = c₁ := by simpa [hhost] using hhost₁
  have htrack : (w.afterClient c c' effects').track = _ := track_afterClient c c' w
  obtain ⟨hhost', hcallers', houtcomes', hnextId', herrands'⟩ := Track.mk.inj htrack
  refine ⟨⟨c', hhost', hrun.snoc hstep⟩, (congrArg _ hcallers').trans hcallers, hdistinct,
    hnextId' ▸ hnumbered, ?_, ?_, ?_, ?_⟩
  · intro id request hmem
    rw [hcallers']
    rw [Client.asked_append] at hmem
    rcases List.mem_append.mp hmem with hearlier | hnow
    · exact hbefore id request hearlier
    · cases e with
      | issue id' request' =>
        obtain ⟨rfl, rfl⟩ : id = id' ∧ request = request' := by simpa [Client.asked] using hnow
        exact ⟨(hasked id request rfl).1, (hasked id request rfl).2.1⟩
      | _ => simp [Client.asked] at hnow
  · rw [Client.asked_append, List.map_append]
    cases e with
    | issue id' request' =>
      obtain ⟨-, -, hnew⟩ := hasked id' request' rfl
      exact List.nodup_append.mpr ⟨honce, List.nodup_singleton _, fun a ha b hb hab => by
        obtain rfl : b = id' := by simpa [Client.asked] using hb
        exact hnew (hab ▸ ha)⟩
    | _ => simpa [Client.asked] using honce
  · rw [herrands', hnextId']
    exact hapart
  · intro id hid o
    rw [herrands'] at hid
    rw [houtcomes', mem_recorded, tells_append, htold id hid o]

/-- **An event of the client takes the run further**, unless it is a request. -/
theorem continues_onClient (hhost : w.host = .client c)
    (hasks : ∀ id request, e ≠ .issue id request) : Continues w (w.onClient c e) := by
  unfold onClient
  cases hstep : c.step e with
  | none => exact .of_track rfl
  | some p =>
    intro config roll es effects h
    exact ⟨congrArg Track.errands (track_afterClient c p.1 w), [e], p.2,
      h.afterClient hhost hstep fun id request he => absurd he (hasks id request)⟩

/-- What holds of every client that can stand in the world continues it. -/
theorem Continues.of_client (h : ∀ c, w.host = .client c → Continues w w') : Continues w w' := by
  intro config roll es effects hw
  obtain ⟨c, hhost, -⟩ := hw.host
  exact h c hhost config roll es effects hw

theorem continues_onLink (e : Link.Event) (w : World) : Continues w (w.onLink e) := by
  refine .of_client fun c hhost => ?_
  rw [onLink, hhost]
  exact continues_onClient hhost (by simp)

/-! ## Callers -/

theorem Rehearsed.eq_of_id (h : Rehearsed config roll w es effects) (hx : x ∈ w.callers)
    (hx' : x' ∈ w.callers) (hid : x'.id = x.id) : x' = x := by
  have hdistinct := h.distinct
  rw [← h.callers, World.roll, List.map_map] at hdistinct
  exact List.inj_on_of_nodup_map hdistinct hx' hx hid

/-- A caller is changed, but not what it is about. -/
theorem Rehearsed.setCaller (h : Rehearsed config roll w es effects) (hx : x ∈ w.callers)
    (hid : x'.id = x.id) (hmatter : x'.matter = x.matter)
    (hstarted : x.started = true → x'.started = true) :
    Rehearsed config roll (w.setCaller x') es effects := by
  have hsame : ∀ y ∈ w.callers, y.id = x'.id → y = x :=
    fun y hy hyid => h.eq_of_id hx hy (hyid.trans hid)
  refine ⟨h.host, ?_, h.distinct, h.numbered, fun id request hmem => ?_, h.once, h.apart, h.told⟩
  · rw [← h.callers]
    show List.map _ (w.callers.map _) = _
    rw [List.map_map]
    refine List.map_congr_left fun y hy => ?_
    by_cases hy' : y.id = x'.id
    · obtain rfl := hsame y hy hy'
      simp [hid, hmatter]
    · simp [hy']
  · obtain ⟨hroll, hall⟩ := h.asked id request hmem
    refine ⟨hroll, fun y hy hyid => ?_⟩
    obtain ⟨z, hz, rfl⟩ := List.mem_map.mp hy
    by_cases hz' : z.id = x'.id
    · obtain rfl := hsame z hz hz'
      rw [if_pos hz'] at hyid ⊢
      exact hstarted (hall z hz (hid ▸ hyid))
    · rw [if_neg hz'] at hyid ⊢
      exact hall z hz hyid

theorem continues_setCaller (hx : x ∈ w.callers) (hid : x'.id = x.id)
    (hmatter : x'.matter = x.matter) (hstarted : x.started = true → x'.started = true) :
    Continues w (w.setCaller x') :=
  .of_same rfl fun _ _ _ _ h => h.setCaller hx hid hmatter hstarted

theorem mem_setCaller (hx : x ∈ w.callers) (hid : x'.id = x.id) :
    x' ∈ (w.setCaller x').callers :=
  List.mem_map.mpr ⟨x, hx, if_pos hid.symm⟩

/-- What a chore comes to leaves the run as it is. -/
theorem Continues.record (h : Continues w w') {id : CallId} (hid : id ∈ w.errands) (o : Outcome) :
    Continues w (w'.record id o) := by
  intro config roll es effects hw
  obtain ⟨herrands, es', effects', hw'⟩ := h config roll es effects hw
  refine ⟨herrands, es', effects', hw'.host, hw'.callers, hw'.distinct, hw'.numbered, hw'.asked,
    hw'.once, hw'.apart, fun other hother o' => ?_⟩
  have hne : other ≠ id := by
    rintro rfl
    exact hother (herrands ▸ hid)
  show (other, o') ∈ (id, o) :: w'.outcomes ↔ _
  rw [List.mem_cons, or_iff_right (by simp [hne])]
  exact hw'.told other hother o'

/-! ## Turns -/

theorem continues_stepReader (w : World) : Continues w w.stepReader := by
  unfold stepReader
  split
  · exact .of_track (track_dropReader w)
  · split
    · exact .of_track rfl
    · exact continues_onLink _ w
    · exact (continues_onLink _ w).before (track_dropReader _)
    · split
      · exact .of_track (track_dropReader w)
      · split
        · exact continues_onLink _ w
        · split
          · split
            · exact .of_track rfl
            · exact continues_onLink _ w
          · exact (continues_onLink _ _).after (track_wakeSenders _)

theorem continues_stepWaiting (hx : x ∈ w.callers) : Continues w (w.stepWaiting x) := by
  unfold stepWaiting
  split
  · exact .of_track rfl
  · next time _ _ =>
    have hset : Continues w (w.setCaller { x with cancelAt? := some (w.now + time) }) :=
      continues_setCaller hx rfl rfl id
    split
    · exact hset
    · exact hset.before rfl
  · split
    · refine .of_client fun c hhost => ?_
      simp only [hhost]
      exact continues_onClient hhost (by simp)
    · exact .of_track rfl

theorem continues_stepExchangeWaiting (hx : x ∈ w.callers) (l : Link) :
    Continues w (w.stepExchangeWaiting x l) := by
  unfold stepExchangeWaiting
  split
  · exact continues_stepWaiting hx
  · extract_lets moment x' w'
    have hset : Continues w w' := continues_setCaller hx rfl rfl id
    split
    · exact hset.trans (continues_onLink _ w')
    · have hmem : x' ∈ (w'.setTimer moment (.call x'.id)).callers := mem_setCaller hx rfl
      exact hset.trans ((continues_stepWaiting hmem).after rfl)
  · split
    · exact continues_onLink _ w
    · exact continues_stepWaiting hx

theorem continues_stepExchange (hx : x ∈ w.callers) (l : Link) (exchange : Exchange) :
    Continues w (w.stepExchange x l exchange) := by
  unfold stepExchange
  split
  · split
    · exact continues_onLink _ w
    · split
      · have hmem : x ∈ ({ w with callWaits? := some x.id } : World).callers := hx
        exact (continues_stepExchangeWaiting hmem l).after rfl
      · exact (continues_onLink _ _).after (track_wakePeer _)
  · split
    · split <;> exact continues_onLink _ w
    · split
      · exact continues_onLink _ w
      · exact continues_stepExchangeWaiting hx l

theorem continues_stepHolder (hx : x ∈ w.callers) (hhost : w.host = .client c) :
    Continues w (w.stepHolder x c) := by
  unfold stepHolder
  split
  · split
    · exact continues_stepExchange hx _ _
    · exact continues_onClient hhost (by simp)
  · split <;> exact continues_onClient hhost (by simp)
  · extract_lets w'
    have hact : Continues w w' := continues_onClient hhost (by simp)
    split
    · next c' hhost' =>
      have hshut : w'.shutPipe.host = .client c' :=
        (congrArg Track.host (track_shutPipe w')).trans hhost'
      exact hact.trans ((continues_onClient hshut (by simp)).after (track_shutPipe w'))
    · exact hact
  · exact continues_onClient hhost (by simp)

/-- **A caller asks once.** -/
theorem Rehearsed.issue (h : Rehearsed config roll w es effects) {request : Request}
    (hx : x ∈ w.callers) (hhost : w.host = .client c) (hmatter : x.matter = .request request)
    (hwaits : x.started = false) (hstep : c.step (.issue x.id request) = some (c', effects')) :
    Rehearsed config roll ((w.setCaller { x with started := true }).onClient c (.issue x.id request))
      (es ++ [.issue x.id request]) (effects ++ effects') := by
  have hset : Rehearsed config roll (w.setCaller { x with started := true }) es effects :=
    h.setCaller hx rfl rfl fun _ => rfl
  rw [onClient, hstep]
  refine hset.afterClient hhost hstep ?_
  rintro id request' ⟨⟩
  refine ⟨?_, fun y hy hyid => ?_, fun hmem => ?_⟩
  · rw [← h.callers, ← hmatter]
    exact List.mem_map_of_mem hx
  · obtain rfl := hset.eq_of_id (mem_setCaller hx rfl) hy hyid
    rfl
  · obtain ⟨⟨id', request'⟩, hmem, hid⟩ := List.mem_map.mp hmem
    have hstarted := (h.asked id' request' hmem).2 x hx hid.symm
    simp [hwaits] at hstarted

theorem continues_issue {request : Request} (hx : x ∈ w.callers) (hhost : w.host = .client c)
    (hmatter : x.matter = .request request) (hwaits : x.started = false) :
    Continues w ((w.setCaller { x with started := true }).onClient c (.issue x.id request)) := by
  cases hstep : c.step (.issue x.id request) with
  | none =>
    have hset : Continues w (w.setCaller { x with started := true }) :=
      continues_setCaller hx rfl rfl fun _ => rfl
    rw [onClient, hstep]
    exact hset.before rfl
  | some p =>
    intro config roll es effects h
    refine ⟨?_, [.issue x.id request], p.2, h.issue hx hhost hmatter hwaits hstep⟩
    rw [onClient, hstep]
    exact congrArg Track.errands (track_afterClient c p.1 _)

theorem continues_stepRequest {request : Request} (hx : x ∈ w.callers)
    (hhost : w.host = .client c) (hmatter : x.matter = .request request) :
    Continues w (w.stepRequest x request c) := by
  unfold stepRequest
  split
  · next hwaits => exact continues_issue hx hhost hmatter (by simpa using hwaits)
  · split
    · split
      · exact continues_onClient hhost (by simp)
      · exact continues_stepWaiting hx
    · split
      · exact continues_stepHolder hx hhost
      · exact continues_stepWaiting hx
    · exact .of_track rfl

theorem continues_stepCall (id : CallId) (w : World) : Continues w (w.stepCall id) := by
  refine .of_client fun c hhost => ?_
  unfold stepCall
  split
  · next x _ hcaller =>
    have hx : x ∈ w.callers := List.mem_of_find?_eq_some hcaller
    split
    · next request c' hmatter hhost' => exact continues_stepRequest hx hhost' hmatter
    · next bytes l holder? hmatter hhost' => simp [hhost] at hhost'
    · exact .of_track rfl
  · exact .of_track rfl

theorem continues_stepErrand {chore : Chore} (hchore : chore ∈ w.chores) :
    Continues w (w.stepErrand chore) := by
  have hid : chore.id ∈ w.errands := List.mem_map_of_mem hchore
  have hdone : ∀ {w'}, Continues w w' → Continues w (w'.record chore.id .done) :=
    fun h => h.record hid .done
  unfold stepErrand
  split
  · split
    · exact hdone (.refl w)
    · split
      · exact .of_track rfl
      · refine .of_track ?_
        rw [track_setChore]
        exact track_sendSome w _
  · exact hdone (.of_track (track_dropPeer w))
  · exact hdone (.of_track (track_breakPipe w _))
  · exact hdone (continues_onLink _ w)
  · exact hdone ((continues_onLink .beginShutdown w).trans
      ((continues_onLink .finishShutdown _).after (track_shutPipe _)))
  · exact hdone (.refl w)

theorem continues_stepChore (id : CallId) (w : World) : Continues w (w.stepChore id) := by
  unfold stepChore
  split
  · next x _ hfound =>
    have hchore : x ∈ w.chores := List.mem_of_find?_eq_some hfound
    split
    · split
      · exact continues_stepErrand hchore
      · exact .of_track rfl
    · extract_lets w'
      have hset : w'.track = w.track := track_setChore w _
      split
      · exact .of_track hset
      · exact .of_track hset
  · exact .of_track rfl

/-- **Each turn takes the run of the client further, or leaves it as it is.** -/
theorem continues_stepTask (t : Task) (w : World) : Continues w (w.stepTask t) := by
  cases t with
  | call id => exact continues_stepCall id w
  | reader => exact continues_stepReader w
  | peer => exact .of_track (track_stepPeer w)
  | chore id => exact continues_stepChore id w

theorem continues_goOn (stop : World → Bool) (limit? : Option Nat) (steps : Nat) (w : World) :
    Continues w (goOn stop limit? steps w) := by
  induction steps generalizing w with
  | zero => exact .refl w
  | succ steps ih =>
    unfold goOn
    split
    · exact (continues_stepTask _ w).trans (ih _)
    · split
      · exact (ih _).after rfl
      · split
        · exact .refl w
        · split
          · exact .refl w
          · split
            · split
              · exact .refl w
              · exact (ih _).after (track_moveTo w _)
            · exact (ih _).after (track_moveTo w _)

theorem continues_await (ids : List CallId) (w : World) : Continues w (w.await ids) :=
  continues_goOn _ _ _ w

theorem continues_rest (time : Nat) (w : World) : Continues w (w.rest time) :=
  (continues_goOn _ _ _ w).before (track_moveTo _ _)

/-! ## Sessions -/

/-- A call that starts is on the roll, under a number that nobody has. -/
theorem Rehearsed.startCall (h : Rehearsed config roll w es effects) (m : Matter)
    (cancelAfter? : Option Nat) :
    Rehearsed config ((w.nextId, m) :: roll) (w.start (.call m cancelAfter?)).1 es effects := by
  let x : Caller := ⟨w.nextId, m, cancelAfter?, false, none, none⟩
  let w' : World := { w with nextId := w.nextId + 1, callers := x :: w.callers }
  suffices hstarted : Rehearsed config ((w.nextId, m) :: roll) w' es effects from
    hstarted.congr (track_wake w' (.call w.nextId))
  refine ⟨h.host, ?_, ?_, ?_, ?_, h.once, ?_, h.told⟩
  · rw [← h.callers]
    rfl
  · refine List.nodup_cons.mpr ⟨fun hmem => ?_, h.distinct⟩
    obtain ⟨p, hp, hid⟩ := List.mem_map.mp hmem
    exact (h.numbered p hp).ne hid
  · rintro p (_ | ⟨_, hp⟩)
    · exact Nat.lt_succ_self _
    · exact Nat.lt_succ_of_lt (h.numbered p hp)
  · intro id request hmem
    obtain ⟨hroll, hall⟩ := h.asked id request hmem
    refine ⟨List.mem_cons_of_mem _ hroll, ?_⟩
    rintro y (_ | ⟨_, hy⟩) hyid
    · exact absurd hyid.symm (h.numbered _ hroll).ne
    · exact hall y hy hyid
  · intro id hid
    obtain ⟨hlt, hroll⟩ := h.apart id hid
    exact ⟨Nat.lt_succ_of_lt hlt, fun hmem => (List.mem_cons.mp hmem).elim hlt.ne hroll⟩

theorem Rehearsed.startChore (h : Rehearsed config roll w es effects) (errand : Errand)
    (delay : Nat) :
    Rehearsed config roll (w.start (.chore errand delay)).1 es effects := by
  let w' : World :=
    { w with nextId := w.nextId + 1, chores := ⟨w.nextId, errand, delay, none⟩ :: w.chores }
  suffices hstarted : Rehearsed config roll w' es effects from
    hstarted.congr (track_wake w' (.chore w.nextId))
  refine ⟨h.host, h.callers, h.distinct, fun p hp => Nat.lt_succ_of_lt (h.numbered p hp), h.asked,
    h.once, ?_, fun id hid => h.told id fun hbefore => hid (List.mem_cons_of_mem _ hbefore)⟩
  rintro id (_ | ⟨_, hid⟩)
  · refine ⟨Nat.lt_succ_self _, fun hmem => ?_⟩
    obtain ⟨p, hp, hid⟩ := List.mem_map.mp hmem
    exact (h.numbered p hp).ne hid
  · exact (h.apart id hid).imp_left Nat.lt_succ_of_lt

theorem Rehearsed.startAll (h : Rehearsed config roll w es effects) (ps : List Part) :
    ∃ roll', Rehearsed config roll' (w.startAll ps).1 es effects := by
  induction ps generalizing w roll with
  | nil => exact ⟨roll, h⟩
  | cons p rest ih =>
    cases p with
    | call m cancelAfter? => exact ih (h.startCall m cancelAfter?)
    | chore errand delay => exact ih (h.startChore errand delay)

theorem Rehearsed.performStep (h : Rehearsed config roll w es effects) (s : Step) :
    ∃ roll' es' effects',
      Rehearsed config roll' (w.performStep s).1 (es ++ es') (effects ++ effects') := by
  obtain ⟨roll₁, hparts⟩ := h.startAll s.parts
  obtain ⟨roll₂, hboth⟩ := hparts.startAll s.background
  obtain ⟨-, es', effects', hend⟩ := ((continues_await (w.startAll s.parts).2 _).trans
    (continues_rest pauseBeforeView _)) config roll₂ es effects hboth
  exact ⟨roll₂, es', effects', hend⟩

theorem Rehearsed.perform (h : Rehearsed config roll w es effects) (steps : List Step) :
    ∃ roll' es' effects',
      Rehearsed config roll' (w.perform steps).1 (es ++ es') (effects ++ effects') := by
  induction steps generalizing w roll es effects with
  | nil => exact ⟨roll, [], [], by simpa [World.perform] using h⟩
  | cons s rest ih =>
    obtain ⟨roll₁, es₁, effects₁, hstep⟩ := h.performStep s
    obtain ⟨roll₂, es₂, effects₂, hrest⟩ := ih hstep
    refine ⟨roll₂, es₁ ++ es₂, effects₁ ++ effects₂, ?_⟩
    rw [← List.append_assoc, ← List.append_assoc]
    exact hrest

theorem rehearsed_ofClient (config : Config) (manner : Manner) (capacity : Nat) (files : Files) :
    Rehearsed config [] (ofClient config manner capacity files) [] [] where
  host := ⟨_, rfl, .nil⟩
  callers := rfl
  distinct := List.nodup_nil
  numbered := by simp
  asked := by simp [Client.asked]
  once := List.nodup_nil
  apart := by simp [ofClient, World.new, errands]
  told id hid o := by
    refine ⟨by simp [ofClient, World.new], ?_⟩
    rintro (⟨r, told⟩ | ⟨told⟩)
    · exact absurd told List.not_mem_nil
    · exact absurd told List.not_mem_nil

/-- **Every session is a run of its client**: what it has asked for are the requests of callers, each
of them once, and what callers have come to is what the client has told them. -/
theorem rehearsed_of_perform (config : Config) (manner : Manner) (capacity : Nat) (files : Files)
    (steps : List Step) : ∃ roll es effects,
      Rehearsed config roll ((ofClient config manner capacity files).perform steps).1 es effects :=
  let ⟨roll, es, effects, h⟩ :=
    (rehearsed_ofClient config manner capacity files).perform steps
  ⟨roll, es, effects, h⟩

end World

end KvClient.Rehearsal

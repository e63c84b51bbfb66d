import KvClient.Files

/-!
# A file that was written can be read

Writing changes what stands at one place, where a file stands already or could stand, in a
directory.  All else stands as before, so that the path that led to the directory leads there again,
and from there to the file.

* **Elsewhere nothing changes**: `Files.node?_put_of_ne`.
* **A name, a walk and a path lead where they led**: `Files.step_put`, `Files.walk_put_of_ok`,
  `Files.walk_of_put`, `Files.content?_put`.
* **What was written is read, and nothing else has changed**: `Files.wrote_of_write`.
* **What can be read can be written**: `Files.write_of_read`.
-/

namespace KvClient.Files

variable {files files' : Files} {place next target q : FilePath} {content : Bytes}
  {name path : String} {r : Route}

/-! ## One place -/

/-- At a place there is a file, or there could be one in the directory above it. -/
inductive Fileable (files : Files) (target : FilePath) : Prop
  | standing (old : Bytes) (file : files.node? target = some (.file old))
  | vacant (place : FilePath) (name : String) (eq : target = place ++ [name])
      (directory : files.node? place = some .directory) (nothing : files.node? target = none)

theorem Fileable.not_directory (h : files.Fileable target) :
    files.node? target ≠ some .directory := by
  cases h with
  | standing old file => simp [file]
  | vacant place name eq directory nothing => simp [nothing]

theorem isAbove_of_mem {n : FilePath × Option Bytes} (hmem : n ∈ files.nodes) (hq : q <+: n.1) :
    files.isAbove q = true :=
  Bool.or_eq_true_iff.mpr
    (.inr (List.any_eq_true.mpr ⟨n, hmem, List.isPrefixOf_iff_prefix.mpr hq⟩))

/-- What stands at a place is listed, or the place is above something. -/
theorem node?_cases (h : files.node? place ≠ none) :
    (∃ content?, (place, content?) ∈ files.nodes) ∨ files.isAbove place = true := by
  have hlisted : ∀ {n}, files.nodes.find? (·.1 == place) = some n → (place, n.2) ∈ files.nodes := by
    intro n hfind
    obtain rfl : n.1 = place := by simpa using List.find?_some hfind
    exact List.mem_of_find?_eq_some hfind
  unfold node? at h
  split at h
  · next hfind => exact .inl ⟨_, hlisted hfind⟩
  · next hfind => exact .inl ⟨_, hlisted hfind⟩
  · exact .inr (by simpa using h)

/-- What is above something that stands somewhere is above something. -/
theorem isAbove_of_node? (h : files.node? place ≠ none) (hq : q <+: place) :
    files.isAbove q = true := by
  rcases node?_cases h with ⟨content?, hmem⟩ | habove
  · exact isAbove_of_mem hmem hq
  · rcases Bool.or_eq_true_iff.mp habove with hhere | hany
    · refine Bool.or_eq_true_iff.mpr (.inl (List.isPrefixOf_iff_prefix.mpr ?_))
      exact hq.trans (List.isPrefixOf_iff_prefix.mp hhere)
    · obtain ⟨n, hmem, hprefix⟩ := List.any_eq_true.mp hany
      exact isAbove_of_mem hmem (hq.trans (List.isPrefixOf_iff_prefix.mp hprefix))

theorem isAbove_put (h : files.Fileable target) (hne : q ≠ target) :
    (files.put target content).isAbove q = files.isAbove q := by
  rw [Bool.eq_iff_iff]
  constructor
  · intro habove
    rcases Bool.or_eq_true_iff.mp habove with hhere | hany
    · exact Bool.or_eq_true_iff.mpr (.inl hhere)
    · obtain ⟨n, hmem, hprefix⟩ := List.any_eq_true.mp hany
      have hprefix := List.isPrefixOf_iff_prefix.mp hprefix
      rcases List.mem_cons.mp hmem with rfl | hkept
      · -- What is above the file is above what stood there, or above the directory it is put in.
        cases h with
        | standing old file => exact isAbove_of_node? (by simp [file]) hprefix
        | vacant place name eq directory =>
          rw [eq] at hprefix hne
          have hplace := (List.prefix_concat_iff.mp hprefix).resolve_left hne
          exact isAbove_of_node? (by simp [directory]) hplace
      · exact isAbove_of_mem (List.mem_filter.mp hkept).1 hprefix
  · intro habove
    rcases Bool.or_eq_true_iff.mp habove with hhere | hany
    · exact Bool.or_eq_true_iff.mpr (.inl hhere)
    · obtain ⟨n, hmem, hprefix⟩ := List.any_eq_true.mp hany
      have hprefix := List.isPrefixOf_iff_prefix.mp hprefix
      by_cases hn : n.1 = target
      · have hput : (target, some content) ∈ (files.put target content).nodes :=
          List.mem_cons_self ..
        exact isAbove_of_mem hput (hn ▸ hprefix)
      · have hkept : n ∈ (files.put target content).nodes :=
          List.mem_cons_of_mem _ (List.mem_filter.mpr ⟨hmem, by simpa using hn⟩)
        exact isAbove_of_mem hkept hprefix

/-- **Elsewhere nothing changes.** -/
theorem node?_put_of_ne (h : files.Fileable target) (hne : q ≠ target) :
    (files.put target content).node? q = files.node? q := by
  have hfind : (files.put target content).nodes.find? (·.1 == q) =
      files.nodes.find? (·.1 == q) := by
    rw [put, List.find?_cons_of_neg (by simpa using hne.symm), List.find?_filter]
    congr 1
    funext n
    by_cases hn : n.1 = q
    · simp [hn, hne]
    · simp [hn]
  rw [node?, node?, hfind, isAbove_put h hne]

/-! ## Walks -/

theorem directory_put_iff (h : files.Fileable target) (content : Bytes) :
    (files.put target content).node? place = some .directory ↔
      files.node? place = some .directory := by
  by_cases hplace : place = target
  · subst hplace
    exact iff_of_false (by simp [node?_put]) h.not_directory
  · rw [node?_put_of_ne h hplace]

theorem step_of_not_directory (h : files.node? place ≠ some .directory) :
    files.step place name = .error .notDirectory := by
  unfold step
  split
  · next hdirectory => exact absurd hdirectory h
  · rfl

/-- **A name leads where it led**, unless it led nowhere and leads to the new file. -/
theorem step_put (h : files.Fileable target) (content : Bytes) (place : FilePath)
    (name : String) :
    (files.put target content).step place name = files.step place name ∨
      files.step place name = .ok none ∧
        (files.put target content).step place name = .ok (some target) := by
  by_cases hdirectory : files.node? place = some .directory
  · have hdirectory' := (directory_put_iff h content).mpr hdirectory
    simp only [step, hdirectory, hdirectory']
    by_cases hname : place ++ [name] = target
    · rw [hname, node?_put]
      cases hnode : files.node? target with
      | some node => exact .inl rfl
      | none =>
        split
        · exact .inl rfl
        · split
          · exact .inl rfl
          · split
            · exact .inl rfl
            · exact .inr ⟨rfl, rfl⟩
    · rw [node?_put_of_ne h hname]
      exact .inl rfl
  · rw [step_of_not_directory hdirectory,
      step_of_not_directory (mt (directory_put_iff h content).mp hdirectory)]
    exact .inl rfl

/-- A walk leads somewhere if its first name does, and the others lead on from there. -/
theorem walk_cons_eq_ok_iff {names : FilePath} : files.walk place (name :: names) = .ok next ↔
    ∃ place', files.step place name = .ok (some place') ∧ files.walk place' names = .ok next := by
  rw [walk]
  cases files.step place name with
  | error fault => simp
  | ok next? => cases next? <;> simp

/-- A walk that leads somewhere leads there again. -/
theorem walk_put_of_ok (h : files.Fileable target) {names : FilePath}
    (hwalk : files.walk place names = .ok next) :
    (files.put target content).walk place names = .ok next := by
  induction names generalizing place with
  | nil => exact hwalk
  | cons name rest ih =>
    obtain ⟨place', hstep, hrest⟩ := walk_cons_eq_ok_iff.mp hwalk
    rcases step_put h content place name with hsame | ⟨hnothing, -⟩
    · exact walk_cons_eq_ok_iff.mpr ⟨place', hsame.trans hstep, ih hrest⟩
    · simp [hnothing] at hstep

/-- A walk that leads somewhere now led there before, unless it leads to the file. -/
theorem walk_of_put (h : files.Fileable target) {names : FilePath}
    (hwalk : (files.put target content).walk place names = .ok next) :
    next = target ∨ files.walk place names = .ok next := by
  induction names generalizing place with
  | nil => exact .inr hwalk
  | cons name rest ih =>
    obtain ⟨place', hstep, hrest⟩ := walk_cons_eq_ok_iff.mp hwalk
    rcases step_put h content place name with hsame | ⟨-, hnew⟩
    · exact (ih hrest).imp id fun hbefore =>
        walk_cons_eq_ok_iff.mpr ⟨place', hsame.symm.trans hstep, hbefore⟩
    · -- Nothing is behind a file, so the walk ends there.
      obtain rfl : target = place' := by simpa [hnew] using hstep
      left
      cases rest with
      | nil => exact (Except.ok.inj hrest).symm
      | cons name' rest =>
        have hfile : (files.put target content).node? target ≠ some .directory := by
          simp [node?_put]
        simp [walk, step_of_not_directory hfile] at hrest

theorem walk_append {names : FilePath} (hwalk : files.walk place names = .ok next)
    (more : FilePath) : files.walk place (names ++ more) = files.walk next more := by
  induction names generalizing place with
  | nil =>
    obtain rfl := Except.ok.inj hwalk
    rfl
  | cons name rest ih =>
    obtain ⟨place', hstep, hrest⟩ := walk_cons_eq_ok_iff.mp hwalk
    rw [List.cons_append, walk, hstep]
    exact ih hrest

/-! ## The file that is written -/

/-- A name that leads nowhere leads to what is put there. -/
theorem step_put_new (h : files.step place name = .ok none) (content : Bytes) :
    files.Fileable (place ++ [name]) ∧
      (files.put (place ++ [name]) content).step place name = .ok (some (place ++ [name])) := by
  have hdirectory : files.node? place = some .directory :=
    Decidable.byContradiction fun hno => by simp [step_of_not_directory hno] at h
  simp only [step, hdirectory] at h
  split at h
  · cases h
  · next hsize =>
    split at h
    · simp at h
    · next hself =>
      split at h
      · simp at h
      · next hparent =>
        split at h
        · simp at h
        · next hnothing =>
          have hfile : files.Fileable (place ++ [name]) :=
            .vacant place name rfl hdirectory (by simpa using hnothing)
          refine ⟨hfile, ?_⟩
          simp only [step, (directory_put_iff hfile content).mpr hdirectory, if_neg hsize,
            if_neg hself, if_neg hparent, node?_put]
          rfl

/-- In a directory a name leads to the file that is written there. -/
theorem step_put_destinationIn (h : files.destinationIn place name = .ok target)
    (content : Bytes) :
    files.Fileable target ∧
      (files.put target content).step place name = .ok (some target) := by
  unfold destinationIn at h
  split at h
  · cases h
  · next hstep =>
    obtain rfl := Except.ok.inj h
    exact step_put_new hstep content
  · next next' hstep =>
    split at h
    · next old hold =>
      obtain rfl := Except.ok.inj h
      have hfile : files.Fileable next' := .standing old hold
      rcases step_put hfile content place name with hsame | ⟨hnothing, -⟩
      · exact ⟨hfile, hsame.trans hstep⟩
      · simp [hnothing] at hstep
    · cases h

/-- **A path leads to the file that is written.** -/
theorem find_put_destination (h : files.destination path = .ok target) :
    files.Fileable target ∧ ∃ r, route path = .ok r ∧ r.directory = false ∧
      ∀ content, (files.put target content).find r = .ok target := by
  unfold destination at h
  split at h
  · cases h
  · next r hroute =>
    split at h
    · cases h
    · next name hname =>
      obtain ⟨before, hnames⟩ := List.getLast?_eq_some_iff.mp hname
      rw [hnames, List.dropLast_concat] at h
      split at h
      · cases h
      · next place hwalk =>
        split at h
        · cases h
        · split at h
          · cases h
          · next hdirectory =>
            refine ⟨(step_put_destinationIn h []).1, r, hroute,
              Bool.eq_false_iff.mpr hdirectory, fun content => ?_⟩
            obtain ⟨hfile, hstep⟩ := step_put_destinationIn h content
            have hstart : (files.put target content).start r = files.start r := rfl
            rw [find, hstart, hnames, walk_append (walk_put_of_ok hfile hwalk), walk, hstep]
            rfl

/-! ## What is read -/

/-- A file is read where the path leads, unless the path says that it means a directory. -/
theorem read_eq_ok_iff : files.read path = .ok content ↔ ∃ r place, route path = .ok r ∧
    files.find r = .ok place ∧ r.directory = false ∧ files.node? place = some (.file content) := by
  constructor
  · intro h
    unfold Files.read at h
    split at h
    · cases h
    · next r hroute =>
      split at h
      · cases h
      · next place hfind =>
        unfold contentAt at h
        split at h
        · next old hfile =>
          split at h
          · cases h
          · next hdirectory =>
            obtain rfl := Except.ok.inj h
            exact ⟨r, place, hroute, hfind, Bool.eq_false_iff.mpr hdirectory, hfile⟩
        · cases h
  · rintro ⟨r, place, hroute, hfind, hdirectory, hfile⟩
    simp only [Files.read, hroute, hfind, contentAt, hfile, hdirectory]
    rfl

/-- A path leads to a place. -/
def Leads (files : Files) (path : String) (place : FilePath) : Prop :=
  ∃ r, route path = .ok r ∧ files.find r = .ok place

theorem content?_of_error {fault : SystemFault} (h : files.read path = .error fault) :
    files.content? path = none := by
  rw [content?, h]

/-- **A path that does not lead to the file reads what it read.** -/
theorem content?_put (h : files.Fileable target)
    (hother : ¬(files.put target content).Leads path target) :
    (files.put target content).content? path = files.content? path := by
  cases hroute : route path with
  | error fault => rw [content?, content?, read, read, hroute]
  | ok r =>
    cases hfind : (files.put target content).find r with
    | ok place =>
      have hne : place ≠ target := by
        rintro rfl
        exact hother ⟨r, hroute, hfind⟩
      have hbefore : files.find r = .ok place := (walk_of_put h hfind).resolve_left hne
      simp only [content?, read, hroute, hfind, hbefore, contentAt, node?_put_of_ne h hne]
    | error fault =>
      -- What leads nowhere now led nowhere before, as a walk that leads somewhere is kept.
      have hread : (files.put target content).read path = .error fault := by
        rw [read, hroute]
        simp only [hfind]
      rw [content?_of_error hread]
      cases hbefore : files.find r with
      | ok place =>
        have hafter : (files.put target content).find r = .ok place := walk_put_of_ok h hbefore
        simp [hfind] at hafter
      | error fault' =>
        have hread' : files.read path = .error fault' := by
          rw [read, hroute]
          simp only [hbefore]
        rw [content?_of_error hread']

/-- The content stands where the path leads, and elsewhere nothing has changed. -/
structure Wrote (files : Files) (path : String) (content : Bytes) (files' : Files) : Prop where
  read : files'.read path = .ok content
  here : files'.here = files.here
  elsewhere : ∃ target, files'.Leads path target ∧
    (∀ place ≠ target, files'.node? place = files.node? place) ∧
    ∀ other, ¬files'.Leads other target → files'.content? other = files.content? other

/-- **What was written is read, and nothing else has changed.** -/
theorem wrote_of_write (h : files.write path content = .ok files') :
    files.Wrote path content files' := by
  unfold write at h
  split at h
  · cases h
  · next target htarget =>
    obtain rfl := Except.ok.inj h
    obtain ⟨hfile, r, hroute, hdirectory, hfind⟩ := find_put_destination htarget
    refine ⟨?_, rfl, target, ⟨r, hroute, hfind content⟩, fun _ => node?_put_of_ne hfile,
      fun _ => content?_put hfile⟩
    exact read_eq_ok_iff.mpr ⟨r, target, hroute, hfind content, hdirectory, node?_put ..⟩

/-! ## What can be written -/

/-- A path without names means a directory. -/
theorem directory_of_names_nil (hroute : route path = .ok r) (hnames : r.names = []) :
    r.directory = true := by
  simp only [route] at hroute
  split at hroute
  · cases hroute
  · split at hroute
    · cases hroute
    · split at hroute
      · cases hroute
      · obtain rfl := Except.ok.inj hroute
        -- All that stands between the slashes is empty, so that nothing stands behind the last one.
        have hempty : ∀ piece ∈ Text.splitOn '/' path.toList, piece = [] := by
          simpa using hnames
        have hlast := List.getLast?_eq_some_getLast (Text.splitOn_ne_nil '/' path.toList)
        rw [hempty _ (List.getLast_mem _)] at hlast
        exact decide_eq_true hlast

theorem exists_step_of_walk_concat {names : FilePath}
    (hwalk : files.walk place (names ++ [name]) = .ok next) :
    ∃ above, files.walk place names = .ok above ∧ files.step above name = .ok (some next) := by
  induction names generalizing place with
  | nil =>
    obtain ⟨last, hstep, hend⟩ := walk_cons_eq_ok_iff.mp hwalk
    obtain rfl := Except.ok.inj hend
    exact ⟨place, rfl, hstep⟩
  | cons first rest ih =>
    obtain ⟨place', hstep, hrest⟩ := walk_cons_eq_ok_iff.mp hwalk
    obtain ⟨above, habove, hlast⟩ := ih hrest
    exact ⟨above, walk_cons_eq_ok_iff.mpr ⟨place', hstep, habove⟩, hlast⟩

/-- **A file that can be read can be written.** -/
theorem write_of_read {old : Bytes} (h : files.read path = .ok old) (content : Bytes) :
    ∃ files', files.write path content = .ok files' := by
  obtain ⟨r, place, hroute, hfind, hdirectory, hfile⟩ := read_eq_ok_iff.mp h
  rcases List.eq_nil_or_concat r.names with hnil | ⟨names, name, hnames⟩
  · simp [directory_of_names_nil hroute hnil] at hdirectory
  · rw [List.concat_eq_append] at hnames
    rw [find, hnames] at hfind
    obtain ⟨above, hwalk, hstep⟩ := exists_step_of_walk_concat hfind
    have habove : files.node? above = some .directory :=
      Decidable.byContradiction fun hno => by simp [step_of_not_directory hno] at hstep
    refine ⟨files.put place content, ?_⟩
    simp only [write, destination, hroute, hnames, List.getLast?_concat, List.dropLast_concat,
      hwalk, habove, hdirectory, destinationIn, hstep, hfile]
    rfl

/-- What cannot be written cannot be read. -/
theorem content?_of_write_error {fault : SystemFault}
    (h : files.write path content = .error fault) : files.content? path = none := by
  cases hread : files.read path with
  | error fault' => exact content?_of_error hread
  | ok old =>
    obtain ⟨files', hwrite⟩ := write_of_read hread content
    simp [hwrite] at h

end KvClient.Files

import DocFetch.Proofs.Config.Storage

/-! # Jobs over a history of changes

A repository is a store of jobs under the slugs of their names: after any saves and deletions, loading by a
name gives what the last of them under the same slug left. Names with one slug share one file.
-/

namespace DocFetch

/-- A call that changes the jobs of a repository. -/
inductive JobChange
  | save (c : JobConfig)
  | delete (name : String)

namespace JobChange

def key : JobChange → String
  | save c => slug c.jobName
  | delete name => slug name

/-- What is there after a change. -/
def leaves : JobChange → Option JobConfig
  | save c => some c
  | delete _ => none

def perform (l : Layout) : JobChange → Action World Unit
  | save c => discard (l.saveJob c)
  | delete name => l.deleteJob name

/-- The files after a change, where every name that is short enough leads to a file or to nothing. -/
def written (l : Layout) (files : FileTree) : JobChange → FileTree
  | save c =>
    if FileTree.tooLong (jobFileName c.jobName) then files else files.put (l.jobFile c.jobName).resolve (l.jobNode c)
  | delete name => if FileTree.tooLong (jobFileName name) then files else files.erase (l.jobFile name).resolve

end JobChange

namespace Layout

variable {l : Layout} {files : FileTree} {w w' : World} {done : List JobChange} {change : JobChange}
  {name name' : String} {c : JobConfig}

/-- Performs calls one after the other; those that fail are passed over. -/
def performAll (l : Layout) (changes : List JobChange) : Action World Unit :=
  changes.forM fun change => discard (change.perform l).attempt

/-- What the last change under a slug left. -/
def kept (key : String) (changes : List JobChange) : Option JobConfig :=
  (changes.reverse.find? fun change => change.key == key).bind JobChange.leaves

theorem kept_append_singleton (key : String) (done : List JobChange) (change : JobChange) :
    kept key (done ++ [change]) = if change.key = key then change.leaves else kept key done := by
  unfold kept
  rw [List.reverse_append, List.reverse_singleton, List.singleton_append, List.find?_cons]
  by_cases hkey : change.key = key
  · simp [hkey]
  · have hother : (change.key == key) = false := by simpa using hkey
    simp [hkey, hother]

theorem mem_of_kept {key : String} {changes : List JobChange} (h : kept key changes = some c) :
    .save c ∈ changes ∧ slug c.jobName = key := by
  obtain ⟨change, hfind, hleaves⟩ := Option.bind_eq_some_iff.mp h
  have hmem := List.mem_reverse.mp (List.mem_of_find?_eq_some hfind)
  have hkey : change.key = key := by simpa using List.find?_some hfind
  cases change with
  | save c' =>
    cases hleaves
    exact ⟨hmem, hkey⟩
  | delete name => cases hleaves

/-! ## Places -/

theorem resolve_jobFile_inj : (l.jobFile name).resolve = (l.jobFile name').resolve ↔ slug name = slug name' := by
  rw [resolve_jobFile_eq, resolve_jobFile_eq]
  constructor
  · intro h
    have hparts := List.append_cancel_left (congrArg Path.parts h)
    have hfile : jobFileName name = jobFileName name' := List.singleton_inj.mp hparts
    exact String.append_left_inj _ |>.mp hfile
  · intro h
    rw [jobFileName, h]
    rfl

theorem jobFileName_eq (h : slug name = slug name') : jobFileName name = jobFileName name' := by
  rw [jobFileName, h]
  rfl

/-! ## One change -/

/-- A repository that holds what was kept, in the files of all names that are short enough. -/
structure Holds (l : Layout) (done : List JobChange) (files : FileTree) : Prop where
  prepared : l.Prepared files
  node : ∀ name, FileTree.tooLong (jobFileName name) = false →
    files.get? (l.jobFile name).resolve = (kept (slug name) done).map l.jobNode

namespace Holds

theorem of_empty (hprepared : l.Prepared files) (hempty : ∀ name, files.get? (l.jobs.resolve.child name) = none) :
    l.Holds [] files := by
  refine ⟨hprepared, fun name _ => ?_⟩
  rw [resolve_jobFile_eq, hempty]
  rfl

theorem not_directory (h : l.Holds done files) (hshort : FileTree.tooLong (jobFileName name) = false) :
    files.isDirectory (l.jobFile name).resolve = false := by
  unfold FileTree.isDirectory
  rw [h.node name hshort]
  cases kept (slug name) done <;> rfl

theorem of_tooLong (h : l.Holds done files) {long : String} (hkey : change.key = slug long)
    (hlong : FileTree.tooLong (jobFileName long) = true) : l.Holds (done ++ [change]) files := by
  refine ⟨h.prepared, fun name hshort => ?_⟩
  have hne : change.key ≠ slug name := by
    intro heq
    rw [← jobFileName_eq (hkey.symm.trans heq), hlong] at hshort
    cases hshort
  rw [h.node name hshort, kept_append_singleton, if_neg hne]

theorem step (h : l.Holds done files) {files' : FileTree} {name : String} (hkey : change.key = slug name)
    (hself : files'.get? (l.jobFile name).resolve = change.leaves.map l.jobNode)
    (hother : ∀ q, q ≠ (l.jobFile name).resolve → files'.get? q = files.get? q)
    (hdirectory : ∀ q, files'.isDirectory q = files.isDirectory q) : l.Holds (done ++ [change]) files' := by
  refine ⟨h.prepared.mono fun q hq => (hdirectory q).trans hq, fun name' hshort => ?_⟩
  rw [kept_append_singleton, hkey]
  by_cases hslug : slug name = slug name'
  · rw [if_pos hslug, ← resolve_jobFile_inj.mpr hslug, hself]
  · rw [if_neg hslug, hother _ fun heq => hslug (resolve_jobFile_inj.mp heq).symm, h.node name' hshort]

theorem files_save (h : l.Holds done w.files) (c : JobConfig) :
    ((l.saveJob c).exec w).2.files = (JobChange.save c).written l w.files := by
  by_cases hlength : FileTree.tooLong (jobFileName c.jobName) = true
  · obtain ⟨e, hsave⟩ := exec_saveJob_of_tooLong (l := l) hlength w
    rw [hsave, JobChange.written, if_pos hlength]
  · have hshort := Bool.eq_false_iff.mpr hlength
    have hopens : w.files.Opens (l.jobFile c.jobName) := ⟨locate_jobFile h.prepared hshort, h.not_directory hshort⟩
    rw [exec_saveJob hopens, JobChange.written, if_neg hlength]
    rfl

theorem files_delete (h : l.Holds done w.files) (name : String) :
    ((l.deleteJob name).exec w).2.files = (JobChange.delete name).written l w.files := by
  unfold deleteJob
  rw [World.exec_changeFiles, JobChange.written]
  by_cases hlength : FileTree.tooLong (jobFileName name) = true
  · rw [exists?_jobFile_of_tooLong h.prepared hlength, if_pos hlength]
    rfl
  · have hshort := Bool.eq_false_iff.mpr hlength
    have hplace := locate_jobFile h.prepared hshort
    have hnode := h.node name hshort
    rw [if_neg hlength]
    cases hkept : kept (slug name) done with
    | none =>
      rw [hkept] at hnode
      rw [FileTree.exists?_of_locate hplace, hnode, FileTree.erase_of_get?_eq_none hnode]
      rfl
    | some c =>
      rw [hkept] at hnode
      have hremove : (do
          if ← w.files.exists? (l.jobFile name) then w.files.remove (l.jobFile name) else return w.files) =
            .ok (w.files.erase (l.jobFile name).resolve) := by
        rw [FileTree.exists?_of_locate hplace, hnode]
        exact FileTree.remove_of_file hplace hnode
      rw [hremove]
      rfl

theorem files_perform (h : l.Holds done w.files) (change : JobChange) :
    ((change.perform l).exec w).2.files = change.written l w.files := by
  cases change with
  | save c =>
    rw [JobChange.perform, Action.exec_discard]
    exact h.files_save c
  | delete name => exact h.files_delete name

theorem written (h : l.Holds done files) (change : JobChange) :
    l.Holds (done ++ [change]) (change.written l files) := by
  cases change with
  | save c =>
    rw [JobChange.written]
    by_cases hlength : FileTree.tooLong (jobFileName c.jobName) = true
    · rw [if_pos hlength]
      exact h.of_tooLong rfl hlength
    · rw [if_neg hlength]
      have hfree := h.not_directory (Bool.eq_false_iff.mpr hlength)
      exact h.step rfl (FileTree.get?_put_self _ hfree _) (fun q hq => FileTree.get?_put_of_ne _ (Ne.symm hq) _)
        (FileTree.isDirectory_put_file hfree _)
  | delete name =>
    rw [JobChange.written]
    by_cases hlength : FileTree.tooLong (jobFileName name) = true
    · rw [if_pos hlength]
      exact h.of_tooLong rfl hlength
    · rw [if_neg hlength]
      have hfree := h.not_directory (Bool.eq_false_iff.mpr hlength)
      exact h.step rfl (FileTree.get?_erase_self _ hfree) (fun q hq => FileTree.get?_erase_of_ne _ (Ne.symm hq))
        (FileTree.isDirectory_erase hfree)

theorem perform (h : l.Holds done w.files) (change : JobChange) :
    l.Holds (done ++ [change]) ((change.perform l).exec w).2.files := by
  rw [h.files_perform]
  exact h.written change

theorem performAll (h : l.Holds done w.files) (changes : List JobChange) :
    l.Holds (done ++ changes) ((l.performAll changes).exec w).2.files := by
  induction changes generalizing done w with
  | nil =>
    rw [List.append_nil]
    exact h
  | cons change rest ih =>
    have hdone : done ++ change :: rest = done ++ [change] ++ rest := by simp
    rw [Layout.performAll, Action.exec_attempts_cons, hdone]
    exact ih (h.perform change)

/-- A name that is short enough loads what was kept under its slug. -/
theorem loadJob_eq (h : l.Holds done files) (hdone : ∀ c, .save c ∈ done → c.Storable (l.jobFile c.jobName))
    (hshort : FileTree.tooLong (jobFileName name) = false) :
    l.loadJob files name =
      match kept (slug name) done with
      | some c => .ok c
      | none => .error (.refused (.jobNotFound name)) := by
  have hplace := locate_jobFile h.prepared hshort
  have hnode := h.node name hshort
  cases hkept : kept (slug name) done with
  | none =>
    rw [hkept] at hnode
    have hexists : files.exists? (l.jobFile name) = .ok false := by
      rw [FileTree.exists?_of_locate hplace, hnode]
      rfl
    unfold loadJob JobConfig.load
    rw [hexists]
    rfl
  | some c =>
    rw [hkept] at hnode
    obtain ⟨hmem, hslug⟩ := mem_of_kept hkept
    have hfile : l.jobFile name = l.jobFile c.jobName := by rw [jobFile, jobFile, jobFileName_eq hslug]
    exact loadJob_of_node (hdone c hmem) hfile hplace hnode

end Holds

/-- A repository that was opened with no jobs is a store keyed by slugs: after any calls, a name whose file name
is short enough loads the job that was saved last under the same slug, and none if that was deleted since or
there was none. The jobs that are saved have plain schedule values, or none, and can be written and read back
(`JobConfig.Storable`). -/
theorem loadJob_performAll {r : Repository} (hopen : (Repository.openAt l).exec w = (.ok r, w'))
    (hempty : ∀ name, w'.files.get? (l.jobs.resolve.child name) = none) (changes : List JobChange)
    (hstored : ∀ c, .save c ∈ changes → c.Storable (l.jobFile c.jobName)) (name : String)
    (hshort : FileTree.tooLong (jobFileName name) = false) :
    l.loadJob ((l.performAll changes).exec w').2.files name =
      match kept (slug name) changes with
      | some c => .ok c
      | none => .error (.refused (.jobNotFound name)) := by
  obtain ⟨-, hprepared⟩ := Repository.openAt_eq_ok hopen
  exact ((Holds.of_empty hprepared hempty).performAll changes).loadJob_eq hstored hshort

def namedJob (name : String) : JobConfig := { sampleJob with jobName := name }

theorem storable_namedJob {name : String} (hname : (namedJob name).complaint? = none)
    (hback : ConfigFile.ReadsBack (sampleLayout.jobFile name) ((namedJob name).toValue true).entries) :
    (namedJob name).Storable (sampleLayout.jobFile name) where
  accepted := ⟨(namedJob name).toValue true, by
    have hvalid : (namedJob name).Valid := {
      complaint := hname
      fetch := (by decide +kernel : sampleJob.fetch.complaint? = none)
      store := ⟨rfl, fun p hp => ⟨"x/y", by cases hp; decide +kernel⟩⟩
      output := rfl
      schedule := fun s hs => by cases hs; rfl }
    exact Verdict.toExcept_eq_ok.mpr (JobConfig.check_toValue hvalid isPlain_sampleJob true)⟩
  plain := isPlain_sampleJob
  back := hback

theorem storable_sampleJob : sampleJob.Storable (sampleLayout.jobFile sampleJob.jobName) :=
  @storable_namedJob "A b" (by decide +kernel) readsBack_sampleJob

theorem empty_sample {w : World} (hw : w = ((Repository.openAt sampleLayout).exec {}).2) (name : String) :
    w.files.get? (sampleLayout.jobs.resolve.child name) = none := by
  have hshallow : ∀ p ∈ w.files.nodes.map Prod.fst, p.parts.length ≤ 3 := by
    rw [hw]
    decide +kernel
  have hdeep : (sampleLayout.jobs.resolve.child name).parts.length = 4 := by
    have hjobs : sampleLayout.jobs.resolve.parts.length = 3 := by decide +kernel
    rw [Path.child, List.length_append, hjobs, List.length_singleton]
  cases hnode : w.files.get? (sampleLayout.jobs.resolve.child name) with
  | none => rfl
  | some node =>
    unfold FileTree.get? at hnode
    rw [if_neg (by simp [Path.child])] at hnode
    have hkey := Assoc.isSome_get?_iff.mp (Option.isSome_of_eq_some hnode)
    have hlength := hshallow _ hkey
    omega

/-- A job that was deleted and saved again, with another one deleted in between. -/
theorem loadJob_performAll_again :
    let changes : List JobChange := [.save sampleJob, .delete "a b", .save sampleJob, .delete "c"]
    ∃ w, (Repository.openAt sampleLayout).exec {} = (.ok { layout := sampleLayout }, w) ∧
      (∀ name, w.files.get? (sampleLayout.jobs.resolve.child name) = none) ∧
      (∀ c, .save c ∈ changes → c.Storable (sampleLayout.jobFile c.jobName)) ∧
      sampleLayout.loadJob ((sampleLayout.performAll changes).exec w).2.files "A b" = .ok sampleJob ∧
      sampleLayout.loadJob ((sampleLayout.performAll changes).exec w).2.files "c" =
        .error (.refused (.jobNotFound "c")) := by
  intro changes
  obtain ⟨w, hopen, hw⟩ := Repository.exec_openAt_sample
  have hstored : ∀ c, .save c ∈ changes → c.Storable (sampleLayout.jobFile c.jobName) := by
    intro c hc
    have hsample : c = sampleJob := by simpa [changes] using hc
    rw [hsample]
    exact storable_sampleJob
  have hkept : kept (slug "A b") changes = some sampleJob := by decide +kernel
  have hnone : kept (slug "c") changes = none := by decide +kernel
  have hload := loadJob_performAll hopen (empty_sample hw) changes hstored "A b" (by decide +kernel)
  have hmissing := loadJob_performAll hopen (empty_sample hw) changes hstored "c" (by decide +kernel)
  rw [hkept] at hload
  rw [hnone] at hmissing
  exact ⟨w, hopen, empty_sample hw, hstored, hload, hmissing⟩

/-- A job with a schedule of one entry. -/
def keyedJob (key : Value) : JobConfig := { sampleJob with schedule := some ⟨.interval, .map [(key, .int 2)]⟩ }

/-- What such a job is made from. -/
def keyedValue (key : Value) : Value :=
  .object [("job_name", .text "A b"), ("fetch", sampleJob.fetch.toValue true),
    ("store", sampleJob.store.toValue true), ("output", sampleJob.output.toValue true),
    ("schedule", .object [("type", .text "interval"), ("value", .map [(key, .int 2)])])]

theorem storable_keyedJob : (keyedJob (.text "1")).Storable (sampleLayout.jobFile "A b") where
  accepted := ⟨keyedValue (.text "1"), ok_of_toOption (by decide +kernel)⟩
  plain := by
    intro s hs
    cases hs
    have hplain : Value.IsPlain (.object [("1", .int 2)]) :=
      .object (by simp) fun f hf => List.mem_singleton.mp hf ▸ .int 2
    exact hplain
  back := by decide +kernel

/-- A job is gone after another one was deleted whose name has the same slug. A name that makes the name of a file
that is too long is not even looked for. The keys of a schedule are texts once it was saved. -/
theorem loadJob_other_deleted :
    let saved : List JobChange := [.save sampleJob]
    ∃ w, (Repository.openAt sampleLayout).exec {} = (.ok { layout := sampleLayout }, w) ∧
      sampleLayout.loadJob ((sampleLayout.performAll saved).exec w).2.files "A b" = .ok sampleJob ∧
      sampleLayout.loadJob ((sampleLayout.performAll (saved ++ [.delete "a-b"])).exec w).2.files "A b" =
        .error (.refused (.jobNotFound "A b")) ∧
      sampleLayout.loadJob w.files (String.ofList (List.replicate 300 'A')) = .error (.fault .system) ∧
      JobConfig.ofValue (keyedValue (.int 1)) = .ok (keyedJob (.int 1)) ∧
      sampleLayout.loadJob ((sampleLayout.performAll [.save (keyedJob (.int 1))]).exec w).2.files "A b" =
        .ok (keyedJob (.text "1")) := by
  intro saved
  obtain ⟨w, hopen, hw⟩ := Repository.exec_openAt_sample
  obtain ⟨-, hprepared⟩ := Repository.openAt_eq_ok hopen
  have hempty := Holds.of_empty hprepared (empty_sample hw)
  have hshort : FileTree.tooLong (jobFileName "A b") = false := by decide +kernel
  have hstored (more : List JobChange) (hmore : ∀ c, .save c ∉ more) :
      ∀ c, .save c ∈ saved ++ more → c.Storable (sampleLayout.jobFile c.jobName) := by
    intro c hc
    have hsample : c = sampleJob := by simpa [saved, hmore c] using hc
    rw [hsample]
    exact storable_sampleJob
  have hkept : kept (slug "A b") saved = some sampleJob := by decide +kernel
  have hgone : kept (slug "A b") (saved ++ [.delete "a-b"]) = none := by decide +kernel
  have hload := (hempty.performAll saved).loadJob_eq (hstored [] (by simp)) hshort
  have hmissing := (hempty.performAll (saved ++ [.delete "a-b"])).loadJob_eq
    (hstored [.delete "a-b"] (by simp)) hshort
  rw [List.nil_append, hkept] at hload
  rw [List.nil_append, hgone] at hmissing
  -- Both jobs make the same file.
  have hsame : sampleLayout.saveJob (keyedJob (.int 1)) = sampleLayout.saveJob (keyedJob (.text "1")) := rfl
  have hperform : sampleLayout.performAll [.save (keyedJob (.int 1))] =
      sampleLayout.performAll [.save (keyedJob (.text "1"))] := by
    simp only [performAll, JobChange.perform, List.forM_eq_forM, List.forM_cons, hsame]
  have hkeyed := (hempty.performAll [.save (keyedJob (.text "1"))]).loadJob_eq
    (fun c hc => by cases List.mem_singleton.mp hc; exact storable_keyedJob) hshort
  have hkeptKeyed : kept (slug "A b") [.save (keyedJob (.text "1"))] = some (keyedJob (.text "1")) := by decide +kernel
  rw [List.nil_append, hkeptKeyed] at hkeyed
  refine ⟨w, hopen, hload, hmissing, loadJob_of_tooLong hprepared tooLong_jobFileName,
    ok_of_toOption (by decide +kernel), ?_⟩
  rw [hperform]
  exact hkeyed

end Layout

end DocFetch

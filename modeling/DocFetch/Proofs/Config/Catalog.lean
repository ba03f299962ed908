import DocFetch.Proofs.Config.Histories
import Mathlib.Data.List.Basic
import Mathlib.Data.Set.List

/-! # Listing the jobs after a history of changes

A repository that began with no jobs has no files but those of the jobs that it holds, and lists them in the order of
their file names. A job whose slug is empty is held in a file that is no configuration by its name, so it is loaded
and deleted like any other one and never listed.
-/

namespace DocFetch

namespace Layout

variable {l : Layout} {files : FileTree} {w w' : World} {done : List JobChange} {change : JobChange} {key : String}
  {c : JobConfig}

/-- The file of the jobs with a slug. -/
def keyFile (l : Layout) (key : String) : Path := l.jobs.child (key ++ ".yaml")

theorem keyFile_injective (l : Layout) : Function.Injective l.keyFile := by
  intro key key' h
  have hparts := List.append_cancel_left (congrArg Path.parts h)
  exact String.append_left_inj _ |>.mp (List.singleton_inj.mp hparts)

/-- Nothing is in the directory of jobs but files of jobs, each of them once. -/
structure Tidy (l : Layout) (files : FileTree) : Prop where
  nodup : (files.children l.jobs).Nodup
  named : ∀ p ∈ files.children l.jobs, ∃ name, p = l.jobFile name ∧ FileTree.tooLong (jobFileName name) = false

namespace Tidy

theorem of_empty (hroot : l.root.resolve = l.root) (hempty : ∀ name, files.get? (l.jobs.resolve.child name) = none) :
    l.Tidy files := by
  have hnone : files.children l.jobs = [] := by
    apply List.eq_nil_iff_forall_not_mem.mpr
    intro p hp
    obtain ⟨name, rfl⟩ := FileTree.exists_name_of_mem_children hp
    have hsome := FileTree.mem_children_iff.mp hp
    rw [← resolve_jobs hroot, hempty name] at hsome
    cases hsome
  constructor
  · rw [hnone]
    exact List.nodup_nil
  · rw [hnone]
    exact fun p hp => absurd hp List.not_mem_nil

theorem put (h : l.Tidy files) (hroot : l.root.resolve = l.root) {name : String}
    (hshort : FileTree.tooLong (jobFileName name) = false) (n : Node) :
    l.Tidy (files.put (l.jobFile name).resolve n) := by
  refine ⟨FileTree.nodup_children_put h.nodup _ n, fun p hp => ?_⟩
  rcases FileTree.mem_children_put hp with rfl | hold
  · exact ⟨name, resolve_jobFile hroot name, hshort⟩
  · exact h.named p hold

theorem erase (h : l.Tidy files) (q : Path) : l.Tidy (files.erase q) where
  nodup := h.nodup.sublist (files.children_erase_sublist q l.jobs)
  named p hp := h.named p ((files.children_erase_sublist q l.jobs).subset hp)

theorem written (h : l.Tidy files) (hroot : l.root.resolve = l.root) (change : JobChange) :
    l.Tidy (change.written l files) := by
  cases change with
  | save c =>
    rw [JobChange.written]
    by_cases hlength : FileTree.tooLong (jobFileName c.jobName) = true
    · rw [if_pos hlength]
      exact h
    · rw [if_neg hlength]
      exact h.put hroot (Bool.eq_false_iff.mpr hlength) (l.jobNode c)
  | delete name =>
    rw [JobChange.written]
    by_cases hlength : FileTree.tooLong (jobFileName name) = true
    · rw [if_pos hlength]
      exact h
    · rw [if_neg hlength]
      exact h.erase (l.jobFile name).resolve

end Tidy

/-- A repository that holds what was kept, and nothing else. -/
structure Lists (l : Layout) (done : List JobChange) (files : FileTree) : Prop where
  holds : l.Holds done files
  tidy : l.Tidy files

namespace Lists

theorem performAll (h : l.Lists done w.files) (hroot : l.root.resolve = l.root) (changes : List JobChange) :
    l.Lists (done ++ changes) ((l.performAll changes).exec w).2.files := by
  induction changes generalizing done w with
  | nil =>
    rw [List.append_nil]
    exact h
  | cons change rest ih =>
    have hdone : done ++ change :: rest = done ++ [change] ++ rest := by simp
    have hstep : l.Lists (done ++ [change]) ((change.perform l).exec w).2.files := by
      rw [h.holds.files_perform]
      exact ⟨h.holds.written change, h.tidy.written hroot change⟩
    rw [Layout.performAll, Action.exec_attempts_cons, hdone]
    exact ih hstep

/-! ## What is listed -/

theorem get?_keyFile (h : l.Lists done files) (hroot : l.root.resolve = l.root) (key : String)
    (hshort : FileTree.tooLong (key ++ ".yaml") = false) (hkept : (kept key done).isSome = true) :
    ∃ c, kept key done = some c ∧ slug c.jobName = key ∧ files.get? (l.keyFile key) = some (l.jobNode c) := by
  obtain ⟨c, hc⟩ := Option.isSome_iff_exists.mp hkept
  obtain ⟨-, rfl⟩ := mem_of_kept hc
  have hnode := h.holds.node c.jobName hshort
  rw [resolve_jobFile hroot, hc] at hnode
  exact ⟨c, hc, rfl, hnode⟩

/-- The files that are listed are those of the slugs that hold jobs, but for the empty one. -/
theorem mem_jobFiles_iff (h : l.Lists done files) (hroot : l.root.resolve = l.root) {p : Path} :
    p ∈ l.jobFiles files ↔ ∃ key, p = l.keyFile key ∧
      key ≠ "" ∧ FileTree.tooLong (key ++ ".yaml") = false ∧ (kept key done).isSome = true := by
  rw [jobFiles, List.mem_mergeSort, List.mem_filter, Bool.and_eq_true]
  constructor
  · rintro ⟨hp, -, hconfig⟩
    obtain ⟨name, rfl, hshort⟩ := h.tidy.named p hp
    have hnode := h.holds.node name hshort
    rw [resolve_jobFile hroot] at hnode
    have hsome := FileTree.mem_children_iff.mp hp
    refine ⟨slug name, rfl, (isConfig_child_iff l.jobs).mp hconfig, hshort, ?_⟩
    rw [← Option.isSome_map, ← hnode]
    exact hsome
  · rintro ⟨key, rfl, hkey, hshort, hkept⟩
    obtain ⟨c, -, -, hnode⟩ := h.get?_keyFile hroot key hshort hkept
    refine ⟨FileTree.mem_children_iff.mpr ?_, ?_, (isConfig_child_iff l.jobs).mpr hkey⟩
    · exact Option.isSome_of_eq_some hnode
    · rw [FileTree.isFile, hnode]
      rfl

theorem exists_keys (h : l.Lists done files) (hroot : l.root.resolve = l.root) :
    ∃ keys : List String, l.jobFiles files = keys.map l.keyFile := by
  have hrange : l.jobFiles files ∈ Set.range (List.map l.keyFile) := by
    rw [Set.range_list_map]
    intro p hp
    obtain ⟨key, rfl, -⟩ := (h.mem_jobFiles_iff hroot).mp hp
    exact Set.mem_range_self key
  obtain ⟨keys, hkeys⟩ := hrange
  exact ⟨keys, hkeys.symm⟩

theorem pairwise_keys (h : l.Lists done files) {keys : List String} (hkeys : l.jobFiles files = keys.map l.keyFile) :
    (keys.map (· ++ ".yaml")).Pairwise (· < ·) := by
  have hsorted : (l.jobFiles files).Pairwise fun p q => decide (p.name ≤ q.name) = true := by
    apply List.pairwise_mergeSort
    · intro p q r hpq hqr
      rw [decide_eq_true_eq] at hpq hqr ⊢
      exact String.le_trans hpq hqr
    · intro p q
      rw [Bool.or_eq_true, decide_eq_true_eq, decide_eq_true_eq]
      exact String.le_total p.name q.name
  have hnodup : (l.jobFiles files).Nodup :=
    (List.mergeSort_perm _ _).nodup_iff.mpr (h.tidy.nodup.sublist List.filter_sublist)
  have hname (key : String) : (l.keyFile key).name = key ++ ".yaml" := by
    rw [keyFile, Path.name, Path.child, List.getLastD_concat]
  -- different files in one directory have different names
  have hboth := hsorted.and hnodup
  rw [hkeys, List.pairwise_map] at hboth
  refine List.pairwise_map.mpr (hboth.imp fun {a b} hab => ?_)
  obtain ⟨hle, hne⟩ := hab
  rw [decide_eq_true_eq, hname, hname] at hle
  refine String.not_le.mp fun hge => hne ?_
  rw [keyFile, keyFile, String.le_antisymm hle hge]

theorem load_keyFile (h : l.Lists done files) (hdone : ∀ c, .save c ∈ done → c.Storable (l.jobFile c.jobName))
    (hshort : FileTree.tooLong (key ++ ".yaml") = false) (hkept : kept key done = some c) (identifier : String) :
    JobConfig.load files (l.keyFile key) identifier = .ok c := by
  obtain ⟨-, rfl⟩ := mem_of_kept hkept
  have hload := h.holds.loadJob_eq hdone hshort
  rw [hkept] at hload
  exact (JobConfig.load_eq_ok_iff identifier).mpr ((JobConfig.load_eq_ok_iff c.jobName).mp hload)

end Lists

/-- A repository that was opened with no jobs lists, after any calls, the jobs that were saved last under their slugs
and not deleted since, one for each slug, in the order of their file names. The empty slug is left out, and slugs whose
file names are too long hold no job. So a job that was just saved is listed just if its slug is not empty. The jobs that
are saved have plain schedule values, or none, and can be written and read back (`JobConfig.Storable`). -/
theorem listJobs_performAll {r : Repository} (hroot : l.root.resolve = l.root)
    (hopen : (Repository.openAt l).exec w = (.ok r, w'))
    (hempty : ∀ name, w'.files.get? (l.jobs.resolve.child name) = none) (changes : List JobChange)
    (hstored : ∀ c, .save c ∈ changes → c.Storable (l.jobFile c.jobName)) :
    ∃ keys : List String, (keys.map (· ++ ".yaml")).Pairwise (· < ·) ∧
      (∀ key, key ∈ keys ↔
        key ≠ "" ∧ FileTree.tooLong (key ++ ".yaml") = false ∧ (kept key changes).isSome = true) ∧
      l.listJobs ((l.performAll changes).exec w').2.files = .ok (keys.filterMap (kept · changes)) ∧
      ∀ before c, changes = before ++ [.save c] → FileTree.tooLong (jobFileName c.jobName) = false →
        (c ∈ keys.filterMap (kept · changes) ↔ slug c.jobName ≠ "") := by
  obtain ⟨-, hprepared⟩ := Repository.openAt_eq_ok hopen
  have h : l.Lists changes ((l.performAll changes).exec w').2.files :=
    Lists.performAll ⟨.of_empty hprepared hempty, .of_empty hroot hempty⟩ hroot changes
  obtain ⟨keys, hkeys⟩ := h.exists_keys hroot
  have hmem (key : String) : key ∈ keys ↔
      key ≠ "" ∧ FileTree.tooLong (key ++ ".yaml") = false ∧ (kept key changes).isSome = true := by
    rw [← List.mem_map_of_injective (keyFile_injective l), ← hkeys, h.mem_jobFiles_iff hroot]
    constructor
    · rintro ⟨key', heq, hlisted⟩
      rw [keyFile_injective l heq]
      exact hlisted
    · exact fun hlisted => ⟨key, rfl, hlisted⟩
  refine ⟨keys, h.pairwise_keys hkeys, hmem, ?_, fun before c hlast hshort => ?_⟩
  · rw [listJobs, hkeys]
    refine mapM_map_eq_ok fun key hkey => ?_
    obtain ⟨-, hshort, hsome⟩ := (hmem key).mp hkey
    obtain ⟨c, hkept⟩ := Option.isSome_iff_exists.mp hsome
    exact ⟨c, hkept, h.load_keyFile hstored hshort hkept _⟩
  · have hkept : kept (slug c.jobName) changes = some c := by
      rw [hlast, kept_append_singleton]
      exact if_pos rfl
    rw [List.mem_filterMap]
    constructor
    · rintro ⟨key, hkey, hc⟩
      rw [(mem_of_kept hc).2]
      exact ((hmem key).mp hkey).1
    · intro hslug
      exact ⟨slug c.jobName, (hmem _).mpr ⟨hslug, hshort, Option.isSome_of_eq_some hkept⟩, hkept⟩

theorem storable_c : (namedJob "c").Storable (sampleLayout.jobFile "c") :=
  storable_namedJob (by decide +kernel) (by decide +kernel)

theorem storable_marks : (namedJob "!!!").Storable (sampleLayout.jobFile "!!!") :=
  storable_namedJob (by decide +kernel) (by decide +kernel)

/-- A job that was deleted by another name and saved again stands before another one; one under the empty slug is not
listed. -/
theorem listJobs_performAll_again :
    let changes : List JobChange := [.save (namedJob "c"), .save sampleJob, .save (namedJob "!!!"), .delete "a-b",
      .save sampleJob]
    ∃ w, ∃ keys : List String, (Repository.openAt sampleLayout).exec {} = (.ok { layout := sampleLayout }, w) ∧
      sampleLayout.root.resolve = sampleLayout.root ∧
      (∀ name, w.files.get? (sampleLayout.jobs.resolve.child name) = none) ∧
      (∀ c, .save c ∈ changes → c.Storable (sampleLayout.jobFile c.jobName)) ∧
      sampleLayout.listJobs ((sampleLayout.performAll changes).exec w).2.files =
        .ok (keys.filterMap (kept · changes)) ∧
      "c" ∈ keys ∧ "a-b" ∈ keys ∧ "" ∉ keys ∧ sampleJob ∈ keys.filterMap (kept · changes) := by
  intro changes
  obtain ⟨w, hopen, hw⟩ := Repository.exec_openAt_sample
  have hroot : sampleLayout.root.resolve = sampleLayout.root := by decide +kernel
  have hstored : ∀ c, .save c ∈ changes → c.Storable (sampleLayout.jobFile c.jobName) := by
    intro c hc
    have hcases : c = namedJob "c" ∨ c = sampleJob ∨ c = namedJob "!!!" ∨ c = sampleJob := by simpa [changes] using hc
    rcases hcases with rfl | rfl | rfl | rfl
    · exact storable_c
    · exact storable_sampleJob
    · exact storable_marks
    · exact storable_sampleJob
  obtain ⟨keys, -, hmem, hlist, hlast⟩ := listJobs_performAll hroot hopen (empty_sample hw) changes hstored
  refine ⟨w, keys, hopen, hroot, empty_sample hw, hstored, hlist, ?_, ?_, ?_, ?_⟩
  · exact (hmem "c").mpr (by decide +kernel)
  · exact (hmem "a-b").mpr (by decide +kernel)
  · exact fun hkey => ((hmem "").mp hkey).1 rfl
  · have hjust : changes = changes.dropLast ++ [.save sampleJob] := rfl
    exact (hlast _ _ hjust (by decide +kernel)).mpr (by decide +kernel)

/-- A job whose slug is empty is loaded by its name after it was saved, and is not listed. -/
theorem listJobs_empty_slug :
    let changes : List JobChange := [.save (namedJob "!!!")]
    ∃ w, (Repository.openAt sampleLayout).exec {} = (.ok { layout := sampleLayout }, w) ∧
      sampleLayout.loadJob ((sampleLayout.performAll changes).exec w).2.files "!!!" = .ok (namedJob "!!!") ∧
      sampleLayout.listJobs ((sampleLayout.performAll changes).exec w).2.files = .ok [] := by
  intro changes
  obtain ⟨w, hopen, hw⟩ := Repository.exec_openAt_sample
  obtain ⟨-, hprepared⟩ := Repository.openAt_eq_ok hopen
  have hroot : sampleLayout.root.resolve = sampleLayout.root := by decide +kernel
  have h : sampleLayout.Lists changes ((sampleLayout.performAll changes).exec w).2.files :=
    Lists.performAll ⟨.of_empty hprepared (empty_sample hw), .of_empty hroot (empty_sample hw)⟩ hroot changes
  have hstored : ∀ c, .save c ∈ changes → c.Storable (sampleLayout.jobFile c.jobName) := by
    intro c hc
    have hmarks : c = namedJob "!!!" := by simpa [changes] using hc
    rw [hmarks]
    exact storable_marks
  have hkept : kept (slug "!!!") changes = some (namedJob "!!!") := by decide +kernel
  have hshort : FileTree.tooLong (jobFileName "!!!") = false := by decide +kernel
  have hload := h.holds.loadJob_eq hstored hshort
  rw [hkept] at hload
  have hnone : sampleLayout.jobFiles ((sampleLayout.performAll changes).exec w).2.files = [] := by
    apply List.eq_nil_iff_forall_not_mem.mpr
    intro p hp
    obtain ⟨key, -, hkey, -, hsome⟩ := (h.mem_jobFiles_iff hroot).mp hp
    obtain ⟨c, hc⟩ := Option.isSome_iff_exists.mp hsome
    obtain ⟨hsaved, rfl⟩ := mem_of_kept hc
    have hname : c = namedJob "!!!" := by simpa [changes] using hsaved
    rw [hname] at hkey
    exact absurd hkey (by decide +kernel)
  refine ⟨w, hopen, hload, ?_⟩
  rw [listJobs, hnone]
  rfl

end Layout

end DocFetch

import DocFetch.Config.Repository
import DocFetch.Proofs.Files.Contents

/-! # Jobs that are listed and jobs that are loaded

Listing takes every configuration file in the directory of jobs. Loading by name takes the one that is named
by the slug of the name, whatever names the files hold.
-/

namespace DocFetch

/-! ## Files of jobs -/

namespace JobConfig

variable {files : FileTree} {p : Path} {c : JobConfig}

theorem load_eq_ok_iff (identifier : String) :
    load files p identifier = .ok c ↔
      files.exists? p = .ok true ∧ (ConfigFile.read files p >>= ofValue) = .ok c := by
  unfold load
  rcases files.exists? p with e | _ | _
  · exact iff_of_false (fun h => by cases h) fun h => by cases h.1
  · exact iff_of_false (fun h => by cases h) fun h => by cases h.1
  · exact ⟨fun h => ⟨rfl, h⟩, fun h => h.2⟩

theorem isFile_of_load {identifier : String} (hp : p.resolve = p) (h : load files p identifier = .ok c) :
    files.isFile p = true := by
  have hread := ((load_eq_ok_iff identifier).mp h).2
  unfold ConfigFile.read at hread
  cases hbytes : files.read p with
  | error e =>
    rw [hbytes] at hread
    cases hread
  | ok b => exact FileTree.isFile_of_read hp hbytes

end JobConfig

/-! ## Listing -/

theorem mem_zip_of_mapM_eq_ok {ε α β : Type} {f : α → Except ε β} {l : List α} {r : List β}
    (h : l.mapM f = .ok r) {a : α} {b : β} : (a, b) ∈ l.zip r ↔ a ∈ l ∧ f a = .ok b := by
  induction l generalizing r with
  | nil =>
    rw [List.zip_nil_left]
    exact iff_of_false List.not_mem_nil fun hmem => List.not_mem_nil hmem.1
  | cons x rest ih =>
    rw [List.mapM_cons] at h
    cases hx : f x with
    | error e =>
      rw [hx] at h
      cases h
    | ok y =>
      cases hrest : rest.mapM f with
      | error e =>
        rw [hx, hrest] at h
        cases h
      | ok ys =>
        rw [hx, hrest] at h
        cases h
        rw [List.zip_cons_cons, List.mem_cons, List.mem_cons, ih hrest, Prod.mk.injEq]
        constructor
        · rintro (⟨rfl, rfl⟩ | ⟨hmem, ha⟩)
          · exact ⟨.inl rfl, hx⟩
          · exact ⟨.inr hmem, ha⟩
        · rintro ⟨rfl | hmem, ha⟩
          · rw [hx] at ha
            exact .inl ⟨rfl, (Except.ok.inj ha).symm⟩
          · exact .inr ⟨hmem, ha⟩

theorem mapM_map_eq_ok {ε α β γ : Type} {f : β → Except ε γ} {g : α → β} {found : α → Option γ} {l : List α}
    (h : ∀ a ∈ l, ∃ b, found a = some b ∧ f (g a) = .ok b) : (l.map g).mapM f = .ok (l.filterMap found) := by
  induction l with
  | nil => rfl
  | cons a rest ih =>
    obtain ⟨b, hfound, hb⟩ := h a List.mem_cons_self
    rw [List.map_cons, List.mapM_cons, hb, ih fun a' ha' => h a' (List.mem_cons_of_mem a ha'),
      List.filterMap_cons_some hfound]
    rfl

namespace Layout

variable {l : Layout} {files : FileTree} {jobs : List JobConfig} {name : String} {c : JobConfig}

theorem jobFileName_ne_dots (name : String) : jobFileName name ≠ ".." := by
  intro h
  have hlength := congrArg (fun s => s.toList.length) h
  simp [jobFileName] at hlength

theorem resolve_jobFile_eq (l : Layout) (name : String) :
    (l.jobFile name).resolve = l.jobs.resolve.child (jobFileName name) :=
  l.jobs.resolve_child (jobFileName_ne_dots name)

theorem resolve_jobs (hroot : l.root.resolve = l.root) : l.jobs.resolve = l.jobs := by
  rw [jobs, Path.resolve_child _ (by decide), data, Path.resolve_child _ (by decide), hroot]

theorem resolve_jobFile (hroot : l.root.resolve = l.root) (name : String) :
    (l.jobFile name).resolve = l.jobFile name := by
  rw [resolve_jobFile_eq, resolve_jobs hroot]
  rfl

/-- A file name that is nothing but the ending of configurations has no suffix. -/
theorem isConfig_child_iff (p : Path) {key : String} :
    ConfigFile.isConfig (p.child (key ++ ".yaml")) = true ↔ key ≠ "" := by
  constructor
  · rintro hconfig rfl
    have hsuffix : (p.child ("" ++ ".yaml")).suffix = "" := by
      rw [Path.suffix, Path.name, Path.child, List.getLastD_concat]
      decide
    rw [ConfigFile.isConfig, ConfigFile.isYaml, hsuffix] at hconfig
    exact absurd hconfig (by decide)
  · intro hkey
    have hsuffix : (p.child (key ++ ".yaml")).suffix = ".yaml" :=
      Path.suffix_child p hkey (e := "yaml".toList) (by decide) (by decide)
    rw [ConfigFile.isConfig, ConfigFile.isYaml, hsuffix]
    rfl

theorem jobFile_mem_jobFiles (hname : slug name ≠ "") (hfile : files.isFile (l.jobFile name) = true) :
    l.jobFile name ∈ l.jobFiles files := by
  have hconfig : ConfigFile.isConfig (l.jobFile name) = true := (isConfig_child_iff l.jobs).mpr hname
  have hnode : (files.get? (l.jobFile name)).isSome = true := by
    unfold FileTree.isFile at hfile
    cases hnone : files.get? (l.jobFile name) with
    | none =>
      rw [hnone] at hfile
      cases hfile
    | some _ => rfl
  refine List.mem_mergeSort.mpr (List.mem_filter.mpr ⟨FileTree.mem_children_iff.mpr hnode, ?_⟩)
  rw [hfile, hconfig]
  rfl

/-- Where the jobs can be listed, loading by a name gives what was listed for the file of that name, and fails
if that file is not among them. -/
theorem loadJob_eq_ok_iff_listed (hroot : l.root.resolve = l.root) (hlist : l.listJobs files = .ok jobs)
    (hname : slug name ≠ "") :
    l.loadJob files name = .ok c ↔ (l.jobFile name, c) ∈ (l.jobFiles files).zip jobs := by
  rw [mem_zip_of_mapM_eq_ok hlist, JobConfig.load_eq_ok_iff, ← JobConfig.load_eq_ok_iff name]
  constructor
  · intro h
    exact ⟨jobFile_mem_jobFiles hname (JobConfig.isFile_of_load (resolve_jobFile hroot name) h), h⟩
  · exact fun h => h.2

def sampleLayout : Layout := ⟨.ofText "/home"⟩

/-- A home directory with one configuration file. -/
def sampleFiles (file text : String) : FileTree :=
  ⟨[(.ofText "/home", .directory), (.ofText "/home/data", .directory), (.ofText "/home/data/jobs", .directory),
    (sampleLayout.jobs.child file, .file (Text.encodeUtf8 text))]⟩

private theorem listJobs_sample (files : FileTree) (name : String)
    (h : (sampleLayout.listJobs files).toOption.any (fun jobs => jobs.map JobConfig.jobName == [name]) = true) :
    ∃ c, sampleLayout.listJobs files = .ok [c] ∧ c.jobName = name := by
  cases hlist : sampleLayout.listJobs files with
  | error e =>
    rw [hlist] at h
    cases h
  | ok jobs =>
    rw [hlist] at h
    have hnames : jobs.map JobConfig.jobName = [name] := eq_of_beq h
    obtain ⟨c, rfl, hname⟩ := List.map_eq_singleton_iff.mp hnames
    exact ⟨c, rfl, hname⟩

/-- A job in the file of its name. -/
theorem loadJob_listed_yaml :
    let files := sampleFiles "users.yaml" "job_name: Users!\nfetch:\n  cluster_service: c\n"
    ∃ c, sampleLayout.root.resolve = sampleLayout.root ∧ sampleLayout.listJobs files = .ok [c] ∧
      slug c.jobName ≠ "" ∧ sampleLayout.loadJob files c.jobName = .ok c := by
  intro files
  obtain ⟨c, hlist, hname⟩ := listJobs_sample files "Users!" (by decide +kernel)
  have hroot : sampleLayout.root.resolve = sampleLayout.root := by decide +kernel
  have hslug : slug c.jobName ≠ "" := by
    rw [hname]
    decide +kernel
  have hfiles : sampleLayout.jobFiles files = [sampleLayout.jobFile "Users!"] := by decide +kernel
  refine ⟨c, hroot, hlist, hslug, (loadJob_eq_ok_iff_listed hroot hlist hslug).mpr ?_⟩
  rw [hfiles, hname]
  exact List.mem_singleton_self _

/-- A job in a JSON file is listed, but not found by its name. -/
theorem loadJob_listed_json :
    let files := sampleFiles "orders.json"
      "\x7b\"job_name\":\"orders\",\"fetch\":\x7b\"cluster_service\":\"c\"\x7d\x7d"
    ∃ c, sampleLayout.listJobs files = .ok [c] ∧ c.jobName = "orders" ∧
      sampleLayout.loadJob files c.jobName = .error (.refused (.jobNotFound "orders")) := by
  intro files
  obtain ⟨c, hlist, hname⟩ := listJobs_sample files "orders" (by decide +kernel)
  refine ⟨c, hlist, hname, ?_⟩
  rw [hname]
  rfl

end Layout

end DocFetch

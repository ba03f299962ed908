import DocFetch.Proofs.Config.Checking
import DocFetch.Proofs.Config.Listing
import DocFetch.Proofs.Files.Directories
import DocFetch.Proofs.World.Actions

/-! # Configurations in storage

A configuration that was checked is the same after it was written to its file and loaded again, provided that
the text format reads back the mapping that it wrote and that the file can be opened.
-/

namespace DocFetch

variable {l : Layout} {files files' : FileTree} {w w' : World} {p q : Path} {v : Value}

/-! ## Directories -/

namespace Layout

/-- Whether the directories of a repository are there. -/
def Prepared (l : Layout) (files : FileTree) : Prop :=
  ∀ p ∈ [l.data, l.jobs, l.outputs, l.logs], files.makeDirectories p = .ok files

theorem Prepared.mono (h : l.Prepared files)
    (hmono : ∀ q, files.isDirectory q = true → files'.isDirectory q = true) : l.Prepared files' :=
  fun p hp => FileTree.makeDirectories_again (h p hp) hmono

private theorem made_of_forM {ps : List Path}
    (h : (ps.forM fun p => World.changeFiles (·.makeDirectories p)).exec w = (.ok (), w')) :
    (∀ q, w.files.isDirectory q = true → w'.files.isDirectory q = true) ∧
      ∀ p ∈ ps, w'.files.makeDirectories p = .ok w'.files := by
  induction ps generalizing w with
  | nil =>
    cases h
    exact ⟨fun _ hq => hq, nofun⟩
  | cons p rest ih =>
    rw [List.forM_eq_forM, List.forM_cons] at h
    obtain ⟨_, u, hfirst, hrest⟩ := Action.exec_bind_eq_ok h
    obtain ⟨files, hmake, rfl⟩ := World.changeFiles_eq_ok hfirst
    obtain ⟨hmono, hmade⟩ := ih hrest
    refine ⟨fun q hq => hmono q ((FileTree.makeDirectories_eq_ok hmake).isDirectory hq), fun r hr => ?_⟩
    rcases List.mem_cons.mp hr with rfl | hr
    · exact FileTree.makeDirectories_again hmake hmono
    · exact hmade r hr

theorem prepared_of_prepare (h : l.prepare.exec w = (.ok (), w')) : l.Prepared w'.files :=
  (made_of_forM h).2

theorem exec_prepare (h : l.Prepared w.files) : l.prepare.exec w = (.ok (), w) := by
  have hall (ps : List Path) (h : ∀ p ∈ ps, w.files.makeDirectories p = .ok w.files) :
      (ps.forM fun p => World.changeFiles (·.makeDirectories p)).exec w = (.ok (), w) := by
    induction ps with
    | nil => rfl
    | cons p rest ih =>
      rw [List.forM_eq_forM, List.forM_cons,
        Action.exec_bind_ok (World.exec_changeFiles_of_ok (h p List.mem_cons_self))]
      exact ih fun q hq => h q (List.mem_cons_of_mem p hq)
  exact hall _ h

theorem nul_notMem_jobFileName (name : String) : '\x00' ∉ (jobFileName name).toList := by
  rw [jobFileName, String.toList_append, List.mem_append]
  exact not_or.mpr ⟨nul_notMem_slug name, by decide⟩

theorem locate_jobFile (h : l.Prepared files) {name : String}
    (hshort : FileTree.tooLong (jobFileName name) = false) :
    files.locate (l.jobFile name) = .ok (l.jobFile name).resolve :=
  FileTree.locate_child (h l.jobs (by simp)) (jobFileName_ne_dots name) hshort (nul_notMem_jobFileName name)

theorem exists?_jobFile_of_tooLong (h : l.Prepared files) {name : String}
    (hlong : FileTree.tooLong (jobFileName name) = true) :
    files.exists? (l.jobFile name) = .error (.fault .system) :=
  FileTree.exists?_of_locate_system (FileTree.locate_child_of_tooLong (h l.jobs (by simp)) (jobFileName_ne_dots name)
    hlong (nul_notMem_jobFileName name))

theorem loadJob_of_tooLong (h : l.Prepared files) {name : String} (hlong : FileTree.tooLong (jobFileName name) = true) :
    l.loadJob files name = .error (.fault .system) := by
  unfold loadJob JobConfig.load
  rw [exists?_jobFile_of_tooLong h hlong]
  rfl

theorem locate_globalConfig (h : l.Prepared files) :
    files.locate l.globalConfig = .ok l.globalConfig.resolve :=
  FileTree.locate_child (h l.data (by simp)) (by decide) (by decide) (by decide)

end Layout

namespace Repository

theorem openAt_eq_ok {r : Repository} (h : (openAt l).exec w = (.ok r, w')) :
    r = { layout := l } ∧ l.Prepared w'.files := by
  obtain ⟨_, u, hprepare, hend⟩ := Action.exec_bind_eq_ok h
  cases hend
  exact ⟨rfl, Layout.prepared_of_prepare hprepare⟩

theorem exec_openAt (h : l.Prepared w.files) : (openAt l).exec w = (.ok { layout := l }, w) :=
  Action.exec_bind_ok (Layout.exec_prepare h) _

end Repository

/-! ## Files -/

/-- The entries of a mapping. -/
def Value.entries : Value → List (Value × Value)
  | .map entries => entries
  | _ => []

theorem JobConfig.toValue_eq (c : JobConfig) (compact : Bool) :
    c.toValue compact = .map (c.toValue compact).entries := rfl

theorem GlobalConfig.toValue_eq (c : GlobalConfig) (compact : Bool) :
    c.toValue compact = .map (c.toValue compact).entries := rfl

namespace ConfigFile

variable {entries : List (Value × Value)}

/-- Whether a mapping is written by the text format of the file and read back: what YAML and JSON are trusted to do. -/
structure ReadsBack (p : Path) (entries : List (Value × Value)) : Prop where
  writable : isWritable p entries = true
  yaml : isYaml p = true → (Yaml.read (text p entries)).toOption = some (.map entries)
  json : isYaml p = false → Json.read? (text p entries) = some (.map entries)

instance (p : Path) (entries : List (Value × Value)) : Decidable (ReadsBack p entries) :=
  decidable_of_iff (isWritable p entries = true ∧
    (isYaml p = true → (Yaml.read (text p entries)).toOption = some (.map entries)) ∧
    (isYaml p = false → Json.read? (text p entries) = some (.map entries)))
    ⟨fun h => ⟨h.1, h.2.1, h.2.2⟩, fun h => ⟨h.writable, h.yaml, h.json⟩⟩

theorem ReadsBack.outcome_eq (h : ReadsBack p entries) : outcome p entries = .ok () := if_pos h.writable

theorem parse_text (h : ReadsBack p entries) : parse p (text p entries) = .ok (.map entries) := by
  unfold parse
  cases hyaml : isYaml p with
  | true =>
    have hback := h.yaml hyaml
    simp only [if_true]
    cases hread : Yaml.read (text p entries) with
    | error e =>
      rw [hread] at hback
      cases hback
    | ok v =>
      rw [hread] at hback
      cases hback
      cases entries <;> rfl
  | false =>
    simp only [h.json hyaml, if_false, Bool.false_eq_true]
    rfl

theorem read_of_content {content : ByteArray} {text : String} (hcontent : files.read p = .ok content)
    (htext : Text.decodeUtf8? content = some text) : read files p = parse p text := by
  have hread : files.read p = pure content := hcontent
  unfold read
  rw [hread, pure_bind, htext]

/-- The file that a mapping is written to. -/
def file (p : Path) (entries : List (Value × Value)) : Node := .file (Text.encodeUtf8 (text p entries))

theorem read_file (hback : ReadsBack p entries) (hplace : files.locate p = .ok q)
    (hfile : files.get? q = some (file p entries)) : read files p = .ok (.map entries) := by
  rw [read_of_content (FileTree.read_of_file hplace hfile) (Text.decodeUtf8?_encodeUtf8 _)]
  exact parse_text hback

/-- A file that is opened holds what came out, also where the writer fails. -/
theorem exec_write (hopens : w.files.Opens p) (entries : List (Value × Value)) :
    (write p (.map entries)).exec w =
      (outcome p entries,
        { w with storage := { w.storage with files := w.files.put p.resolve (file p entries) } }) := by
  have hput : (World.changeFiles (·.write p (Text.encodeUtf8 (text p entries)))).exec w =
      (.ok (), { w with storage := { w.storage with files := w.files.put p.resolve (file p entries) } }) := by
    rw [World.exec_changeFiles, FileTree.write_of_opens hopens, file]
  rw [write, Action.exec_bind_ok hput, Action.exec_ofExcept]

theorem exec_write_of_not_opens (h : ¬ w.files.Opens p) (entries : List (Value × Value)) :
    ∃ e, (write p (.map entries)).exec w = (.error e, w) := by
  obtain ⟨e, hwrite⟩ := FileTree.write_of_not_opens h (Text.encodeUtf8 (text p entries))
  have hfails : (World.changeFiles (·.write p (Text.encodeUtf8 (text p entries)))).exec w = (.error e, w) := by
    rw [World.exec_changeFiles, hwrite]
  exact ⟨e, by rw [write, Action.exec_bind_error hfails]⟩

end ConfigFile

/-! ## Jobs -/

deriving instance DecidableEq for ScheduleConfig

deriving instance DecidableEq for JobConfig

/-- Whether a job was checked and its file in a text format can be trusted. -/
structure JobConfig.Storable (p : Path) (c : JobConfig) : Prop where
  accepted : ∃ v, JobConfig.ofValue v = .ok c
  plain : ∀ s ∈ c.schedule, s.value.IsPlain
  back : ConfigFile.ReadsBack p (c.toValue true).entries

theorem JobConfig.Storable.ofValue_toValue {c : JobConfig} (h : c.Storable p) :
    JobConfig.ofValue (c.toValue true) = .ok c := by
  obtain ⟨v, hv⟩ := h.accepted
  have hvalid := JobConfig.valid_of_check (Verdict.toExcept_eq_ok.mp hv)
  exact Verdict.toExcept_eq_ok.mpr (JobConfig.check_toValue hvalid h.plain true)

namespace Layout

variable {c : JobConfig} {name : String}

/-- The file of a job. -/
def jobNode (l : Layout) (c : JobConfig) : Node :=
  ConfigFile.file (l.jobFile c.jobName) (c.toValue true).entries

/-- How saving a job ends where its file can be opened. -/
def saved (l : Layout) (c : JobConfig) : Except Failure Path :=
  (ConfigFile.outcome (l.jobFile c.jobName) (c.toValue true).entries).map fun _ => l.jobFile c.jobName

theorem saved_eq_ok (h : ConfigFile.ReadsBack (l.jobFile c.jobName) (c.toValue true).entries) :
    l.saved c = .ok (l.jobFile c.jobName) := by
  rw [saved, h.outcome_eq]
  rfl

theorem exec_saveJob (h : w.files.Opens (l.jobFile c.jobName)) :
    (l.saveJob c).exec w = (l.saved c, { w with storage := { w.storage with
      files := w.files.put (l.jobFile c.jobName).resolve (l.jobNode c) } }) := by
  have hwrite := ConfigFile.exec_write h (c.toValue true).entries
  unfold saveJob
  rw [c.toValue_eq, saved, jobNode]
  cases hends : ConfigFile.outcome (l.jobFile c.jobName) (c.toValue true).entries with
  | ok _ => rw [Action.exec_bind_ok (hwrite.trans (by rw [hends]))]; rfl
  | error e => rw [Action.exec_bind_error (hwrite.trans (by rw [hends]))]; rfl

/-- A job is loaded from its file by every name that leads there. -/
theorem loadJob_of_node (hc : c.Storable (l.jobFile c.jobName)) (hname : l.jobFile name = l.jobFile c.jobName)
    (hplace : files.locate (l.jobFile name) = .ok q) (hnode : files.get? q = some (l.jobNode c)) :
    l.loadJob files name = .ok c := by
  have hexists : files.exists? (l.jobFile name) = .ok true := by rw [FileTree.exists?_of_locate hplace, hnode]; rfl
  have hread : ConfigFile.read files (l.jobFile name) = pure (c.toValue true) := by
    rw [hname] at hplace ⊢
    rw [c.toValue_eq]
    exact ConfigFile.read_file hc.back hplace hnode
  refine (JobConfig.load_eq_ok_iff name).mpr ⟨hexists, ?_⟩
  rw [hread, pure_bind]
  exact hc.ofValue_toValue

theorem exec_saveJob_of_tooLong (h : FileTree.tooLong (jobFileName c.jobName) = true) (w : World) :
    ∃ e, (l.saveJob c).exec w = (.error e, w) := by
  have hopens : ¬ w.files.Opens (l.jobFile c.jobName) := by
    intro hopens
    have hshort := FileTree.short_of_locate_child (jobFileName_ne_dots c.jobName) hopens.1
    rw [h] at hshort
    cases hshort
  obtain ⟨e, hwrite⟩ := ConfigFile.exec_write_of_not_opens hopens (c.toValue true).entries
  refine ⟨e, ?_⟩
  unfold saveJob
  rw [c.toValue_eq, Action.exec_bind_error hwrite]

def sampleJob : JobConfig where
  jobName := "A b"
  fetch := { clusterService := "c", bucketName := "b", documentType := .binary, idExpression := "7" }
  store := { database := "d", path := some ⟨"", ["x", "y"]⟩ }
  output := { database := "d" }
  schedule := some ⟨.once, .null⟩

theorem isPlain_sampleJob : ∀ s ∈ sampleJob.schedule, s.value.IsPlain := by
  intro s hs
  cases hs
  exact .null

theorem readsBack_sampleJob :
    ConfigFile.ReadsBack (sampleLayout.jobFile "A b") (sampleJob.toValue true).entries := by
  decide +kernel

theorem tooLong_jobFileName : FileTree.tooLong (jobFileName (String.ofList (List.replicate 300 'A'))) = true := by
  have hslug : slugChars (List.replicate 300 'A') = List.replicate 300 'a' := by decide +kernel
  rw [jobFileName, slug, String.toList_ofList, hslug]
  decide +kernel

end Layout

/-! ## Settings -/

theorem ok_of_toOption {α : Type} {x : Except Failure α} {a : α} (h : x.toOption = some a) : x = .ok a := by
  cases x <;> cases h
  rfl

namespace Repository

variable {c : GlobalConfig}

/-- The file of the settings. -/
def globalNode (l : Layout) (c : GlobalConfig) : Node := ConfigFile.file l.globalConfig (c.toValue false).entries

theorem exec_saveGlobal (h : w.files.Opens l.globalConfig)
    (hback : ConfigFile.ReadsBack l.globalConfig (c.toValue false).entries) (settings : Option GlobalConfig) :
    (({ layout := l, settings } : Repository).saveGlobal c).exec w =
      (.ok { layout := l, settings := some c }, { w with storage := { w.storage with
        files := w.files.put l.globalConfig.resolve (globalNode l c) } }) := by
  have hwrite := ConfigFile.exec_write h (c.toValue false).entries
  rw [hback.outcome_eq] at hwrite
  unfold saveGlobal
  rw [c.toValue_eq, Action.exec_bind_ok hwrite, globalNode]
  rfl

theorem exec_loadGlobal (hexists : w.files.exists? l.globalConfig = .ok true)
    (hread : ConfigFile.read w.files l.globalConfig = pure v) (hvalue : GlobalConfig.ofValue v = .ok c) :
    ({ layout := l } : Repository).loadGlobal.exec w = (.ok (c, { layout := l, settings := some c }), w) := by
  have hvalid : (do GlobalConfig.ofValue (← ConfigFile.read w.files l.globalConfig)) = .ok c := by
    rw [hread, pure_bind, hvalue]
  unfold loadGlobal
  dsimp only
  rw [Action.exec_bind_ok (Action.exec_get w), hexists]
  rw [Action.exec_bind_ok (Action.exec_ofExcept (.ok true) w), if_pos rfl, hvalid]
  rw [Action.exec_bind_ok (Action.exec_ofExcept (.ok c) w)]
  rfl

theorem exec_loadGlobal_of_node {settings : Value} (hsettings : GlobalConfig.ofValue settings = .ok c)
    (hback : ConfigFile.ReadsBack l.globalConfig (c.toValue false).entries)
    (hplace : w.files.locate l.globalConfig = .ok q) (hnode : w.files.get? q = some (globalNode l c)) :
    ({ layout := l } : Repository).loadGlobal.exec w = (.ok (c, { layout := l, settings := some c }), w) := by
  have hvalid := GlobalConfig.valid_of_check (Verdict.toExcept_eq_ok.mp hsettings)
  have hexists : w.files.exists? l.globalConfig = .ok true := by
    rw [FileTree.exists?_of_locate hplace, hnode]
    rfl
  have hread : ConfigFile.read w.files l.globalConfig = pure (c.toValue false) := by
    rw [c.toValue_eq]
    exact ConfigFile.read_file hback hplace hnode
  exact exec_loadGlobal hexists hread (Verdict.toExcept_eq_ok.mpr (GlobalConfig.check_toValue hvalid))

/-- In a repository that was opened, every job that passed its check is the same after it was saved and loaded,
with a schedule that a text format can hold and a file name that is short enough; and so are all settings that
passed theirs, when the repository is opened again. -/
theorem load_saved {r : Repository} (hopen : (openAt l).exec w = (.ok r, w')) :
    (∀ v c, JobConfig.ofValue v = .ok c → (∀ s ∈ c.schedule, s.value.IsPlain) →
      FileTree.tooLong (jobFileName c.jobName) = false →
      w'.files.isDirectory (l.jobFile c.jobName).resolve = false →
      ConfigFile.ReadsBack (l.jobFile c.jobName) (c.toValue true).entries →
      ∃ u, (l.saveJob c).exec w' = (.ok (l.jobFile c.jobName), u) ∧ l.loadJob u.files c.jobName = .ok c) ∧
    ∀ v c, GlobalConfig.ofValue v = .ok c → w'.files.isDirectory l.globalConfig.resolve = false →
      ConfigFile.ReadsBack l.globalConfig (c.toValue false).entries →
      ∃ u, (r.saveGlobal c).exec w' = (.ok { layout := l, settings := some c }, u) ∧
        (do (← openAt l).loadGlobal).exec u = (.ok (c, { layout := l, settings := some c }), u) := by
  obtain ⟨rfl, hprepared⟩ := openAt_eq_ok hopen
  constructor
  · intro v c hv hplain hshort hfree hback
    have hplace := Layout.locate_jobFile hprepared hshort
    refine ⟨_, (Layout.exec_saveJob ⟨hplace, hfree⟩).trans (by rw [Layout.saved_eq_ok hback]), ?_⟩
    have hkept : (w'.files.put (l.jobFile c.jobName).resolve (l.jobNode c)).locate (l.jobFile c.jobName) =
        .ok (l.jobFile c.jobName).resolve :=
      FileTree.locate_mono (fun q hq => (FileTree.isDirectory_put_file hfree _ q).trans hq) hplace
    exact Layout.loadJob_of_node ⟨⟨v, hv⟩, hplain, hback⟩ rfl hkept (FileTree.get?_put_self _ hfree _)
  · intro v c hv hfree hback
    have hplace := Layout.locate_globalConfig hprepared
    let u : World := { w' with storage := { w'.storage with
      files := w'.files.put l.globalConfig.resolve (globalNode l c) } }
    have hmono (q : Path) (hq : w'.files.isDirectory q = true) : u.files.isDirectory q = true :=
      (FileTree.isDirectory_put_file hfree _ q).trans hq
    have hagain : l.Prepared u.files := hprepared.mono hmono
    refine ⟨u, exec_saveGlobal ⟨hplace, hfree⟩ hback none, ?_⟩
    rw [Action.exec_bind_ok (exec_openAt hagain)]
    exact exec_loadGlobal_of_node hv hback (FileTree.locate_mono hmono hplace) (FileTree.get?_put_self _ hfree _)

theorem exec_openAt_sample : ∃ w, (openAt Layout.sampleLayout).exec {} = (.ok { layout := Layout.sampleLayout }, w) ∧
    w = ((openAt Layout.sampleLayout).exec {}).2 := by
  have hreturns : ((openAt Layout.sampleLayout).exec {}).1.toOption.any (fun _ => true) = true := by decide +kernel
  obtain ⟨r, w, hopen, -⟩ := Action.exec_eq_ok_of_any hreturns
  obtain ⟨rfl, -⟩ := openAt_eq_ok hopen
  exact ⟨w, hopen, by rw [hopen]⟩

/-- Two configurations as users write them: with names in other cases, numbers in texts, loose paths and nulls. -/
theorem load_saved_loose :
    let job : Value := .object [("job_name", .text "A b"),
      ("fetch", .object [("cluster_service", .text "c"), ("bucket_name", .text "b"),
        ("document_type", .text " BINARY "), ("document_id_expression", .int 7)]),
      ("store", .object [("database", .text "d"), ("path", .text "x//./y"), ("uri", .null)]),
      ("output", .object [("database", .text "d")]),
      ("schedule", .object [("type", .text "once"), ("value", .null)])]
    let settings : Value := .object [("thread_pool_workers", .bool true), ("provenance_db", .text "")]
    let g : GlobalConfig := { workers := 1, provenanceDb := none }
    ∃ w u u', (openAt Layout.sampleLayout).exec {} = (.ok { layout := Layout.sampleLayout }, w) ∧
      (JobConfig.ofValue job = .ok Layout.sampleJob ∧
        (Layout.sampleLayout.saveJob Layout.sampleJob).exec w = (.ok (Layout.sampleLayout.jobFile "A b"), u) ∧
        Layout.sampleLayout.loadJob u.files "A b" = .ok Layout.sampleJob) ∧
      GlobalConfig.ofValue settings = .ok g ∧
        (({ layout := Layout.sampleLayout } : Repository).saveGlobal g).exec w =
          (.ok { layout := Layout.sampleLayout, settings := some g }, u') ∧
        (do (← openAt Layout.sampleLayout).loadGlobal).exec u' =
          (.ok (g, { layout := Layout.sampleLayout, settings := some g }), u') := by
  intro job settings g
  obtain ⟨w, hopen, hw⟩ := exec_openAt_sample
  have hjob : JobConfig.ofValue job = .ok Layout.sampleJob := ok_of_toOption (by decide +kernel)
  have hsettings : GlobalConfig.ofValue settings = .ok g := ok_of_toOption (by decide +kernel)
  have hjobFree : w.files.isDirectory (Layout.sampleLayout.jobFile "A b").resolve = false := by
    rw [hw]
    decide +kernel
  have hglobalFree : w.files.isDirectory Layout.sampleLayout.globalConfig.resolve = false := by
    rw [hw]
    decide +kernel
  obtain ⟨hjobs, hglobal⟩ := load_saved hopen
  obtain ⟨u, hsave, hload⟩ := hjobs job Layout.sampleJob hjob Layout.isPlain_sampleJob (by decide +kernel) hjobFree
    Layout.readsBack_sampleJob
  obtain ⟨u', hsaveGlobal, hloadGlobal⟩ := hglobal settings g hsettings hglobalFree (by decide +kernel)
  exact ⟨w, u, u', hopen, ⟨hjob, hsave, hload⟩, hsettings, hsaveGlobal, hloadGlobal⟩

/-- A job whose name makes a file name that is too long is accepted and cannot be saved. -/
theorem saveJob_long_name :
    let c : JobConfig := { jobName := String.ofList (List.replicate 300 'A'), fetch := { clusterService := "c" } }
    ∃ w e, (openAt Layout.sampleLayout).exec {} = (.ok { layout := Layout.sampleLayout }, w) ∧
      JobConfig.ofValue (c.toValue true) = .ok c ∧ c.schedule = none ∧
      (Layout.sampleLayout.saveJob c).exec w = (.error e, w) := by
  intro c
  obtain ⟨w, hopen, -⟩ := exec_openAt_sample
  have hblank : isBlankText c.jobName = false := by
    have htrim : Text.trimChars (List.replicate 300 'A') = List.replicate 300 'A' := by decide +kernel
    rw [isBlankText, Text.trim, String.toList_ofList, htrim]
    decide +kernel
  have hvalid : c.Valid := {
    complaint := by
      rw [JobConfig.complaint?, hblank]
      rfl
    fetch := by decide +kernel
    store := ⟨rfl, nofun⟩
    output := rfl
    schedule := nofun }
  obtain ⟨e, hsave⟩ := Layout.exec_saveJob_of_tooLong (c := c) Layout.tooLong_jobFileName w
  exact ⟨w, e, hopen, Verdict.toExcept_eq_ok.mpr (JobConfig.check_toValue hvalid nofun true), rfl, hsave⟩

end Repository

end DocFetch

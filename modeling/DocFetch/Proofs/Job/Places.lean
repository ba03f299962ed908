import DocFetch.Proofs.Config.Storage
import DocFetch.Proofs.Export.Lines
import DocFetch.Proofs.Export.Rows
import DocFetch.Proofs.Home.Logs

/-! # Where the files of a job lie

The name of a job goes into the names of four files. Configurations and files of lines are named by a form of it
without slashes, so they lie right in their directories whatever the name is. Databases and logs are named by the
name as it is: what it holds up to its last slash leads away from the directory, and the file lies right in there
only if it leads back.
-/

namespace DocFetch

/-! ## Names of files -/

theorem slash_notMem_padLeft (width n : Nat) : '/' ∉ (padLeft width n).toList := by
  rw [padLeft, String.toList_ofList, List.mem_append]
  rintro (h | h)
  · exact absurd (List.eq_of_mem_replicate h) (by decide)
  · exact absurd (Nat.isDigit_of_mem_toDigits (by decide) (by decide) h) (by decide)

theorem Moment.slash_notMem_tag (m : Moment) : '/' ∉ m.tag.toList := by
  have hhyphen : '/' ∉ "-".toList := by decide
  simp only [tag, String.toList_append, List.mem_append, slash_notMem_padLeft, hhyphen, or_self, not_false_eq_true]

theorem Channel.slash_notMem_name (ch : Channel) : '/' ∉ ch.name.toList := by
  cases ch <;> decide

namespace FileExport

theorem keeps_of_mem_sanitize {afterOther : Bool} {cs : List Char} {c : Char} (h : c ∈ sanitize afterOther cs) :
    keeps c = true := by
  fun_induction sanitize afterOther cs with
  | case1 => cases h
  | case2 afterOther d rest hd ih =>
    rcases List.mem_cons.mp h with rfl | h
    · exact hd
    · exact ih h
  | case3 _ _ _ ih => exact ih h
  | case4 _ _ _ _ _ ih =>
    rcases List.mem_cons.mp h with rfl | h
    · decide
    · exact ih h

theorem slash_notMem_jobPart (job : String) : '/' ∉ (jobPart job).toList := by
  unfold jobPart
  dsimp only
  split
  · decide
  · rw [String.toList_ofList]
    exact fun h => absurd (keeps_of_mem_sanitize h) (by decide)

theorem slash_notMem_fileName (job : String) {channel tag : String} (hchannel : '/' ∉ channel.toList)
    (htag : '/' ∉ tag.toList) : '/' ∉ (fileName job channel tag).toList := by
  have hhyphen : '/' ∉ "-".toList := by decide
  have hending : '/' ∉ ".jsonl".toList := by decide
  simp only [fileName, String.toList_append, List.mem_append, slash_notMem_jobPart, hchannel, htag, hhyphen, hending,
    or_self, not_false_eq_true]

/-- A file of lines lies in its directory, whatever the name of the job is. -/
theorem liesIn_place (directory : Path) (job : String) {tag : String} (htag : '/' ∉ tag.toList) (ch : Channel) :
    (place directory job tag ch).LiesIn directory := by
  have hslash := slash_notMem_fileName job ch.slash_notMem_name htag
  obtain ⟨stem, hstem⟩ := fileName_toList job ch.name tag
  exact Path.liesIn_child directory hslash (by simp [hstem])

end FileExport

theorem slash_notMem_jobFileName (job : String) : '/' ∉ (jobFileName job).toList := by
  have hending : '/' ∉ ".yaml".toList := by decide
  simp only [jobFileName, String.toList_append, List.mem_append, slash_notMem_slug, hending, or_self, not_false_eq_true]

namespace Layout

variable {l : Layout}

theorem liesIn_jobFile (l : Layout) (job : String) : (l.jobFile job).LiesIn l.jobs :=
  l.jobs.liesIn_child (slash_notMem_jobFileName job) (by simp [jobFileName])

theorem eq_jobFile_of_saveJob {c : JobConfig} {w w' : World} {r : Except Failure Path}
    (h : (l.saveJob c).exec w = (r, w')) {p : Path} (hp : w'.files.get? p ≠ w.files.get? p) :
    p = (l.jobFile c.jobName).resolve := by
  by_contra hne
  apply hp
  by_cases hopens : w.files.Opens (l.jobFile c.jobName)
  · rw [exec_saveJob hopens] at h
    cases h
    exact FileTree.get?_put_of_ne _ (Ne.symm hne) _
  · obtain ⟨e, hwrite⟩ := ConfigFile.exec_write_of_not_opens hopens (c.toValue true).entries
    unfold saveJob at h
    rw [c.toValue_eq, Action.exec_bind_error hwrite] at h
    cases h
    rfl

end Layout

namespace Home

/-! ## Logs that are opened -/

/-- The layout stays, and the logs of jobs that are open are from before or of this job. -/
structure Attaches (job : String) (h h' : Home) : Prop where
  layout : h'.layout = h.layout
  jobs : ∀ e ∈ h'.journal.jobs, e ∈ h.journal.jobs ∨ e.2 = h.layout.jobLogFile job

variable {job : String}

instance : Std.Refl (Attaches job) := ⟨fun _ => ⟨rfl, fun _ => .inl⟩⟩

instance : IsTrans Home (Attaches job) where
  trans h h' k hfirst hsecond := by
    refine ⟨hsecond.layout.trans hfirst.layout, fun e he => ?_⟩
    rcases hsecond.jobs e he with he | he
    · exact hfirst.jobs e he
    · exact .inr (he.trans (by rw [hfirst.layout]))

theorem attaches_onWorld {α : Type} (a : Action World α) : (onWorld a).Moves (Attaches job) :=
  fun _ => ⟨rfl, fun _ => .inl⟩

theorem attaches_openLogs : openLogs.Moves (Attaches job) := by
  unfold openLogs
  refine .bind .get fun h => .bind .get fun _ => ?_
  split
  · refine .bind (attaches_onWorld _) fun _ => .bind (.modify fun _ => ⟨rfl, nofun⟩) fun _ => ?_
    refine .bind (.attempt (.bind (attaches_onWorld _) fun _ => attaches_onWorld _)) fun r => ?_
    cases r with
    | ok _ => exact .modify fun _ => ⟨rfl, nofun⟩
    | error e => exact .fail _
  · exact .pure _

theorem attaches_jobLogger (job : String) : (jobLogger job).Moves (Attaches job) := by
  unfold jobLogger
  refine .bind attaches_openLogs fun _ => .bind .get fun _ => ?_
  split
  · refine .get_bind fun h => ?_
    rw [Action.exec_bind_ok (Action.exec_attempt _ _)]
    have hopened : Attaches job h ((openLog (h.layout.jobLogFile job).1).exec h).2 := attaches_onWorld _ h
    generalize (openLog (h.layout.jobLogFile job).1).exec h = opened at hopened ⊢
    obtain ⟨r, h'⟩ := opened
    cases r with
    | error e => exact hopened
    | ok _ =>
      refine ⟨hopened.layout, fun e he => ?_⟩
      rcases List.mem_append.mp he with he | he
      · exact hopened.jobs e he
      · exact .inr (congrArg Prod.snd (List.mem_singleton.mp he))
  · exact .pure _

end Home

/-! ## Where the files lie -/

theorem TableExport.liesIn_place_iff (directory : Path) (job : String) :
    (place directory job).resolve.LiesIn directory ↔ directory.Returns job := by
  rw [Path.liesIn_resolve_iff]
  exact directory.liesIn_ending_iff job (by decide) (by decide)

theorem Layout.liesIn_jobLogFile_iff (l : Layout) (job : String) :
    (l.jobLogFile job).1.LiesIn l.jobLogs ↔ l.jobLogs.Returns job := by
  change (l.jobLog job).resolve.LiesIn l.jobLogs ↔ _
  rw [Path.liesIn_resolve_iff]
  exact l.jobLogs.liesIn_ending_iff job (by decide) (by decide)

/-- The files kept for a job of any name. The configuration and the files of lines lie right in their directories;
the database and the log do just if the name up to its last slash leads back there, as the name does that has no
slash. -/
theorem kept_files (l : Layout) (job : String) :
    (∀ c w w' r, c.jobName = job → (l.saveJob c).exec w = (r, w') →
      ∀ p, w'.files.get? p ≠ w.files.get? p → p.LiesIn l.jobs) ∧
    (∀ (output : OutputConfig) (directory : Path) (now : Moment) w w' r, output.format = .json →
      (output.openRouter job directory now.tag).exec w = (.ok r, w') →
      ∀ s ∈ w'.streams, s ∈ w.streams ∨ s.path.LiesIn directory) ∧
    (∀ (output : OutputConfig) (directory : Path) (tag : String) w w' r, output.format = .sqlite →
      (output.openRouter job directory tag).exec w = (.ok r, w') →
      ∃ x, w'.exports[w.exports.length]? = some x ∧ (x.path.LiesIn directory ↔ directory.Returns job)) ∧
    (∀ h h' r, (Home.jobLogger job).exec h = (r, h') → ∀ e ∈ h'.journal.jobs,
      e ∈ h.journal.jobs ∨ (e.2.1.LiesIn h.layout.jobLogs ↔ h.layout.jobLogs.Returns job)) ∧
    ('/' ∉ job.toList → ∀ directory : Path, directory.Returns job) := by
  refine ⟨?config, ?lines, ?table, ?log, fun hslash directory => directory.returns_of_notMem hslash⟩
  case config =>
    rintro c w w' r rfl hsave p hp
    rw [Layout.eq_jobFile_of_saveJob hsave hp, Path.liesIn_resolve_iff]
    exact l.liesIn_jobFile c.jobName
  case lines =>
    intro output directory now w w' r hformat hopen s hs
    rw [(FileExport.openRouter_eq_ok hformat hopen).streams, List.mem_append] at hs
    refine hs.imp_right fun hs => ?_
    obtain ⟨ch, -, rfl⟩ := List.mem_map.mp hs
    exact FileExport.liesIn_place directory job now.slash_notMem_tag ch
  case table =>
    intro output directory tag w w' r hformat hopen
    exact ⟨_, (TableExport.openRouter_eq_ok hformat hopen).connection, TableExport.liesIn_place_iff directory job⟩
  case log =>
    intro h h' r hlogger e he
    refine (((Home.attaches_jobLogger job).of_exec hlogger).jobs e he).imp_right fun he => ?_
    rw [he]
    exact h.layout.liesIn_jobLogFile_iff job

/-- A job whose name leads two directories up. -/
def escapingJob : JobConfig where
  jobName := "../../escaped"
  fetch := { clusterService := "c" }
  output := { format := .sqlite }

/-- Its database and its log lie next to the directories `data` and `logs`. -/
theorem kept_files_above :
    JobConfig.ofValue (.object [("job_name", .text "../../escaped"),
        ("fetch", .object [("cluster_service", .text "c")]), ("output", .object [("format", .text "sqlite")])]) =
      .ok escapingJob ∧
    (∃ r w x, (escapingJob.output.openRouter escapingJob.jobName Home.freshHome.layout.outputs "t").exec {} =
        (.ok r, w) ∧ x ∈ w.exports ∧ ¬ x.path.LiesIn Home.freshHome.layout.outputs) ∧
    ∃ logger h e, (Home.jobLogger escapingJob.jobName).exec Home.freshHome = (.ok logger, h) ∧
      e ∈ h.journal.jobs ∧ ¬ e.2.1.LiesIn Home.freshHome.layout.jobLogs := by
  have habove : ¬ Home.freshHome.layout.outputs.Returns escapingJob.jobName ∧
      ¬ Home.freshHome.layout.jobLogs.Returns escapingJob.jobName := by
    unfold Path.Returns
    decide +kernel
  refine ⟨ok_of_toOption (by decide +kernel), ?_, ?_⟩
  · have hreturns : ((escapingJob.output.openRouter escapingJob.jobName Home.freshHome.layout.outputs "t").exec
        {}).1.toOption.any (fun _ => true) = true := by decide +kernel
    obtain ⟨r, w, hopen, -⟩ := Action.exec_eq_ok_of_any hreturns
    refine ⟨r, w, _, hopen, List.mem_of_getElem? (TableExport.openRouter_eq_ok rfl hopen).connection, ?_⟩
    exact fun hlies => habove.1 ((TableExport.liesIn_place_iff _ _).mp hlies)
  · have hreturns : ((Home.jobLogger escapingJob.jobName).exec Home.freshHome).1.toOption.any
        (fun _ => true) = true := by decide +kernel
    have hopened : ((Home.jobLogger escapingJob.jobName).exec Home.freshHome).2.journal.jobs ≠ [] := by decide +kernel
    obtain ⟨logger, h, hlogger, -⟩ := Action.exec_eq_ok_of_any hreturns
    rw [hlogger] at hopened
    obtain ⟨e, he⟩ := List.exists_mem_of_ne_nil _ hopened
    refine ⟨logger, h, e, hlogger, he, fun hlies => habove.2 ?_⟩
    rcases ((Home.attaches_jobLogger escapingJob.jobName).of_exec hlogger).jobs e he with hbefore | hnew
    · cases hbefore
    · rw [hnew] at hlies
      exact (Layout.liesIn_jobLogFile_iff _ _).mp hlies

end DocFetch

import DocFetch.Proofs.Files.Paths
import DocFetch.Proofs.Home.Changes
import Mathlib.Data.List.Nodup

/-! # Which logs an event goes to

The logs of a home directory are the main log, the log of errors and one log for each job that has a logger.
Whatever was done before, an event that is logged with the logger that a job was just given goes to the main
log and to the log of the job, once, and to the logs of those jobs whose names its name extends after a dot.
-/

namespace DocFetch

/-! ## Places -/

/-- The logs of a home directory. -/
inductive LogKind
  | main
  | errors
  | job (name : String)

namespace LogKind

/-- A log that lies where the logs of its home directory are kept: the name of a job holds no slash. -/
def Plain : LogKind → Prop
  | main | errors => True
  | job name => '/' ∉ name.toList

/-- The names of a plain log below the directory of logs. -/
def names : LogKind → List String
  | main => ["keyfetch.log"]
  | errors => ["error.log"]
  | job name => ["jobs", name ++ ".log"]

theorem names_inj {k k' : LogKind} {above above' : List String}
    (h : above ++ "logs" :: k.names = above' ++ "logs" :: k'.names) : above = above' ∧ k = k' := by
  have hback : k.names.reverse ++ "logs" :: above.reverse = k'.names.reverse ++ "logs" :: above'.reverse := by
    simpa using congrArg List.reverse h
  cases k <;> cases k' <;> simp_all [names]

end LogKind

namespace Layout

variable {l l' : Layout} {k k' : LogKind}

def logPath (l : Layout) : LogKind → LogPath
  | .main => l.mainLogs.all
  | .errors => l.mainLogs.errors
  | .job name => l.jobLogFile name

/-- Where a log is. -/
def logFile (l : Layout) (k : LogKind) : Path := (l.logPath k).1.resolve

theorem logFile_of_plain (h : k.Plain) :
    l.logFile k = { root := "/", parts := l.root.resolve.parts ++ "logs" :: k.names } := by
  have hlogs : l.logs.resolve = l.root.resolve.child "logs" := Path.resolve_child _ (by decide)
  cases k with
  | main =>
    change (l.logs.child "keyfetch.log").resolve = _
    rw [Path.resolve_child _ (by decide), hlogs, Path.child, Path.child, List.append_assoc]
    rfl
  | errors =>
    change (l.logs.child "error.log").resolve = _
    rw [Path.resolve_child _ (by decide), hlogs, Path.child, Path.child, List.append_assoc]
    rfl
  | job name =>
    have hslash : '/' ∉ (name ++ ".log").toList := by
      rw [String.toList_append, List.mem_append]
      exact not_or.mpr ⟨h, by decide⟩
    have hlong (s : String) (hs : s.toList.length ≤ 2) : name ++ ".log" ≠ s := by
      rintro rfl
      rw [String.toList_append, List.length_append] at hs
      have hend : ".log".toList.length = 4 := rfl
      omega
    have hjoin : l.jobLog name = (l.logs.child "jobs").child (name ++ ".log") := by
      rw [jobLog, Path.ofText_of_notMem hslash ⟨hlong "" (by decide), hlong "." (by decide)⟩]
      rfl
    change (l.jobLog name).resolve.resolve = _
    rw [Path.resolve_resolve, hjoin, Path.resolve_child _ (hlong ".." (by decide)), Path.resolve_child _ (by decide),
      hlogs]
    simp only [Path.child, List.append_assoc]
    rfl

/-- Logs are the same only as the same log of one home directory. -/
theorem logFile_inj (h : k.Plain) (h' : k'.Plain) :
    l.logFile k = l'.logFile k' ↔ l.root.resolve = l'.root.resolve ∧ k = k' := by
  rw [logFile_of_plain h, logFile_of_plain h', Path.mk.injEq]
  constructor
  · rintro ⟨-, hparts⟩
    obtain ⟨hroot, hkind⟩ := LogKind.names_inj hparts
    exact ⟨congrArg (Path.mk "/") hroot, hkind⟩
  · rintro ⟨hroot, rfl⟩
    rw [hroot]
    exact ⟨rfl, rfl⟩

end Layout

/-! ## Files -/

namespace FileTree

variable {t t' u : FileTree} {p : Path} {content : ByteArray}

/-- What was a directory or a file still is one. -/
structure Grows (t t' : FileTree) : Prop where
  directory : ∀ q, t.isDirectory q = true → t'.isDirectory q = true
  file : ∀ q, t.isFile q = true → t'.isFile q = true

theorem Grows.refl (t : FileTree) : t.Grows t := ⟨fun _ h => h, fun _ h => h⟩

theorem Grows.trans (h : t.Grows t') (h' : t'.Grows u) : t.Grows u :=
  ⟨fun q hq => h'.directory q (h.directory q hq), fun q hq => h'.file q (h.file q hq)⟩

theorem MadeDirectories.grows (h : t.MadeDirectories t') : t.Grows t' :=
  ⟨fun _ => h.isDirectory, fun q hq => (h.isFile q).trans hq⟩

theorem Appended.grows (h : t.Appended p content t') : t.Grows t' := by
  refine ⟨fun q hq => (h.directory q).trans hq, fun q hq => ?_⟩
  by_cases hself : q = p.resolve
  · rw [hself]
    exact h.file
  · rw [isFile, h.other q hself]
    exact hq

/-- Whether a file is there that can be opened at its end. -/
structure Ready (t : FileTree) (p : Path) : Prop where
  opens : t.Opens p
  file : t.isFile p.resolve = true

theorem Ready.mono (h : t.Ready p) (hgrows : t.Grows t') : t'.Ready p := by
  have hfile := hgrows.file _ h.file
  have hdirectory : t'.isDirectory p.resolve = false := by
    unfold isFile at hfile
    unfold isDirectory
    split
    · rename_i hnode
      rw [hnode] at hfile
      cases hfile
    · rfl
  exact ⟨⟨locate_mono hgrows.directory h.opens.1, hdirectory⟩, hfile⟩

theorem Appended.ready (h : t.Appended p content t') (hopens : t.Opens p) : t'.Ready p :=
  ⟨hopens.congr h.directory, h.file⟩

end FileTree

namespace Home

variable {h : Home} {ps : List LogPath}

/-- The same home directory with other files. -/
def withFiles (h : Home) (files : FileTree) : Home :=
  { h with world := { h.world with storage := { h.world.storage with files } } }

theorem exec_changeFiles (f : FileTree → Except Failure FileTree) (h : Home) :
    (onWorld (World.changeFiles f)).exec h =
      match f h.files with
      | .ok files => (.ok (), h.withFiles files)
      | .error e => (.error e, h) := by
  have hfiles : h.files = h.world.files := rfl
  rw [onWorld, Action.exec_zoom, World.exec_changeFiles, hfiles]
  cases f h.world.files <;> rfl

theorem exec_openLog (p : Path) (h : Home) :
    (openLog p).exec h =
      match h.files.append p .empty with
      | .ok files => (.ok (), h.withFiles files)
      | .error e => (.error e, h) := exec_changeFiles (·.append p .empty) h

theorem run_writeLog (line : ByteArray) (p : LogPath) (h : Home) :
    ((writeLog line p).run h).2 =
      match h.files.append p line with
      | .ok files => h.withFiles files
      | .error _ => h := by
  have hrun : ((writeLog line p).run h).2 = ((onWorld (World.changeFiles (·.append p line))).exec h).2 := rfl
  rw [hrun, exec_changeFiles]
  cases h.files.append p line <;> rfl

theorem grows_writeLog (line : ByteArray) (p : LogPath) (h : Home) :
    h.files.Grows ((writeLog line p).run h).2.files ∧ ((writeLog line p).run h).2.journal = h.journal := by
  rw [run_writeLog]
  cases happend : h.files.append p line with
  | error e => exact ⟨.refl _, rfl⟩
  | ok files => exact ⟨(FileTree.append_eq_ok happend).2.grows, rfl⟩

theorem run_writeLogs_cons (line : ByteArray) (p : LogPath) (ps : List LogPath) (h : Home) :
    (((p :: ps).forM (writeLog line)).run h).2 =
      ((ps.forM (writeLog line)).run ((writeLog line p).run h).2).2 := by
  change ((writeLog line p >>= fun _ => ps.forM (writeLog line)).run h).2 = _
  rw [StateT.run_bind]
  rfl

theorem grows_writeLogs (line : ByteArray) (ps : List LogPath) (h : Home) :
    h.files.Grows ((ps.forM (writeLog line)).run h).2.files ∧
      ((ps.forM (writeLog line)).run h).2.journal = h.journal := by
  induction ps generalizing h with
  | nil => exact ⟨.refl _, rfl⟩
  | cons p rest ih =>
    obtain ⟨hfirst, hsame⟩ := grows_writeLog line p h
    obtain ⟨hrest, hrestSame⟩ := ih ((writeLog line p).run h).2
    rw [run_writeLogs_cons]
    exact ⟨hfirst.trans hrest, hrestSame.trans hsame⟩

theorem files_writeLogs (line : ByteArray) (hready : ∀ p ∈ ps, h.files.Ready p.1)
    (hnodup : (ps.map fun p => p.1.resolve).Nodup) :
    (∀ p ∈ ps, ((ps.forM (writeLog line)).run h).2.files.textAt p.1.resolve =
      h.files.textAt p.1.resolve ++ line) ∧
    ∀ q ∉ ps.map (fun p => p.1.resolve), ((ps.forM (writeLog line)).run h).2.files.get? q = h.files.get? q := by
  induction ps generalizing h with
  | nil => exact ⟨fun p hp => absurd hp List.not_mem_nil, fun _ _ => rfl⟩
  | cons p rest ih =>
    obtain ⟨hnew, hrest⟩ := List.nodup_cons.mp hnodup
    have hopens := (hready p List.mem_cons_self).opens
    have happended := FileTree.appended_of_opens hopens line
    have hfirst : ((writeLog line p).run h).2 =
        h.withFiles (h.files.put p.1.resolve (h.files.appended p.1.resolve line)) := by
      rw [run_writeLog, FileTree.append_of_opens hopens]
    rw [run_writeLogs_cons, hfirst]
    generalize h.files.put p.1.resolve (h.files.appended p.1.resolve line) = files at happended
    have hfiles : (h.withFiles files).files = files := rfl
    obtain ⟨hwritten, hkept⟩ := ih (h := h.withFiles files)
      (fun p' hp' => (hready p' (List.mem_cons_of_mem p hp')).mono happended.grows) hrest
    rw [hfiles] at hwritten hkept
    refine ⟨fun p' hp' => ?_, fun q hq => ?_⟩
    · rcases List.mem_cons.mp hp' with rfl | hp'
      · rw [FileTree.textAt, hkept _ hnew]
        exact happended.text_self
      · have hne : p'.1.resolve ≠ p.1.resolve := fun heq => hnew (List.mem_map.mpr ⟨p', hp', heq⟩)
        rw [hwritten p' hp', FileTree.textAt, happended.other _ hne]
        rfl
    · rw [List.map_cons, List.mem_cons, not_or] at hq
      rw [hkept q hq.2, happended.other q hq.1]

end Home

/-! ## Loggers -/

namespace Log.Logger

theorem jobName_injective : Function.Injective jobName := fun _ _ h => (String.append_right_inj _).mp h

theorem exists_of_mem_above {isThere : List Char → Bool} {beside : Bool} {cs other : List Char}
    (h : other ∈ above isThere beside cs) : ∃ more, cs = more ++ '.' :: other := by
  induction cs generalizing beside with
  | nil => cases h
  | cons c rest ih =>
    have hrest {beside : Bool} (h : other ∈ above isThere beside rest) : ∃ more, c :: rest = more ++ '.' :: other := by
      obtain ⟨more, rfl⟩ := ih h
      exact ⟨c :: more, rfl⟩
    rw [above] at h
    split at h
    · rename_i hdot
      have hc : c = '.' := of_decide_eq_true (Bool.and_eq_true _ _ ▸ hdot).1
      split at h
      · rcases List.mem_cons.mp h with rfl | h
        · exact ⟨[], by rw [hc]; rfl⟩
        · exact hrest h
      · exact hrest h
    · exact hrest h

/-- Where no dots stand beside each other, every logger is above those whose names go on after its own and a dot. -/
theorem mem_above {isThere : List Char → Bool} {beside : Bool} {more other : List Char} (hthere : isThere other = true)
    (hspaced : ¬ ['.', '.'] <:+: more ++ ['.']) (hbeside : beside = true → (more ++ ['.']).head? ≠ some '.') :
    other ∈ above isThere beside (more ++ '.' :: other) := by
  induction more generalizing beside with
  | nil =>
    obtain rfl : beside = false := Bool.eq_false_iff.mpr fun h => hbeside h rfl
    rw [List.nil_append, above, if_pos (by decide), if_pos hthere]
    exact List.mem_cons_self
  | cons c more ih =>
    have hrest : ¬ ['.', '.'] <:+: more ++ ['.'] := fun h => hspaced (h.trans (List.suffix_cons c _).isInfix)
    rw [List.cons_append, above]
    split
    · rename_i hdot
      have hc : c = '.' := of_decide_eq_true (Bool.and_eq_true _ _ ▸ hdot).1
      split
      · exact List.mem_cons_of_mem _ (ih hrest nofun)
      · refine ih hrest fun _ hhead => hspaced ?_
        obtain ⟨tail, htail⟩ := List.head?_eq_some_iff.mp hhead
        rw [List.cons_append, htail, hc]
        exact (List.prefix_append ['.', '.'] tail).isInfix
    · exact ih hrest nofun

variable {made : List String} {job other : String}

theorem takes_jobName_iff : takes made (jobName other) (jobName job) = true ↔
    other = job ∨ (jobName other).toList.reverse ∈
      above (fun cs => made.any fun s => s.toList.reverse = cs) false (jobName job).toList.reverse := by
  have hname : jobName job = jobName other ↔ other = job :=
    ⟨fun h => (jobName_injective h).symm, fun h => h ▸ rfl⟩
  rw [takes, Bool.or_eq_true, decide_eq_true_iff, List.contains_iff_mem, hname]

theorem jobName_dot_prefix_iff :
    (jobName other ++ ".").toList <+: (jobName job).toList ↔ (other ++ ".").toList <+: job.toList := by
  simp only [jobName, String.append_assoc, String.toList_append, List.prefix_append_right_inj]

/-- The logger of another job takes events only of jobs whose names go on after its own name and a dot. -/
theorem prefix_of_takes (h : takes made (jobName other) (jobName job) = true) :
    other = job ∨ (other ++ ".").toList <+: job.toList := by
  refine (takes_jobName_iff.mp h).imp_right fun habove => ?_
  obtain ⟨more, hmore⟩ := exists_of_mem_above habove
  refine jobName_dot_prefix_iff.mp ⟨more.reverse, ?_⟩
  have hback := congrArg List.reverse hmore
  rw [List.reverse_reverse] at hback
  rw [hback]
  simp

theorem takes_of_prefix (hmade : jobName other ∈ made) (hspaced : ¬ ['.', '.'] <:+: job.toList)
    (hbegins : (other ++ ".").toList <+: job.toList) : takes made (jobName other) (jobName job) = true := by
  obtain ⟨more, hmore⟩ := hbegins
  refine takes_jobName_iff.mpr (.inr ?_)
  have hname : (jobName job).toList.reverse = more.reverse ++ '.' :: (jobName other).toList.reverse := by
    rw [jobName, String.toList_append, ← hmore]
    simp [jobName]
  rw [hname]
  refine mem_above (List.any_eq_true.mpr ⟨_, hmade, decide_eq_true rfl⟩) (fun hdots => hspaced ?_) nofun
  have hafter : ['.', '.'] <:+: '.' :: more := by
    rw [← List.reverse_infix]
    simpa using hdots
  rw [← hmore]
  refine hafter.trans ⟨other.toList, [], ?_⟩
  simp

end Log.Logger

theorem Log.Entry.encodeUtf8_line_ne_empty (e : Log.Entry) (logger : Log.Logger) (now : Moment) :
    Text.encodeUtf8 (e.line logger now) ≠ .empty := by
  intro h
  have hsize := congrArg ByteArray.size h
  simp [Text.encodeUtf8, line] at hsize

/-! ## Open logs -/

/-- The logs of a home directory where some jobs have loggers. -/
def LogKind.opened (names : List String) : List LogKind := main :: errors :: names.map job

namespace Journal

variable {j : Journal} {files files' : FileTree} {l : Layout} {names : List String} {n : String}

/-- The logs of a home directory that are open, one for each job that was given a logger. -/
structure Attached (j : Journal) (files : FileTree) (l : Layout) (names : List String) : Prop where
  main : j.main = some l.mainLogs
  jobs : j.jobs = names.map fun n => (Log.Logger.jobName n, l.jobLogFile n)
  nodup : names.Nodup
  plain : ∀ n ∈ names, (LogKind.job n).Plain
  made : ∀ n ∈ names, Log.Logger.jobName n ∈ j.made
  ready : ∀ k ∈ LogKind.opened names, files.Ready (l.logPath k).1

/-- Before logging is set up nothing is open, and later the logs of one home directory are. -/
inductive Sound (j : Journal) (files : FileTree) : Prop
  | fresh : j = {} → Sound j files
  | attached {l : Layout} {names : List String} : j.Attached files l names → Sound j files

theorem attached_main (made : List String) (hmain : files.Ready l.mainLog) (herrors : files.Ready l.errorLog) :
    Attached { main := some l.mainLogs, made } files l [] := by
  refine ⟨rfl, rfl, List.nodup_nil, nofun, nofun, fun k hk => ?_⟩
  simp only [LogKind.opened, List.map_nil, List.mem_cons, List.not_mem_nil, or_false] at hk
  rcases hk with rfl | rfl
  · exact hmain
  · exact herrors

theorem Attached.mono (h : j.Attached files l names) (hgrows : files.Grows files') : j.Attached files' l names :=
  ⟨h.main, h.jobs, h.nodup, h.plain, h.made, fun k hk => (h.ready k hk).mono hgrows⟩

theorem Attached.closed (h : j.Attached files l names) : Attached { j with jobs := [] } files l [] := by
  refine ⟨h.main, rfl, List.nodup_nil, nofun, nofun, fun k hk => h.ready k ?_⟩
  rw [LogKind.opened, List.map_nil] at hk
  exact List.mem_of_mem_take (i := 2) hk

theorem Sound.mono (h : j.Sound files) (hgrows : files.Grows files') : j.Sound files' := by
  cases h with
  | fresh hj => exact .fresh hj
  | attached hattached => exact .attached (hattached.mono hgrows)

theorem Sound.closed (h : j.Sound files) : Sound { j with jobs := [] } files := by
  cases h with
  | fresh hj =>
    rw [hj]
    exact .fresh rfl
  | attached hattached => exact .attached hattached.closed

theorem Attached.contains_iff (h : j.Attached files l names) :
    Assoc.contains (Log.Logger.jobName n) j.jobs = true ↔ n ∈ names := by
  rw [Assoc.contains_iff, Assoc.isSome_get?_iff, h.jobs, List.map_map]
  exact List.mem_map_of_injective Log.Logger.jobName_injective

theorem Attached.attach (h : j.Attached files l names) (hplain : (LogKind.job n).Plain) (hnew : n ∉ names)
    (hgrows : files.Grows files') (hready : files'.Ready (l.jobLogFile n).1) :
    Attached { j with
      jobs := j.jobs ++ [(Log.Logger.jobName n, l.jobLogFile n)]
      made := Log.Logger.jobName n :: j.made } files' l (names ++ [n]) where
  main := h.main
  jobs := by rw [h.jobs, List.map_append, List.map_singleton]
  nodup := by
    rw [List.nodup_append]
    refine ⟨h.nodup, List.nodup_singleton n, fun a ha b hb hab => hnew ?_⟩
    rw [← List.mem_singleton.mp hb, ← hab]
    exact ha
  plain m hm := by
    rcases List.mem_append.mp hm with hm | hm
    · exact h.plain m hm
    · rw [List.mem_singleton.mp hm]
      exact hplain
  made m hm := by
    rcases List.mem_append.mp hm with hm | hm
    · exact List.mem_cons_of_mem _ (h.made m hm)
    · rw [List.mem_singleton.mp hm]
      exact List.mem_cons_self
  ready k hk := by
    rw [LogKind.opened, List.map_append, ← List.cons_append, ← List.cons_append] at hk
    rcases List.mem_append.mp hk with hk | hk
    · exact (h.ready k hk).mono hgrows
    · rw [List.mem_singleton.mp hk]
      exact hready

end Journal

namespace Home

variable {h h' : Home} {l : Layout} {names : List String} {job : String}

theorem exec_openLog_spec (p : Path) (h : Home) :
    ∃ r files, (openLog p).exec h = (r, h.withFiles files) ∧ h.files.Grows files ∧
      (r = .ok () → files.Ready p) := by
  rw [exec_openLog]
  cases happend : h.files.append p .empty with
  | error e => exact ⟨.error e, h.files, rfl, .refl _, fun hr => by cases hr⟩
  | ok files =>
    obtain ⟨hopens, happended⟩ := FileTree.append_eq_ok happend
    exact ⟨.ok (), files, rfl, happended.grows, fun _ => happended.ready hopens⟩

theorem exec_openLog_openLog (p q : Path) (h : Home) :
    ∃ r files, (do openLog p; openLog q : Action Home Unit).exec h = (r, h.withFiles files) ∧
      h.files.Grows files ∧ (r = .ok () → files.Ready p ∧ files.Ready q) := by
  obtain ⟨r, files, hp, hgrows, hready⟩ := exec_openLog_spec p h
  cases r with
  | error e =>
    rw [Action.exec_bind_error hp]
    exact ⟨.error e, files, rfl, hgrows, fun hr => by cases hr⟩
  | ok u =>
    obtain ⟨r', files', hq, hgrows', hready'⟩ := exec_openLog_spec q (h.withFiles files)
    rw [Action.exec_bind_ok hp, hq]
    exact ⟨r', files', rfl, hgrows.trans hgrows', fun hr => ⟨(hready rfl).mono hgrows', hready' hr⟩⟩

theorem layout_eq_of_logs {l' : Layout} (h : l.logs = l'.logs) : l = l' := by
  obtain ⟨root, parts⟩ := l
  obtain ⟨root', parts'⟩ := l'
  simpa [Layout.logs, Path.child] using h

theorem sound_openLogs {r : Except Failure Unit} (hsound : h.journal.Sound h.files)
    (hexec : openLogs.exec h = (r, h')) :
    h'.journal.Sound h'.files ∧ (r = .ok () → ∃ names, h'.journal.Attached h'.files h'.layout names) := by
  unfold openLogs at hexec
  rw [Action.exec_bind_ok (Action.exec_get h), Action.exec_bind_ok (Action.exec_get h)] at hexec
  split at hexec
  · have hmaking := exec_changeFiles (·.makeDirectories h.layout.jobLogs) h
    cases hmake : h.files.makeDirectories h.layout.jobLogs with
    | error e =>
      rw [hmake] at hmaking
      rw [Action.exec_bind_error hmaking] at hexec
      cases hexec
      exact ⟨hsound, fun hr => by cases hr⟩
    | ok made =>
      rw [hmake] at hmaking
      have hmade := (FileTree.makeDirectories_eq_ok hmake).grows
      obtain ⟨h₁, hclose, hlayout, hjournal, hfiles⟩ : ∃ h₁, closeJobLogs.exec (h.withFiles made) = (.ok (), h₁) ∧
          h₁.layout = h.layout ∧ h₁.journal = { h.journal with jobs := [] } ∧ h₁.files = made :=
        ⟨_, rfl, rfl, rfl, rfl⟩
      obtain ⟨r', files, hopen, hgrows, hready⟩ := exec_openLog_openLog h.layout.errorLog h.layout.mainLog h₁
      rw [Action.exec_bind_ok hmaking, Action.exec_bind_ok hclose, Action.exec_bind_ok (Action.exec_attempt _ _),
        hopen] at hexec
      rw [hfiles] at hgrows
      cases r' with
      | error e =>
        -- the main logs of the home directory before are still the ones that are open
        cases hexec
        refine ⟨?_, fun hr => by cases hr⟩
        have hbefore : Journal.Sound { h.journal with jobs := [] } files := hsound.closed.mono (hmade.trans hgrows)
        rw [← hjournal] at hbefore
        exact hbefore
      | ok u =>
        cases hexec
        obtain ⟨herrors, hmain⟩ := hready rfl
        rw [← hlayout] at herrors hmain ⊢
        have hattached := Journal.attached_main h₁.journal.made hmain herrors
        exact ⟨.attached hattached, fun _ => ⟨[], hattached⟩⟩
  · rename_i hopen
    rw [Action.exec_pure] at hexec
    cases hexec
    refine ⟨hsound, fun _ => ?_⟩
    rw [not_not] at hopen
    cases hsound with
    | fresh hj =>
      rw [hj] at hopen
      cases hopen
    | @attached l names hattached =>
      rw [hattached.main] at hopen
      have hsame : l = h.layout := layout_eq_of_logs (Option.some.inj hopen)
      rw [hsame] at hattached
      exact ⟨names, hattached⟩

/-- A job that was given a logger has its log open. -/
theorem sound_jobLogger {r : Except Failure Log.Logger} (hsound : h.journal.Sound h.files)
    (hplain : (LogKind.job job).Plain) (hexec : (jobLogger job).exec h = (r, h')) :
    h'.journal.Sound h'.files ∧ ∀ logger, r = .ok logger → logger = .job job ∧
      ∃ names, h'.journal.Attached h'.files h'.layout names ∧ job ∈ names := by
  unfold jobLogger at hexec
  rcases hopen : openLogs.exec h with ⟨r', h₁⟩
  obtain ⟨hsound₁, hattached⟩ := sound_openLogs hsound hopen
  cases r' with
  | error e =>
    rw [Action.exec_bind_error hopen] at hexec
    cases hexec
    exact ⟨hsound₁, fun logger hr => by cases hr⟩
  | ok u =>
    obtain ⟨names, hattached⟩ := hattached rfl
    rw [Action.exec_bind_ok hopen, Action.exec_bind_ok (Action.exec_get h₁)] at hexec
    split at hexec
    · rename_i hnew
      rw [Bool.not_eq_true', ← Bool.not_eq_true] at hnew
      have hnotMem : job ∉ names := fun hmem => hnew (hattached.contains_iff.mpr hmem)
      obtain ⟨r', files, hfile, hgrows, hready⟩ := exec_openLog_spec (h₁.layout.jobLogFile job).1 h₁
      dsimp only at hexec
      rw [Action.exec_bind_ok (Action.exec_get h₁), Action.exec_bind_ok (Action.exec_attempt _ _), hfile] at hexec
      cases r' with
      | error e =>
        cases hexec
        exact ⟨hsound₁.mono hgrows, fun logger hr => by cases hr⟩
      | ok u' =>
        cases hexec
        have hmore := hattached.attach hplain hnotMem hgrows (hready rfl)
        exact ⟨.attached hmore, fun logger hr =>
          ⟨(Except.ok.inj hr).symm, names ++ [job], hmore, List.mem_append_right _ List.mem_cons_self⟩⟩
    · rename_i hknown
      rw [Action.exec_pure] at hexec
      cases hexec
      rw [Bool.not_eq_true', Bool.not_eq_false] at hknown
      have hmem := hattached.contains_iff.mp hknown
      exact ⟨hsound₁, fun logger hr => ⟨(Except.ok.inj hr).symm, names, hattached, hmem⟩⟩

end Home

/-! ## Commands -/

/-- What can be done with the logs of a process. -/
inductive LogCommand
  | configure
  | jobLogger (job : String)
  | log (logger : Log.Logger) (e : Log.Entry)
  | closeJobLogs
  | changeHome (root : Path)

namespace LogCommand

def perform : LogCommand → Action Home Unit
  | configure => Home.openLogs
  | jobLogger job => discard (Home.jobLogger job)
  | log logger e => (Home.log logger e : StateM Home Unit)
  | closeJobLogs => Home.closeJobLogs
  | changeHome root => modify fun h => { h with layout := ⟨root⟩ }

/-- The names of jobs hold no slashes. -/
def Plain : LogCommand → Prop
  | jobLogger job => (LogKind.job job).Plain
  | _ => True

end LogCommand

namespace Home

variable {h : Home} {commands : List LogCommand} {c : LogCommand}

/-- Performs commands one after the other; those that fail are passed over. -/
def performAll (commands : List LogCommand) : Action Home Unit :=
  commands.forM fun c => discard c.perform.attempt

theorem run_log (logger : Log.Logger) (e : Log.Entry) (h : Home) :
    ((log logger e).run h).2 = (((logsOf h.journal logger e.level).forM
      (writeLog (Text.encodeUtf8 (e.line logger h.now)))).run h).2 := by
  unfold log
  rw [StateT.run_bind]
  rfl

theorem sound_perform (hsound : h.journal.Sound h.files) (hplain : c.Plain) :
    (c.perform.exec h).2.journal.Sound (c.perform.exec h).2.files := by
  cases c with
  | configure => exact (sound_openLogs hsound (Prod.ext rfl rfl)).1
  | jobLogger job =>
    rw [LogCommand.perform, Action.exec_discard]
    exact (sound_jobLogger hsound hplain (Prod.ext rfl rfl)).1
  | log logger e =>
    obtain ⟨hgrows, hsame⟩ := grows_writeLogs (Text.encodeUtf8 (e.line logger h.now))
      (logsOf h.journal logger e.level) h
    have hlog : ((LogCommand.log logger e).perform.exec h).2 = ((log logger e).run h).2 := rfl
    rw [hlog, run_log, hsame]
    exact hsound.mono hgrows
  | closeJobLogs => exact hsound.closed
  | changeHome root => exact hsound

theorem sound_performAll (hsound : h.journal.Sound h.files) (hplain : ∀ c ∈ commands, c.Plain) :
    ((performAll commands).exec h).2.journal.Sound ((performAll commands).exec h).2.files := by
  induction commands generalizing h with
  | nil => exact hsound
  | cons c rest ih =>
    rw [performAll, Action.exec_attempts_cons]
    exact ih (sound_perform hsound (hplain c List.mem_cons_self)) fun c' hc' =>
      hplain c' (List.mem_cons_of_mem c hc')

end Home

/-! ## Events -/

/-- The logs that an event of a job goes to, among those of jobs with loggers. -/
def LogKind.taking (made names : List String) (job : String) (level : Log.Level) : List LogKind :=
  (names.filter fun other => Log.Logger.takes made (Log.Logger.jobName other) (Log.Logger.jobName job)).map
    LogKind.job ++ main :: if level.rank < Log.Level.error.rank then [] else [errors]

theorem LogKind.taking_subset (made names : List String) (job : String) (level : Log.Level) :
    taking made names job level ⊆ opened names := by
  intro k hk
  rcases List.mem_append.mp hk with hk | hk
  · obtain ⟨m, hm, rfl⟩ := List.mem_map.mp hk
    exact List.mem_cons_of_mem _ (List.mem_cons_of_mem _ (List.mem_map_of_mem (List.mem_of_mem_filter hm)))
  · rcases List.mem_cons.mp hk with rfl | hk
    · exact List.mem_cons_self
    · split at hk
      · cases hk
      · rw [List.mem_singleton.mp hk]
        exact List.mem_cons_of_mem _ List.mem_cons_self

namespace Journal.Attached

variable {j : Journal} {files : FileTree} {l : Layout} {names : List String} {n : String} {level : Log.Level}

theorem logsOf_eq (h : j.Attached files l names) (hlevel : Log.Level.info.rank ≤ level.rank) (n : String) :
    Home.logsOf j (.job n) level = (LogKind.taking j.made names n level).map l.logPath := by
  unfold Home.logsOf LogKind.taking
  rw [if_neg (not_lt.mpr hlevel), h.jobs, h.main, List.filter_map, List.map_map, List.map_append, List.map_map,
    List.map_cons]
  by_cases herror : level.rank < Log.Level.error.rank
  · simp only [if_pos herror]
    rfl
  · simp only [if_neg herror]
    rfl

theorem nodup_taking (h : j.Attached files l names) (n : String) (level : Log.Level) :
    (LogKind.taking j.made names n level).Nodup := by
  refine List.nodup_append.mpr ⟨(h.nodup.filter _).map fun _ _ => LogKind.job.inj, ?_, ?_⟩
  · split <;> simp
  · intro k hk k' hk' heq
    obtain ⟨m, -, rfl⟩ := List.mem_map.mp hk
    rw [← heq] at hk'
    split at hk' <;> simp at hk'

theorem plain_of_mem (h : j.Attached files l names) {k : LogKind} (hk : k ∈ LogKind.opened names) : k.Plain := by
  rcases List.mem_cons.mp hk with rfl | hk
  · trivial
  rcases List.mem_cons.mp hk with rfl | hk
  · trivial
  · obtain ⟨m, hm, rfl⟩ := List.mem_map.mp hk
    exact h.plain m hm

end Journal.Attached

namespace Home

variable {h : Home} {l : Layout} {names : List String} {job : String} {commands : List LogCommand} {e : Log.Entry}
  {level : Log.Level} {k : LogKind}

/-- Whether a log takes an event of a job. The main log takes all of them, the log of errors those from the level
of an error on, and the log of another job that is open those of the loggers below its own. -/
def Takes (h : Home) (job : String) (level : Log.Level) : LogKind → Prop
  | .main => True
  | .errors => Log.Level.error.rank ≤ level.rank
  | .job other => other = job ∨ Assoc.contains (Log.Logger.jobName other) h.journal.jobs = true ∧
      Log.Logger.takes h.journal.made (Log.Logger.jobName other) (Log.Logger.jobName job) = true

/-- Whether the name of a job goes on after the name of another one, whose log is open, and a dot. -/
def Extends (h : Home) (job other : String) : Prop :=
  Assoc.contains (Log.Logger.jobName other) h.journal.jobs = true ∧ (other ++ ".").toList <+: job.toList

theorem Takes.eq_or_extends {other : String} (htakes : h.Takes job level (.job other)) :
    other = job ∨ h.Extends job other := by
  rcases htakes with rfl | ⟨hopen, htakes⟩
  · exact .inl rfl
  · exact (Log.Logger.prefix_of_takes htakes).imp_right fun hprefix => ⟨hopen, hprefix⟩

theorem Extends.takes {other : String} (hattached : h.journal.Attached h.files l names) (hextends : h.Extends job other)
    (hspaced : ¬ ['.', '.'] <:+: job.toList) : h.Takes job level (.job other) := by
  obtain ⟨hopen, hprefix⟩ := hextends
  have hmade := hattached.made other (hattached.contains_iff.mp hopen)
  exact .inr ⟨hopen, Log.Logger.takes_of_prefix hmade hspaced hprefix⟩

theorem mem_taking_iff (hattached : h.journal.Attached h.files l names) (hjob : job ∈ names) :
    k ∈ LogKind.taking h.journal.made names job level ↔ h.Takes job level k := by
  unfold LogKind.taking
  cases k with
  | main => simp [Takes]
  | errors => simp [Takes]
  | job other =>
    unfold Takes
    dsimp only
    have hother : LogKind.job other ∈ (if level.rank < Log.Level.error.rank then [] else [LogKind.errors]) ↔
        False := by
      split <;> simp
    rw [List.mem_append, List.mem_cons, hother, List.mem_map_of_injective fun _ _ => LogKind.job.inj,
      List.mem_filter, hattached.contains_iff]
    constructor
    · rintro (⟨hmem, htakes⟩ | hmain | hfalse)
      · exact .inr ⟨hmem, htakes⟩
      · cases hmain
      · exact hfalse.elim
    · rintro (rfl | ⟨hmem, htakes⟩)
      · exact .inl ⟨hjob, Log.Logger.takes_jobName_iff.mpr (.inl rfl)⟩
      · exact .inl ⟨hmem, htakes⟩

/-- An event of a job whose log is open. -/
theorem files_log (hattached : h.journal.Attached h.files h.layout names) (hjob : job ∈ names)
    (hlevel : Log.Level.info.rank ≤ e.level.rank) :
    (∀ k, h.Takes job e.level k → ((log (.job job) e).run h).2.files.textAt (h.layout.logFile k) =
      h.files.textAt (h.layout.logFile k) ++ Text.encodeUtf8 (e.line (.job job) h.now)) ∧
    ∀ q, (∀ k, h.Takes job e.level k → q ≠ h.layout.logFile k) →
      ((log (.job job) e).run h).2.files.get? q = h.files.get? q := by
  have hopened {k : LogKind} (hk : k ∈ LogKind.taking h.journal.made names job e.level) : k ∈ LogKind.opened names :=
    LogKind.taking_subset _ names job e.level hk
  have hready : ∀ p ∈ (LogKind.taking h.journal.made names job e.level).map h.layout.logPath, h.files.Ready p.1 := by
    intro p hp
    obtain ⟨k, hk, rfl⟩ := List.mem_map.mp hp
    exact hattached.ready k (hopened hk)
  have hplaces : ((LogKind.taking h.journal.made names job e.level).map h.layout.logPath).map (fun p => p.1.resolve) =
      (LogKind.taking h.journal.made names job e.level).map h.layout.logFile := List.map_map
  have hnodup : (((LogKind.taking h.journal.made names job e.level).map h.layout.logPath).map fun p => p.1.resolve).Nodup := by
    rw [hplaces]
    refine (hattached.nodup_taking job e.level).map_on fun k hk k' hk' heq => ?_
    exact ((Layout.logFile_inj (hattached.plain_of_mem (hopened hk)) (hattached.plain_of_mem (hopened hk'))).mp heq).2
  obtain ⟨hwritten, hkept⟩ := files_writeLogs (Text.encodeUtf8 (e.line (.job job) h.now)) hready hnodup
  rw [hplaces] at hkept
  rw [run_log, hattached.logsOf_eq hlevel]
  refine ⟨fun k hk => hwritten _ (List.mem_map_of_mem ((mem_taking_iff hattached hjob).mpr hk)), fun q hq => ?_⟩
  refine hkept q fun hmem => ?_
  obtain ⟨k, hk, rfl⟩ := List.mem_map.mp hmem
  exact hq k ((mem_taking_iff hattached hjob).mp hk) rfl

/-- Whatever was done with the logs before, in whatever home directories: an event that is logged with the logger
that a job was just given goes once to every log of the home directory that takes it, and changes nothing else.
So it goes once to the log of the job and once to the main log, and to no log of another home directory. The log of
another job takes it only if the name of this job goes on after the other one's and a dot, and then it does, unless
dots stand beside each other. -/
theorem log_of_jobLogger {h₀ : Home} {logger : Log.Logger} (hfresh : h₀.journal = {})
    (hcommands : ∀ c ∈ commands, c.Plain) (hjob : (LogKind.job job).Plain)
    (hlogger : (jobLogger job).exec ((performAll commands).exec h₀).2 = (.ok logger, h))
    (hlevel : Log.Level.info.rank ≤ e.level.rank) :
    (∀ k, h.Takes job e.level k → ((log logger e).run h).2.files.textAt (h.layout.logFile k) =
      h.files.textAt (h.layout.logFile k) ++ Text.encodeUtf8 (e.line logger h.now)) ∧
    (∀ (l : Layout) (k : LogKind), k.Plain → l.root.resolve ≠ h.layout.root.resolve ∨ ¬ h.Takes job e.level k →
      ((log logger e).run h).2.files.textAt (l.logFile k) = h.files.textAt (l.logFile k)) ∧
    (∀ q, (∀ k, h.Takes job e.level k → q ≠ h.layout.logFile k) →
      ((log logger e).run h).2.files.get? q = h.files.get? q) ∧
    (∀ other, h.Takes job e.level (.job other) → other = job ∨ h.Extends job other) ∧
    (¬ ['.', '.'] <:+: job.toList → ∀ other, h.Extends job other → h.Takes job e.level (.job other)) := by
  obtain ⟨-, hattached⟩ := sound_jobLogger (sound_performAll (.fresh hfresh) hcommands) hjob hlogger
  obtain ⟨rfl, names, hattached, hmem⟩ := hattached logger rfl
  obtain ⟨hwritten, hkept⟩ := files_log hattached hmem hlevel
  refine ⟨hwritten, fun l k hk hnot => ?_, hkept, fun other => Takes.eq_or_extends,
    fun hspaced other hextends => hextends.takes hattached hspaced⟩
  have hsame : ((log (.job job) e).run h).2.files.get? (l.logFile k) = h.files.get? (l.logFile k) := by
    refine hkept _ fun k' hk' heq => ?_
    have htaking := (mem_taking_iff hattached hmem).mpr hk'
    have hplain := hattached.plain_of_mem (LogKind.taking_subset _ names job e.level htaking)
    obtain ⟨hroot, rfl⟩ := (Layout.logFile_inj hk hplain).mp heq
    exact hnot.elim (fun hne => hne hroot) fun hnot => hnot hk'
  rw [FileTree.textAt, hsame]
  rfl

/-- A home directory in which nothing was logged. -/
def freshHome : Home where
  layout := ⟨⟨"/", ["one"]⟩⟩
  now := ⟨⟨2024, 1, 2⟩, ⟨3, 4, 5, 0⟩, some 0⟩
  uuid _ := ""

/-- A job that had a logger in one home directory is given one in another. -/
theorem log_of_jobLogger_moved :
    let commands : List LogCommand := [.jobLogger "a", .log (.job "a") ⟨.info, "started", []⟩,
      .changeHome ⟨"/", ["two"]⟩, .jobLogger "b", .closeJobLogs]
    let e : Log.Entry := ⟨.error, "failed", []⟩
    ∃ logger h, (jobLogger "a").exec ((performAll commands).exec freshHome).2 = (.ok logger, h) ∧
      h.layout = ⟨⟨"/", ["two"]⟩⟩ ∧
      (∀ k ∈ [LogKind.main, .errors, .job "a"], ((log logger e).run h).2.files.textAt (h.layout.logFile k) =
        h.files.textAt (h.layout.logFile k) ++ Text.encodeUtf8 (e.line logger h.now)) ∧
      ∀ k ∈ [LogKind.main, .errors, .job "a"], ((log logger e).run h).2.files.textAt (freshHome.layout.logFile k) =
        h.files.textAt (freshHome.layout.logFile k) := by
  intro commands e
  have hreturns : ((jobLogger "a").exec ((performAll commands).exec freshHome).2).1.toOption.any
      (fun _ => true) = true := by decide +kernel
  obtain ⟨logger, h, hlogger, -⟩ := Action.exec_eq_ok_of_any hreturns
  have hlayout : h.layout = ⟨⟨"/", ["two"]⟩⟩ := by
    rw [((moves_jobLogger "a").of_exec hlogger).layout]
    decide +kernel
  have hplain : ∀ k ∈ [LogKind.main, .errors, .job "a"], k.Plain := by
    simp [LogKind.Plain]
  obtain ⟨hwritten, hkept, -⟩ := log_of_jobLogger (e := e) rfl (by simp [commands, LogCommand.Plain, LogKind.Plain])
    (hplain (.job "a") (by simp)) hlogger (by decide)
  refine ⟨logger, h, hlogger, hlayout, fun k hk => hwritten k ?_, fun k hk => ?_⟩
  · simp only [List.mem_cons, List.not_mem_nil, or_false] at hk
    rcases hk with rfl | rfl | rfl
    · trivial
    · exact Nat.le_refl _
    · exact .inl rfl
  · refine hkept freshHome.layout k (hplain k hk) (.inl ?_)
    rw [hlayout]
    decide +kernel

/-- The log of a job gets the events of another one whose name goes on after a dot. -/
theorem log_of_other_job :
    let e : Log.Entry := ⟨.info, "y", []⟩
    let h := ((jobLogger "a.b").exec ((performAll [.jobLogger "a"]).exec freshHome).2).2
    h.files.textAt (h.layout.logFile (.job "a")) = .empty ∧
      ((log (.job "a.b") e).run h).2.files.textAt (h.layout.logFile (.job "a")) =
        Text.encodeUtf8 (e.line (.job "a.b") h.now) ∧
      Text.encodeUtf8 (e.line (.job "a.b") h.now) ≠ .empty := by
  intro e h
  have hplain : ∀ c ∈ [LogCommand.jobLogger "a"], c.Plain := by simp [LogCommand.Plain, LogKind.Plain]
  have hreturns : ((jobLogger "a.b").exec ((performAll [.jobLogger "a"]).exec freshHome).2).1.toOption.any
      (fun _ => true) = true := by decide +kernel
  obtain ⟨logger, h', hlogger, -⟩ := Action.exec_eq_ok_of_any hreturns
  have hsame : h' = h := (congrArg Prod.snd hlogger).symm
  rw [hsame] at hlogger
  obtain ⟨-, hattached⟩ := sound_jobLogger (sound_performAll (.fresh rfl) hplain) (by simp [LogKind.Plain]) hlogger
  obtain ⟨-, names, hattached, hmem⟩ := hattached logger rfl
  have hopen : Assoc.contains (Log.Logger.jobName "a") h.journal.jobs = true := by decide +kernel
  have hempty : h.files.textAt (h.layout.logFile (.job "a")) = .empty := by decide +kernel
  have hbelow : Log.Logger.takes h.journal.made (Log.Logger.jobName "a") (Log.Logger.jobName "a.b") = true := by
    decide +kernel
  have hwritten := (files_log (e := e) hattached hmem (Nat.le_refl _)).1 (.job "a") (.inr ⟨hopen, hbelow⟩)
  rw [hempty, ByteArray.empty_append] at hwritten
  exact ⟨hempty, hwritten, e.encodeUtf8_line_ne_empty (.job "a.b") h.now⟩

end Home

end DocFetch

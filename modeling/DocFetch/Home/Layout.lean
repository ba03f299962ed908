import DocFetch.Files.Path

/-! # Where a home directory keeps things

Configurations and outputs lie below `data`, logs below `logs`.
-/

namespace DocFetch

structure Layout where
  root : Path
deriving DecidableEq, Repr

namespace Layout

def data (l : Layout) : Path := l.root.child "data"

def jobs (l : Layout) : Path := l.data.child "jobs"

def outputs (l : Layout) : Path := l.data.child "outputs"

def logs (l : Layout) : Path := l.root.child "logs"

def globalConfig (l : Layout) : Path := l.data.child "global_config.yaml"

def mainLog (l : Layout) : Path := l.logs.child "keyfetch.log"

def errorLog (l : Layout) : Path := l.logs.child "error.log"

def jobLogs (l : Layout) : Path := l.logs.child "jobs"

/-- The log of a job, whose name may hold slashes. -/
def jobLog (l : Layout) (job : String) : Path := l.jobLogs.join (.ofText (job ++ ".log"))

/-- A path of a configuration below the home directory. -/
def resolve (l : Layout) (p : Path) : Path := l.root.anchored p

end Layout

/-! ## Logs -/

/-- Whether a path names a log. -/
def Path.isLog (p : Path) : Bool := ".log".toList.isSuffixOf p.name.toList

abbrev LogPath := { p : Path // p.isLog = true }

/-- The logs of a home directory that take the entries of all jobs. -/
structure MainLogs where
  directory : Path
  all : LogPath
  errors : LogPath

theorem Path.isLog_child {p : Path} {name : String} (h : ".log".toList <:+ name.toList) :
    (p.child name).isLog = true := by
  simpa [isLog, Path.name, child] using h

namespace Layout

def mainLogs (l : Layout) : MainLogs where
  directory := l.logs
  all := ⟨l.mainLog, Path.isLog_child ⟨"keyfetch".toList, rfl⟩⟩
  errors := ⟨l.errorLog, Path.isLog_child ⟨"error".toList, rfl⟩⟩

theorem isLog_resolve_jobLog (l : Layout) (job : String) : (l.jobLog job).resolve.isLog = true := by
  obtain ⟨init, last, h⟩ := Path.exists_parts_ofText job (e := ".log".toList) (by decide) (by decide)
  have hparts : ∃ above, (l.jobLog job).parts = above ++ [String.ofList (last ++ ".log".toList)] := by
    unfold jobLog Path.join
    split
    · exact ⟨init, h⟩
    · exact ⟨l.jobLogs.parts ++ init, by rw [List.append_assoc, ← h]; rfl⟩
  obtain ⟨above, hparts⟩ := hparts
  have hdots : String.ofList (last ++ ".log".toList) ≠ ".." := by
    intro h
    have := congrArg (fun s => s.toList.length) h
    simp at this
  have hname : (l.jobLog job).resolve.name = String.ofList (last ++ ".log".toList) := by
    rw [Path.resolve, Path.name, hparts, Path.follow_append_singleton hdots]
    simp
  rw [Path.isLog, hname, List.isSuffixOf_iff_suffix, String.toList_ofList (l := last ++ ".log".toList)]
  exact List.suffix_append last ".log".toList

/-- The log of a job as it is opened. -/
def jobLogFile (l : Layout) (job : String) : LogPath := ⟨(l.jobLog job).resolve, l.isLog_resolve_jobLog job⟩

end Layout

end DocFetch

import DocFetch.Proofs.Files.Directories
import DocFetch.Proofs.World.Actions

/-! # Databases opened again

A database that was opened once can be opened again whenever its connection was closed, with the same tables.
Working on it is then the same as working on it while it is connected.
-/

namespace DocFetch

namespace FileTree

variable {t t' : FileTree} {file : Path}

/-- Whether the database in a file can be opened, and holds the tables that every connection prepares. -/
structure Reopens (t : FileTree) (file : Path) : Prop where
  directories : t.makeDirectories file.parent = .ok t
  place : t.locate file = .ok file
  schema : t.HasSchema file

namespace Reopens

theorem mono (h : t.Reopens file) (hmono : ∀ q, t.isDirectory q = true → t'.isDirectory q = true)
    (hschema : t'.HasSchema file) : t'.Reopens file :=
  ⟨makeDirectories_again h.directories hmono, locate_mono hmono h.place, hschema⟩

theorem changes {scope : Set Resource} (h : t.Reopens file) (hchanges : t.Changes scope t')
    (hscope : .directories ∉ scope) : t'.Reopens file :=
  h.mono (fun q hq => by rwa [hchanges.directories hscope]) (hchanges.schema file h.schema)

end Reopens

end FileTree

namespace Storage

variable {s s' : Storage} {path file : Path}

theorem reopens_of_prepare (hfile : file.resolve = file) (h : (prepare file).exec s = (.ok (), s')) :
    s'.files.Reopens file := by
  have hschema := (prepare_eq_ok h).1
  unfold prepare at h
  obtain ⟨_, _, hget, h⟩ := Action.exec_bind_eq_ok h
  cases hget
  obtain ⟨made, hmade, h⟩ := Action.exec_ofExcept_bind_eq_ok h
  obtain ⟨_, _, hset, h⟩ := Action.exec_bind_eq_ok h
  cases hset
  obtain ⟨⟨place, opened⟩, hopened, h⟩ := Action.exec_ofExcept_bind_eq_ok h
  obtain ⟨_, _, hset, h⟩ := Action.exec_bind_eq_ok h
  cases hset
  obtain ⟨d, hd, h⟩ := Action.exec_ofExcept_bind_eq_ok h
  obtain ⟨_, -, h⟩ := Action.exec_ofExcept_bind_eq_ok h
  cases h
  have hmono (q : Path) (hq : made.isDirectory q = true) :
      (opened.putDatabase file d.withSchema).isDirectory q = true := by
    rw [(FileTree.putDatabase_spec (FileTree.database_eq_ok hd).1 d.withSchema).directory,
      (FileTree.openDatabase_eq_ok hopened).directory, hq]
  have hplace : made.locate file = .ok file := by
    unfold FileTree.openDatabase at hopened
    split at hopened
    · cases hopened
    · cases hopened
    · rename_i q hq
      rw [hq, FileTree.locate_eq_ok hq, hfile]
  exact ⟨FileTree.makeDirectories_again hmade hmono, FileTree.locate_mono hmono hplace, hschema⟩

theorem prepare_of_reopens (h : s.files.Reopens file) :
    ∃ s', (prepare file).exec s = (.ok (), s') ∧ s.Changes ∅ s' ∧ s'.connections = s.connections := by
  obtain ⟨d, hd, hschema⟩ := h.schema
  have hopened : s.files.openDatabase file = .ok (file, s.files) := by
    unfold FileTree.databaseAt at hd
    unfold FileTree.openDatabase
    rw [h.place]
    split at hd
    · rename_i hnode
      dsimp only
      rw [hnode]
    · cases hd
  have hdatabase := FileTree.database_of_databaseAt hd
  refine ⟨{ s with files := s.files.putDatabase file d.withSchema }, ?_, ?_, rfl⟩
  · unfold prepare
    rw [Action.exec_bind_ok (Action.exec_get s), h.directories,
      Action.exec_bind_ok (Action.exec_ofExcept _ s), Action.exec_bind_ok (Action.exec_set s _), hopened,
      Action.exec_bind_ok (Action.exec_ofExcept _ _)]
    dsimp only
    rw [Action.exec_bind_ok (Action.exec_set _ _), hdatabase, Action.exec_bind_ok (Action.exec_ofExcept _ _),
      Transaction.unlessHeld, if_neg fun hheld => hheld.1 hschema]
    rfl
  · exact .of_files (.of_putDatabase hdatabase (.withSchema file d))

theorem connect_of_reopens (h : s.files.Reopens path.resolve) :
    ∃ n s', (connect path).exec s = (.ok n, s') ∧ s.Changes ∅ s' ∧ s'.Connected path := by
  by_cases hhas : s.connections.Has path.resolve
  · obtain ⟨n, hconnect⟩ := exec_connect_of_has hhas
    exact ⟨n, s, hconnect, .refl ∅ s, hhas, h.schema⟩
  · obtain ⟨t, hprepare, hchanges, hsame⟩ := prepare_of_reopens h
    have hschema := hchanges.files.schema _ h.schema
    refine ⟨s.connections.opened, { t with connections := t.connections.withNew path.resolve }, ?_,
      hchanges.trans (.withNew hschema ∅), t.connections.has_withNew_self path.resolve, hschema⟩
    rw [exec_connect_of_not_has hhas, Action.exec_bind_ok hprepare, hsame]
    rfl

theorem reopens_of_connect {files : FileTree} {n : Nat} (h : (connect path).exec { files } = (.ok n, s)) :
    s.files.Reopens path.resolve := by
  have hempty : ¬ ({ files } : Storage).connections.Has path.resolve := fun hhas => by cases hhas.1
  rw [exec_connect_of_not_has hempty] at h
  obtain ⟨_, u, hprepare, h⟩ := Action.exec_bind_eq_ok h
  have hreopens : u.files.Reopens path.resolve := reopens_of_prepare (Path.resolve_resolve path) hprepare
  cases h
  exact hreopens

/-- Working on a database that can be opened is working on it once it is connected. -/
theorem transact_of_reopens (h : s.files.Reopens path.resolve) :
    ∃ s', s.Changes ∅ s' ∧ s'.Connected path ∧
      ∀ {α : Type} (work : Action Transaction α), (transact path work).exec s = (transact path work).exec s' := by
  obtain ⟨n, s', hconnect, hchanges, hconnected⟩ := connect_of_reopens h
  obtain ⟨m, hagain⟩ := exec_connect_of_has hconnected.1
  refine ⟨s', hchanges, hconnected, fun {α} work => ?_⟩
  have hfirst : (discard (connect path)).exec s = (.ok (), s') := by
    rw [Action.exec_discard, hconnect]
    rfl
  have hsecond : (discard (connect path)).exec s' = (.ok (), s') := by
    rw [Action.exec_discard, hagain]
    rfl
  unfold transact
  rw [Action.exec_bind_ok hfirst, Action.exec_bind_ok hsecond]

end Storage

end DocFetch

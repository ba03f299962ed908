import DocFetch.Proofs.World.Changes

/-! # Transactions

What is written and cannot be committed stays in the database as its connection sees it, and the rest of the storage
knows what it was before.
-/

namespace DocFetch

variable {α : Type} {scope : Set Resource}

namespace Transaction

variable {f : Database → Except Failure (α × Database)} {t t' : Transaction} {a : α} {d : Database} {e : Failure}

theorem exec_read (g : Database → Except Failure α) (t : Transaction) : (read g).exec t = (g t.database, t) := rfl

/-- The transaction after a write that was not committed. -/
def withPending (t : Transaction) (d : Database) : Transaction :=
  { t with database := d, committed := some (t.committed.getD t.database) }

theorem exec_write_of_error (h : f t.database = .error e) : (write f).exec t = (.error e, t) := by
  unfold write
  rw [Action.exec_bind_ok (Action.exec_get t), h]
  rfl

theorem exec_write_of_ok (h : f t.database = .ok (a, d)) :
    (write f).exec t = if t.hold = some .writing then (.error locked, t) else (.ok a, t.withPending d) := by
  unfold write unlessHeld
  rw [Action.exec_bind_ok (Action.exec_get t), h, Action.exec_bind_ok (Action.exec_ofExcept _ t)]
  by_cases hhold : t.hold = some .writing
  · simp only [if_pos hhold]
    rfl
  · simp only [if_neg hhold]
    rfl

theorem exec_commit (t : Transaction) :
    commit.exec t =
      if t.committed.isSome ∧ t.hold.isSome then (.error locked, t) else (.ok (), { t with committed := none }) := by
  unfold commit unlessHeld
  rw [Action.exec_bind_ok (Action.exec_get t)]
  by_cases hheld : t.committed.isSome ∧ t.hold.isSome
  · simp only [if_pos hheld]
    rfl
  · simp only [if_neg hheld]
    rfl

/-! ## Writes that are committed -/

theorem exec_save_of_error (h : f t.database = .error e) : (save f).exec t = (.error e, t) := by
  unfold save
  rw [Action.exec_bind_error (exec_write_of_error h)]

theorem exec_save_of_unheld (h : f t.database = .ok (a, d)) (hhold : t.hold = none) :
    (save f).exec t = (.ok a, { t with database := d, committed := none }) := by
  have hwrite : (write f).exec t = (.ok a, t.withPending d) := by
    rw [exec_write_of_ok h, hhold, if_neg nofun]
  have hcommit : commit.exec (t.withPending d) = (.ok (), { t with database := d, committed := none }) := by
    rw [exec_commit, if_neg (by simp [withPending, hhold])]
    rfl
  unfold save
  rw [Action.exec_bind_ok hwrite, Action.exec_bind_ok hcommit]
  rfl

theorem exec_save_of_reading (h : f t.database = .ok (a, d)) (hhold : t.hold = some .reading) :
    (save f).exec t = (.error locked, t.withPending d) := by
  have hwrite : (write f).exec t = (.ok a, t.withPending d) := by
    rw [exec_write_of_ok h, hhold, if_neg nofun]
  have hcommit : commit.exec (t.withPending d) = (.error locked, t.withPending d) := by
    rw [exec_commit, if_pos (by simp [withPending, hhold])]
  unfold save
  rw [Action.exec_bind_ok hwrite, Action.exec_bind_error hcommit]

theorem exec_save_of_writing (h : f t.database = .ok (a, d)) (hhold : t.hold = some .writing) :
    (save f).exec t = (.error locked, t) := by
  have hwrite : (write f).exec t = (.error locked, t) := by rw [exec_write_of_ok h, if_pos hhold]
  unfold save
  rw [Action.exec_bind_error hwrite]

theorem exec_save_eq_ok (h : (save f).exec t = (.ok a, t')) :
    ∃ d, f t.database = .ok (a, d) ∧ t' = { t with database := d, committed := none } := by
  rcases hf : f t.database with e | ⟨b, d⟩
  · rw [exec_save_of_error hf] at h
    cases h
  · cases hhold : t.hold with
    | none =>
      rw [exec_save_of_unheld hf hhold] at h
      cases h
      exact ⟨d, rfl, by rw [hhold]⟩
    | some hold =>
      cases hold with
      | reading =>
        rw [exec_save_of_reading hf hhold] at h
        cases h
      | writing =>
        rw [exec_save_of_writing hf hhold] at h
        cases h

/-- What changes in a transaction on the database at a place. -/
structure Changes (scope : Set Resource) (p : Path) (t t' : Transaction) : Prop where
  database : t.database.Changes scope p t'.database
  settled : t.hold = none → t.committed = none → t'.committed = none

theorem Changes.refl (scope : Set Resource) (p : Path) (t : Transaction) : t.Changes scope p t :=
  ⟨.refl scope p t.database, fun _ h => h⟩

theorem moves_read (g : Database → Except Failure α) (p : Path) : (read g).Moves (Changes scope p) :=
  fun t => .refl scope p t

theorem moves_save {p : Path} (hf : ∀ d a d', f d = .ok (a, d') → d.Changes scope p d') :
    (save f).Moves (Changes scope p) := by
  intro t
  rcases hresult : f t.database with e | ⟨a, d⟩
  · rw [exec_save_of_error hresult]
    exact .refl scope p t
  · have hd := hf _ _ _ hresult
    cases hhold : t.hold with
    | none =>
      rw [exec_save_of_unheld hresult hhold]
      exact ⟨hd, fun _ _ => rfl⟩
    | some hold =>
      have hheld {Q : Prop} (hnone : t.hold = none) : Q := by
        rw [hhold] at hnone
        cases hnone
      cases hold with
      | reading =>
        rw [exec_save_of_reading hresult hhold]
        exact ⟨hd, hheld⟩
      | writing =>
        rw [exec_save_of_writing hresult hhold]
        exact .refl scope p t

end Transaction

namespace Storage

variable {s : Storage} {key : Path} {d : Database} {t : Transaction}

theorem Quiet.unheld (h : s.Quiet) (key : Path) : Assoc.get? key s.holds = none := by
  rw [h.holds]
  rfl

theorem Quiet.transaction (h : s.Quiet) (key : Path) (d : Database) :
    s.transaction key d = { database := d } := by
  rw [Storage.transaction, h.uncommitted, h.holds]
  rfl

theorem withTransaction_transaction (h : s.files.databaseAt key = some d) :
    s.withTransaction key (s.transaction key d) = s := by
  unfold withTransaction transaction
  dsimp only
  rw [FileTree.putDatabase_of_databaseAt h]
  split
  · rename_i before hkey
    rw [Assoc.put_of_get? hkey]
  · rename_i hkey
    rw [Assoc.erase_of_get?_eq_none hkey]

theorem withTransaction_changes (hd : s.files.database key = .ok d) (h : (s.transaction key d).Changes scope key t) :
    s.Changes scope (s.withTransaction key t) := by
  have hfiles : s.files.Changes scope (s.withTransaction key t).files := .of_putDatabase hd h.database
  refine ⟨hfiles, fun p hp => hp, fun hs p hp => hfiles.schema p (hs p hp), rfl, fun hs => ⟨?_, hs.holds⟩⟩
  rw [hs.transaction] at h
  unfold withTransaction
  dsimp only
  rw [h.settled rfl rfl, hs.uncommitted]
  rfl

/-- The storage after a write that was committed. -/
def withSaved (s : Storage) (key : Path) (d : Database) : Storage :=
  { s with files := s.files.putDatabase key d, uncommitted := Assoc.erase key s.uncommitted }

/-- The storage after a write that was not committed, over a database as it was. -/
def withPending (s : Storage) (key : Path) (before d : Database) : Storage :=
  { s with
    files := s.files.putDatabase key d
    uncommitted := Assoc.put key ((Assoc.get? key s.uncommitted).getD before) s.uncommitted }

@[simp] theorem files_withSaved (s : Storage) (key : Path) (d : Database) :
    (s.withSaved key d).files = s.files.putDatabase key d := rfl

theorem changes_withSaved {before : Database} (hd : s.files.database key = .ok before)
    (h : before.Changes scope key d) : s.Changes scope (s.withSaved key d) :=
  withTransaction_changes (t := { s.transaction key before with database := d, committed := none }) hd
    ⟨h, fun _ _ => rfl⟩

theorem changes_withPending {before : Database} (hd : s.files.database key = .ok before)
    (h : before.Changes scope key d) (hheld : (Assoc.get? key s.holds).isSome = true) :
    s.Changes scope (s.withPending key before d) := by
  refine withTransaction_changes (t := (s.transaction key before).withPending d) hd ⟨h, fun hnone => ?_⟩
  have hnone : Assoc.get? key s.holds = none := hnone
  rw [hnone] at hheld
  cases hheld

/-- What was not committed is gone when the connection is closed. -/
theorem rollBack_withPending {before : Database} (hd : s.files.databaseAt key = some before) (d : Database) :
    (s.withPending key before d).rollBack key = s.rollBack key := by
  have hplace := (FileTree.database_eq_ok (FileTree.database_of_databaseAt hd)).1
  have hput := FileTree.putDatabase_spec hplace d
  have hagain (d' : Database) : (s.files.putDatabase key d).putDatabase key d' = s.files.putDatabase key d' := by
    rw [FileTree.putDatabase, hput.text]
    exact congrArg FileTree.mk (Assoc.put_put key _ _ s.files.nodes)
  unfold rollBack withPending
  dsimp only
  rw [Assoc.get?_put_self, Assoc.erase_put_self, hput.self, hd]
  dsimp only
  rw [hagain]
  cases Assoc.get? key s.uncommitted with
  | none =>
    rw [Option.getD_none, FileTree.putDatabase_of_databaseAt hd]
  | some committed => rfl

theorem Quiet.closeAll (h : s.Quiet) : s.closeAll = { s with connections := s.connections.closeAll } := by
  have hnone : (s.uncommitted.map Prod.fst).foldl rollBack s = s := by
    rw [h.uncommitted]
    rfl
  rw [Storage.closeAll, hnone]

end Storage

end DocFetch

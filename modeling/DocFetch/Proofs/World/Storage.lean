import DocFetch.Proofs.World.Transactions

/-! # Storage at work

What connecting to a database and working on it changes.
-/

namespace DocFetch

variable {α : Type} {scope : Set Resource}

namespace Connections

theorem openAt_of_has {σ : Type} {c : Connections} {key : Path} (h : c.Has key) (prepare : Action σ Unit) :
    ∃ n l, c.openAt key prepare = return ((n, l), c) := by
  obtain ⟨hlive, hlock⟩ := h
  obtain ⟨n, hn⟩ := Option.isSome_iff_exists.mp hlive
  obtain ⟨l, hl⟩ := Option.isSome_iff_exists.mp hlock
  refine ⟨n, l, ?_⟩
  unfold openAt
  rw [hn, hl]

/-- The connections with a new one. -/
def withNew (c : Connections) (key : Path) : Connections :=
  { c with
    live := Assoc.put key c.opened c.live, locks := Assoc.put key c.opened c.locks, opened := c.opened + 1 }

theorem openAt_of_not_has {σ : Type} {c : Connections} {key : Path} (h : ¬ c.Has key)
    (prepare : Action σ Unit) :
    c.openAt key prepare = do
      prepare
      return ((c.opened, c.opened), c.withNew key) := by
  unfold openAt
  split
  · rename_i n l hn hl
    exact absurd ⟨by rw [hn]; rfl, by rw [hl]; rfl⟩ h
  · rfl

theorem has_withNew_self (c : Connections) (key : Path) : (c.withNew key).Has key := by
  unfold Has withNew
  simp

theorem has_withNew_of_ne (c : Connections) {key p : Path} (h : key ≠ p) :
    (c.withNew key).Has p ↔ c.Has p := by
  unfold Has withNew
  simp [Assoc.get?_put_of_ne h]

end Connections

namespace Storage

variable {s s' : Storage} {path key : Path}

theorem prepare_eq_ok (h : (prepare key).exec s = (.ok (), s')) :
    s'.files.HasSchema key ∧ s'.connections = s.connections := by
  unfold prepare at h
  obtain ⟨_, _, hget, h⟩ := Action.exec_bind_eq_ok h
  cases hget
  obtain ⟨made, _, -, h⟩ := Action.exec_bind_eq_ok h
  obtain ⟨_, _, -, h⟩ := Action.exec_bind_eq_ok h
  obtain ⟨⟨place, files⟩, _, -, h⟩ := Action.exec_bind_eq_ok h
  obtain ⟨_, _, -, h⟩ := Action.exec_bind_eq_ok h
  obtain ⟨d, hd, h⟩ := Action.exec_ofExcept_bind_eq_ok h
  obtain ⟨_, -, h⟩ := Action.exec_ofExcept_bind_eq_ok h
  cases h
  obtain ⟨hfile, -⟩ := FileTree.database_eq_ok hd
  exact ⟨⟨_, (FileTree.putDatabase_spec hfile d.withSchema).self, d.hasSchema_withSchema⟩, rfl⟩

theorem moves_prepare (key : Path) : (prepare key).Moves (Changes {.directories}) := by
  unfold prepare
  refine .get_bind fun s => Action.leads_ofExcept_bind fun made hmade => ?_
  refine Action.leads_set_bind (.of_files (.of_makeDirectories hmade)) ?_
  refine Action.leads_ofExcept_bind fun opened hopened => ?_
  refine Action.leads_set_bind (.of_files (s := { s with files := made }) ?_) ?_
  · exact (FileTree.Changes.of_openDatabase hopened).mono (Set.empty_subset _)
  refine Action.leads_ofExcept_bind fun d hd => Action.leads_ofExcept_bind fun _ _ => ?_
  exact .of_files ((FileTree.Changes.of_putDatabase hd (.withSchema key d)).mono (Set.empty_subset _))

theorem Changes.withNew (h : s.files.HasSchema key) (scope : Set Resource) :
    s.Changes scope { s with connections := s.connections.withNew key } where
  files := .refl scope s.files
  connections p hp := by
    by_cases hkey : key = p
    · rw [← hkey]
      exact s.connections.has_withNew_self key
    · exact (s.connections.has_withNew_of_ne hkey).mpr hp
  sound hs p hp := by
    by_cases hkey : key = p
    · rwa [← hkey]
    · exact hs p ((s.connections.has_withNew_of_ne hkey).mp hp)
  holds := rfl
  quiet hs := ⟨hs.uncommitted, hs.holds⟩

/-- Whether a path leads to a database that is connected and has its tables. -/
def Connected (s : Storage) (path : Path) : Prop :=
  s.connections.Has path.resolve ∧ s.files.HasSchema path.resolve

theorem Changes.connected (h : s.Changes scope s') (hc : s.Connected path) : s'.Connected path :=
  ⟨h.connections _ hc.1, h.files.schema _ hc.2⟩

/-- Whether what a connected database is given can be committed. -/
structure Serves (s : Storage) (path : Path) : Prop where
  connected : s.Connected path
  unheld : Assoc.get? path.resolve s.holds = none

theorem Changes.serves (h : s.Changes scope s') (hs : s.Serves path) : s'.Serves path :=
  ⟨h.connected hs.connected, by rw [h.holds, hs.unheld]⟩

theorem exec_connect_of_has (h : s.connections.Has path.resolve) :
    ∃ n, (connect path).exec s = (.ok n, s) := by
  obtain ⟨n, l, hopen⟩ := Connections.openAt_of_has h (prepare path.resolve)
  refine ⟨n, ?_⟩
  unfold connect
  rw [Action.exec_bind_ok (Action.exec_get s), hopen]
  rfl

theorem exec_connect_of_not_has (h : ¬ s.connections.Has path.resolve) :
    (connect path).exec s = (do
      prepare path.resolve
      modify fun t => { t with connections := s.connections.withNew path.resolve }
      return s.connections.opened : Action Storage Nat).exec s := by
  unfold connect
  rw [Action.exec_bind_ok (Action.exec_get s), Connections.openAt_of_not_has h]
  simp only [bind_assoc, pure_bind]

theorem moves_connect (path : Path) : (connect path).Moves (Changes {.directories}) := by
  intro s
  by_cases h : s.connections.Has path.resolve
  · obtain ⟨n, hexec⟩ := exec_connect_of_has h
    rw [hexec]
    exact .refl _ s
  rw [exec_connect_of_not_has h]
  rcases hprepare : (prepare path.resolve).exec s with ⟨r, t⟩
  have hmoves := (moves_prepare path.resolve).of_exec hprepare
  cases r with
  | error e =>
    rw [Action.exec_bind_error hprepare]
    exact hmoves
  | ok u =>
    obtain ⟨hschema, hsame⟩ := prepare_eq_ok hprepare
    rw [Action.exec_bind_ok hprepare, ← hsame]
    exact hmoves.trans (.withNew hschema _)

theorem connect_eq_ok {n : Nat} (h : (connect path).exec s = (.ok n, s')) :
    s'.connections.Has path.resolve := by
  by_cases hhas : s.connections.Has path.resolve
  · obtain ⟨m, hexec⟩ := exec_connect_of_has hhas
    rw [hexec] at h
    cases h
    exact hhas
  · rw [exec_connect_of_not_has hhas] at h
    obtain ⟨_, t, -, h⟩ := Action.exec_bind_eq_ok h
    cases h
    exact s.connections.has_withNew_self path.resolve

theorem connected_of_connect {n : Nat} (hsound : s.Sound) (h : (connect path).exec s = (.ok n, s')) :
    s'.Connected path :=
  ⟨connect_eq_ok h, ((moves_connect path).of_exec h).sound hsound _ (connect_eq_ok h)⟩

/-! ## Sessions -/

/-- What is done at a path is done to the database that its connection leads to. -/
theorem exec_transact_of_connect {n : Nat} {d : Database} (hconnect : (connect path).exec s = (.ok n, s'))
    (hd : s'.files.databaseAt path.resolve = some d) (work : Action Transaction α) :
    (transact path work).exec s =
      ((work.exec (s'.transaction path.resolve d)).1,
        s'.withTransaction path.resolve (work.exec (s'.transaction path.resolve d)).2) := by
  have hdiscard : (discard (connect path)).exec s = (.ok (), s') := by
    rw [Action.exec_discard, hconnect]
    rfl
  unfold transact
  rw [Action.exec_bind_ok hdiscard, Action.exec_bind_ok (Action.exec_get s'),
    FileTree.database_of_databaseAt hd, Action.exec_bind_ok (Action.exec_ofExcept _ s')]
  rfl

theorem exec_transact_of_connected (h : s.Connected path) (work : Action Transaction α) :
    ∃ d, s.files.databaseAt path.resolve = some d ∧ d.HasSchema ∧
      (transact path work).exec s =
        ((work.exec (s.transaction path.resolve d)).1,
          s.withTransaction path.resolve (work.exec (s.transaction path.resolve d)).2) := by
  obtain ⟨hhas, d, hd, hschema⟩ := h
  obtain ⟨n, hconnect⟩ := exec_connect_of_has hhas
  exact ⟨d, hd, hschema, exec_transact_of_connect hconnect hd work⟩

section Saving

variable {n : Nat} {d d' : Database} {f : Database → Except Failure (α × Database)} {a : α} {e : Failure}

theorem exec_session_of_error (hconnect : (connect path).exec s = (.ok n, s'))
    (hd : s'.files.databaseAt path.resolve = some d) (h : f d = .error e) :
    (session path f).exec s = (.error e, s') := by
  rw [session, exec_transact_of_connect hconnect hd, Transaction.exec_save_of_error h, withTransaction_transaction hd]

theorem exec_session_of_unheld (hconnect : (connect path).exec s = (.ok n, s'))
    (hd : s'.files.databaseAt path.resolve = some d) (h : f d = .ok (a, d'))
    (hhold : Assoc.get? path.resolve s'.holds = none) :
    (session path f).exec s = (.ok a, s'.withSaved path.resolve d') := by
  rw [session, exec_transact_of_connect hconnect hd, Transaction.exec_save_of_unheld h hhold]
  rfl

theorem exec_session_of_reading (hconnect : (connect path).exec s = (.ok n, s'))
    (hd : s'.files.databaseAt path.resolve = some d) (h : f d = .ok (a, d'))
    (hhold : Assoc.get? path.resolve s'.holds = some .reading) :
    (session path f).exec s =
      (.error Transaction.locked, s'.withPending path.resolve d d') := by
  rw [session, exec_transact_of_connect hconnect hd, Transaction.exec_save_of_reading h hhold]
  rfl

theorem exec_session_of_writing (hconnect : (connect path).exec s = (.ok n, s'))
    (hd : s'.files.databaseAt path.resolve = some d) (h : f d = .ok (a, d'))
    (hhold : Assoc.get? path.resolve s'.holds = some .writing) :
    (session path f).exec s = (.error Transaction.locked, s') := by
  rw [session, exec_transact_of_connect hconnect hd, Transaction.exec_save_of_writing h hhold,
    withTransaction_transaction hd]

end Saving

/-- What working at a path may change: directories only where the database is not connected. -/
def sessionScope (s : Storage) (path : Path) (scope : Set Resource) : Set Resource :=
  scope ∪ { r | r = .directories ∧ ¬ s.Connected path }

theorem transact_changes {work : Action Transaction α}
    (hwork : work.Moves (Transaction.Changes scope path.resolve)) (s : Storage) :
    s.Changes (s.sessionScope path scope) ((transact path work).exec s).2 := by
  by_cases h : s.Connected path
  · obtain ⟨d, hd, -, hexec⟩ := exec_transact_of_connected h work
    rw [hexec]
    exact (withTransaction_changes (FileTree.database_of_databaseAt hd) (hwork _)).mono Set.subset_union_left
  · have hscope : {.directories} ⊆ s.sessionScope path scope := by
      rintro r rfl
      exact .inr ⟨rfl, h⟩
    refine ((((moves_connect path).discard).mono fun _ _ hc => hc.mono hscope).bind fun _ => ?_) s
    refine .get_bind fun t => Action.leads_ofExcept_bind fun d hd => ?_
    exact Action.leads_set_bind ((withTransaction_changes hd (hwork _)).mono Set.subset_union_left) (.refl _ _)

theorem session_changes {f : Database → Except Failure (α × Database)}
    (hf : ∀ d a d', f d = .ok (a, d') → d.Changes scope path.resolve d') (s : Storage) :
    s.Changes (s.sessionScope path scope) ((session path f).exec s).2 :=
  transact_changes (Transaction.moves_save hf) s

end Storage

end DocFetch

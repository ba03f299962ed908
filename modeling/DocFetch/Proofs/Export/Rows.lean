import DocFetch.Proofs.Export.Ledger

/-! # Tables of rows

The rows of a channel's table and those pending on the connection are what was there before and one row per
record. Committing never fails while the connection is open.
-/

namespace DocFetch

/-! ## Rows inserted together -/

/-- The rows for a table among rows for several. -/
def rowsFor (name : String) (pending : List (String × ExportRow)) : List ExportRow :=
  (pending.filter fun e => Database.sameName e.1 name).map Prod.snd

namespace Database

/-- The database with all rows inserted. -/
def insertAll (d : Database) (pending : List (String × ExportRow)) : Database :=
  pending.foldl (fun d e => d.insertExport e.1 e.2) d

theorem table?_insertAll (d : Database) (pending : List (String × ExportRow)) (name : String) :
    (d.insertAll pending).table? name = (d.table? name).map (· ++ rowsFor name pending) := by
  induction pending generalizing d with
  | nil => cases h : d.table? name <;> simp [insertAll, rowsFor, h]
  | cons e rest ih =>
    have hcons : d.insertAll (e :: rest) = (d.insertExport e.1 e.2).insertAll rest := rfl
    rw [hcons, ih, table?_insertExport]
    cases hname : sameName e.1 name with
    | true => cases d.table? name <;> simp [rowsFor, hname]
    | false => cases d.table? name <;> simp [rowsFor, hname]

theorem insertAll_events (d : Database) (pending : List (String × ExportRow)) :
    (d.insertAll pending).events = d.events ∧ (d.insertAll pending).documents = d.documents := by
  induction pending generalizing d with
  | nil => exact ⟨rfl, rfl⟩
  | cons e rest ih => exact ih (d.insertExport e.1 e.2)

theorem Changes.of_exports {d d' : Database} {p : Path} (hevents : d'.events = d.events)
    (hdocuments : d'.documents = d.documents) : d.Changes Resource.outputs p d' where
  table _ h := absurd trivial h
  events _ := by rw [hevents]
  documents _ := by rw [hdocuments]
  schema h := by rwa [HasSchema, hevents, hdocuments]

theorem createExports_changes {d d' : Database} {name : String} (h : d.createExports name = .ok d') (p : Path) :
    d.Changes Resource.outputs p d' := by
  unfold createExports at h
  split at h
  · cases h
  split at h
  · cases h
    exact .refl _ p d
  · cases h
    exact .of_exports rfl rfl

end Database

theorem Channel.sameName_iff {a b : Channel} : Database.sameName a.name b.name = true ↔ a = b := by
  cases a <;> cases b <;> decide +kernel

namespace TableExport

/-! ## Connections -/

def exporterOf (n : Nat) (table : String) : Exporter World where
  write := insert n table
  flush := commit n
  close := do
    commit n
    if false then disconnect n

variable {w w' : World} {n : Nat} {c : ExportConnection} {r : Record}

theorem exec_connection (hc : w.exports[n]? = some c) (hopen : c.isOpen = true) :
    (connection n).exec w = (.ok c, w) := by
  unfold connection
  rw [Action.exec_bind_ok (Action.exec_get w), hc]
  dsimp only
  rw [hopen]
  rfl

/-- The world after files and one connection changed. -/
def stepped (w : World) (files : FileTree) (n : Nat) (f : ExportConnection → ExportConnection) : World :=
  { w with storage := { w.storage with files }, exports := w.exports.modify n f }

theorem changes_stepped {files : FileTree} (h : w.files.Changes Resource.outputs files) (n : Nat)
    (f : ExportConnection → ExportConnection) : w.Changes Resource.outputs (stepped w files n f) where
  storage := .of_files h
  stream _ _ := rfl
  connection _ hn := absurd trivial hn
  inserted _ _ _ := rfl
  drawn _ := rfl
  drawn_le := le_refl _
  client _ c hc := ⟨c, hc, rfl, rfl, rfl⟩
  refusal := rfl

def inserted (table : String) (r : Record) (c : ExportConnection) : ExportConnection :=
  { c with pending := c.pending ++ [(table, row r)] }

def committed (c : ExportConnection) : ExportConnection := { c with pending := [] }

theorem exec_insert (hc : w.exports[n]? = some c) (hopen : c.isOpen = true) (table : String) (r : Record) :
    (insert n table r).exec w = (.ok (), stepped w w.files n (inserted table r)) := by
  have hconnection : (discard (connection n)).exec w = (.ok (), w) := by
    rw [Action.exec_discard, exec_connection hc hopen]
    rfl
  unfold insert
  rw [Action.exec_bind_ok hconnection]
  rfl

theorem exec_work {path : Path} {f : Database → Except Failure Database} {d e : Database}
    (hd : w.files.database path = .ok d) (hf : f d = .ok e) :
    (work path f).exec w =
      (.ok (), { w with storage := { w.storage with files := w.files.putDatabase path e } }) := by
  refine World.exec_changeFiles_of_ok ?_
  rw [hd]
  change (f d >>= fun d' => pure (w.files.putDatabase path d')) = _
  rw [hf]
  rfl

theorem work_eq_ok {path : Path} {f : Database → Except Failure Database} (h : (work path f).exec w = (.ok (), w')) :
    ∃ d d', w.files.database path = .ok d ∧ f d = .ok d' ∧
      w' = { w with storage := { w.storage with files := w.files.putDatabase path d' } } := by
  obtain ⟨files, hfiles, rfl⟩ := World.changeFiles_eq_ok h
  rcases hd : w.files.database path with e | d
  · rw [hd] at hfiles
    cases hfiles
  rw [hd] at hfiles
  change (f d >>= fun d' => pure (w.files.putDatabase path d')) = _ at hfiles
  rcases hd' : f d with e | d'
  · rw [hd'] at hfiles
    cases hfiles
  · rw [hd'] at hfiles
    cases hfiles
    exact ⟨d, d', rfl, hd', rfl⟩

theorem exec_commit {d : Database} (hc : w.exports[n]? = some c) (hopen : c.isOpen = true)
    (hd : w.files.database c.path = .ok d) :
    (commit n).exec w =
      if c.pending.isEmpty then (.ok (), w)
      else (.ok (), stepped w (w.files.putDatabase c.path (d.insertAll c.pending)) n committed) := by
  unfold commit
  rw [Action.exec_bind_ok (exec_connection hc hopen)]
  cases hpending : c.pending.isEmpty with
  | true => rfl
  | false =>
    simp only [Bool.false_eq_true, if_false]
    rw [Action.exec_bind_ok (exec_work (e := d.insertAll c.pending) hd rfl)]
    rfl

/-! ## What a run holds -/

/-- What the tables of a run and its connection hold; the connection has number `n`. -/
def Holds (n : Nat) (path : Path) (before : Channel → List ExportRow) (l : Routed) (w : World) : Prop :=
  ∃ c, w.exports[n]? = some c ∧ c.path = path ∧ c.isOpen = true ∧
    ∀ ch, ∃ rows, w.files.table? path ch.name = some rows ∧
      rows ++ rowsFor ch.name c.pending = before ch ++ (l ch).map row

variable {path : Path} {before : Channel → List ExportRow} {l : Routed} {ch : Channel}

theorem getElem?_stepped (hc : w.exports[n]? = some c) (files : FileTree)
    (f : ExportConnection → ExportConnection) : (stepped w files n f).exports[n]? = some (f c) := by
  change (w.exports.modify n f)[n]? = _
  rw [List.getElem?_modify_eq, hc]
  rfl

theorem Holds.insert (h : Holds n path before l w) (ch : Channel) (r : Record) :
    ∃ w', (insert n ch.name r).exec w = (.ok (), w') ∧ Holds n path before (l.add [⟨ch, r⟩]) w' ∧
      w.Changes Resource.outputs w' := by
  obtain ⟨c, hc, hpath, hopen, hrows⟩ := h
  refine ⟨_, exec_insert hc hopen ch.name r, ?_, changes_stepped (.refl _ _) _ _⟩
  refine ⟨_, getElem?_stepped hc w.files (inserted ch.name r), hpath, hopen, fun ch' => ?_⟩
  obtain ⟨rows, hrows, hsum⟩ := hrows ch'
  refine ⟨rows, hrows, ?_⟩
  have hpending : rowsFor ch'.name (inserted ch.name r c).pending =
      rowsFor ch'.name c.pending ++ (recordsFor [⟨ch, r⟩] ch').map row := by
    unfold rowsFor inserted
    rw [List.filter_append, List.map_append]
    congr 1
    by_cases hch : ch = ch'
    · subst hch
      simp [recordsFor, Channel.sameName_iff.mpr (rfl : ch = ch)]
    · have hsame : Database.sameName ch.name ch'.name = false := by
        rw [← Bool.not_eq_true, Channel.sameName_iff]
        exact hch
      simp [hsame, Routed.recordsFor_of_ne hch]
  rw [hpending, ← List.append_assoc, hsum, Routed.add, List.map_append, List.append_assoc]

/-- Whether all rows of a connection are in its database. -/
def Settled (n : Nat) (w : World) : Prop := ∃ c, w.exports[n]? = some c ∧ c.pending = []

theorem Holds.commit (h : Holds n path before l w) :
    ∃ w', (commit n).exec w = (.ok (), w') ∧ Holds n path before l w' ∧ Settled n w' ∧
      w.Changes Resource.outputs w' := by
  obtain ⟨c, hc, hpath, hopen, hrows⟩ := h
  obtain ⟨d, hd⟩ : ∃ d, w.files.databaseAt path = some d := by
    obtain ⟨rows, hrows, -⟩ := hrows .success
    obtain ⟨d, hd, -⟩ := Option.bind_eq_some_iff.mp hrows
    exact ⟨d, hd⟩
  have hdatabase : w.files.database c.path = .ok d := by
    rw [hpath]
    exact FileTree.database_of_databaseAt hd
  rw [exec_commit hc hopen hdatabase]
  by_cases hpending : c.pending = []
  · rw [if_pos (by simpa using hpending)]
    exact ⟨w, rfl, ⟨c, hc, hpath, hopen, hrows⟩, ⟨c, hc, hpending⟩, .refl _ w⟩
  rw [if_neg (by simpa using hpending)]
  refine ⟨_, rfl, ?_, ⟨_, getElem?_stepped hc _ committed, rfl⟩, ?_⟩
  · refine ⟨_, getElem?_stepped hc _ committed, hpath, hopen, fun ch => ?_⟩
    obtain ⟨rows, hrows, hsum⟩ := hrows ch
    have htable : d.table? ch.name = some rows := by
      rw [FileTree.table?, hd] at hrows
      exact hrows
    refine ⟨rows ++ rowsFor ch.name c.pending, ?_, ?_⟩
    · have hput := FileTree.putDatabase_spec (FileTree.database_eq_ok hdatabase).1 (d.insertAll c.pending)
      change ((w.files.putDatabase c.path (d.insertAll c.pending)).databaseAt path).bind _ = _
      rw [← hpath, hput.self, Option.bind_some, Database.table?_insertAll, htable, Option.map_some]
    · rw [← hsum]
      exact List.append_nil _
  · refine changes_stepped (.of_putDatabase hdatabase ?_) _ _
    obtain ⟨hevents, hdocuments⟩ := d.insertAll_events c.pending
    exact .of_exports hevents hdocuments

theorem Holds.finish (h : Holds n path before l w) (table : String) :
    ∃ w', (do (exporterOf n table).flush; (exporterOf n table).close : Action World Unit).exec w = (.ok (), w') ∧
      Holds n path before l w' ∧ Settled n w' ∧ w.Changes Resource.outputs w' := by
  obtain ⟨w₁, hcommit₁, h₁, -, hchanges₁⟩ := h.commit
  obtain ⟨w₂, hcommit₂, h₂, hsettled, hchanges₂⟩ := h₁.commit
  refine ⟨w₂, ?_, h₂, hsettled, hchanges₁.trans hchanges₂⟩
  exact (Action.exec_bind_ok hcommit₁ _).trans (Action.exec_bind_ok hcommit₂ _)

theorem Holds.finishAll {chs : List Channel} (hchs : chs ≠ []) (h : Holds n path before l w) :
    ∃ w', (chs.forM fun ch => do (exporterOf n ch.name).flush; (exporterOf n ch.name).close).exec w = (.ok (), w') ∧
      Holds n path before l w' ∧ Settled n w' ∧ w.Changes Resource.outputs w' := by
  induction chs generalizing w with
  | nil => exact absurd rfl hchs
  | cons ch rest ih =>
    obtain ⟨w₁, hfirst, h₁, hsettled₁, hchanges₁⟩ := h.finish ch.name
    cases rest with
    | nil => exact ⟨w₁, Action.exec_bind_ok hfirst _, h₁, hsettled₁, hchanges₁⟩
    | cons ch' rest =>
      obtain ⟨w₂, hrest, h₂, hsettled₂, hchanges₂⟩ := ih (List.cons_ne_nil ch' rest) h₁
      exact ⟨w₂, (Action.exec_bind_ok hfirst _).trans hrest, h₂, hsettled₂, hchanges₁.trans hchanges₂⟩

/-! ## Routers -/

theorem connect_eq_ok (h : (connect path).exec w = (.ok n, w')) :
    ∃ made files, w.files.makeDirectories path.parent = .ok made ∧
      made.openDatabase path = .ok (path.resolve, files) ∧ n = w.exports.length ∧
      w' = { w with
        storage := { w.storage with files }
        exports := w.exports ++ [{ path := path.resolve }] } := by
  unfold connect at h
  obtain ⟨_, w₁, hdirectories, h⟩ := Action.exec_bind_eq_ok h
  obtain ⟨made, hmade, rfl⟩ := World.changeFiles_eq_ok hdirectories
  obtain ⟨_, w₂, hget, h⟩ := Action.exec_bind_eq_ok h
  cases hget
  obtain ⟨⟨place, files⟩, hopened, h⟩ := Action.exec_ofExcept_bind_eq_ok h
  obtain rfl := (FileTree.openDatabase_eq_ok hopened).place
  cases h
  exact ⟨made, files, hmade, hopened, rfl, rfl⟩

theorem openTable_eq_ok {table : String} {e : Exporter World} {c : ExportConnection}
    (hc : w.exports[n]? = some c) (hopen : c.isOpen = true) (h : (openTable n table).exec w = (.ok e, w')) :
    e = exporterOf n table ∧ ∃ d d', w.files.database c.path = .ok d ∧ d.createExports table = .ok d' ∧
      w' = { w with storage := { w.storage with files := w.files.putDatabase c.path d' } } := by
  unfold openTable at h
  dsimp only at h
  split at h
  · rw [Action.exec_bind_ok (exec_connection hc hopen)] at h
    obtain ⟨_, w₁, hwork, h⟩ := Action.exec_bind_eq_ok h
    obtain ⟨d, d', hd, hd', rfl⟩ := work_eq_ok hwork
    cases h
    exact ⟨rfl, d, d', hd, hd', rfl⟩
  · cases h

/-- What opening a table changes: it is there afterwards. -/
structure OpenedTable (n : Nat) (path : Path) (table : String) (e : Exporter World) (w w' : World) : Prop where
  exporter : e = exporterOf n table
  exports : w'.exports = w.exports
  table : ∀ name, w'.files.table? path name =
    if w.files.table? path name = none ∧ Database.sameName table name then some [] else w.files.table? path name
  changes : w.Changes Resource.outputs w'

theorem openedTable {table : String} {e : Exporter World} {c : ExportConnection} (hc : w.exports[n]? = some c)
    (hopen : c.isOpen = true) (h : (openTable n table).exec w = (.ok e, w')) :
    OpenedTable n c.path table e w w' := by
  obtain ⟨rfl, d, d', hd, hcreate, rfl⟩ := openTable_eq_ok hc hopen h
  refine ⟨rfl, rfl, fun name => ?_, ?_⟩
  · have hput := FileTree.putDatabase_spec (FileTree.database_eq_ok hd).1 d'
    have hbefore : w.files.table? c.path name = d.table? name := FileTree.table?_of_database hd name
    change ((w.files.putDatabase c.path d').databaseAt c.path).bind _ = _
    rw [hput.self, Option.bind_some, Database.table?_createExports hcreate, hbefore]
  · exact .of_storage (.of_files (.of_putDatabase hd (Database.createExports_changes hcreate c.path)))

/-- What a run to tables has opened. -/
structure Opened (directory : Path) (job : String) (w : World) (r : Router World) (w' : World) : Prop where
  exporters : r.exporters = Channel.all.map fun ch => (ch, exporterOf w.exports.length ch.name)
  release : r.release = [disconnect w.exports.length]
  counts : ∀ ch, r.counts ch = 0
  connection : w'.exports[w.exports.length]? = some { path := (place directory job).resolve }
  tables : ∀ ch : Channel, w'.files.table? (place directory job).resolve ch.name =
    some ((w.files.table? (place directory job).resolve ch.name).getD [])
  changes : w.Changes (Resource.outputs ∪ {.directories}) w'

theorem openRouter_eq_ok {config : OutputConfig} {directory : Path} {job tag : String} {rt : Router World}
    (hformat : config.format = .sqlite)
    (h : (config.openRouter job directory tag).exec w = (.ok rt, w')) : Opened directory job w rt w' := by
  unfold OutputConfig.openRouter at h
  rw [hformat] at h
  obtain ⟨n, w₀, hconnect, h⟩ := Action.exec_bind_eq_ok h
  obtain ⟨exporters, w₄, hexporters, h⟩ := Action.exec_bind_eq_ok h
  cases h
  obtain ⟨made, files, hmade, hopened, rfl, hw₀⟩ := connect_eq_ok hconnect
  obtain ⟨e₀, e₁, e₂, e₃, w₁, w₂, w₃, h₀, h₁, h₂, h₃, rfl⟩ := exportersFor_eq_ok hexporters
  have hconnection : w₀.exports[w.exports.length]? = some { path := (place directory job).resolve } := by
    rw [hw₀]
    exact List.getElem?_concat_length
  have hfiles : w.files.Changes {.directories} w₀.files := by
    rw [hw₀]
    exact (FileTree.Changes.of_makeDirectories hmade).trans
      ((FileTree.Changes.of_openDatabase hopened).mono (Set.empty_subset _))
  have ht₀ := openedTable hconnection rfl h₀
  have ht₁ := openedTable (by rw [ht₀.exports]; exact hconnection) rfl h₁
  have ht₂ := openedTable (by rw [ht₁.exports, ht₀.exports]; exact hconnection) rfl h₂
  have ht₃ := openedTable (by rw [ht₂.exports, ht₁.exports, ht₀.exports]; exact hconnection) rfl h₃
  refine ⟨?_, rfl, fun _ => rfl, ?_, fun ch => ?_, ?_⟩
  · rw [ht₀.exporter, ht₁.exporter, ht₂.exporter, ht₃.exporter]
    rfl
  · rw [ht₃.exports, ht₂.exports, ht₁.exports, ht₀.exports]
    exact hconnection
  · rw [ht₃.table, ht₂.table, ht₁.table, ht₀.table, ← hfiles.table _ _ (fun hmem => by cases hmem)]
    simp only [Channel.sameName_iff]
    cases w₀.files.table? (place directory job).resolve ch.name <;> cases ch <;> simp
  · have hchanges₀ : w.Changes (Resource.outputs ∪ {.directories}) w₀ := by
      have hstorage := Storage.Changes.of_files (s := w.storage) hfiles
      rw [hw₀] at hstorage ⊢
      exact ⟨hstorage.mono Set.subset_union_right, fun _ _ => rfl, fun _ hn => absurd (.inl trivial) hn,
        fun _ _ _ => rfl, fun _ => rfl, le_refl _, fun _ c hc => ⟨c, hc, rfl, rfl, rfl⟩, rfl⟩
    have htables := ((ht₀.changes.trans ht₁.changes).trans ht₂.changes).trans ht₃.changes
    exact hchanges₀.trans (htables.mono Set.subset_union_left)

namespace Opened

variable {directory : Path} {job tag : String} {rt : Router World}

theorem get?_exporters (h : Opened directory job w rt w') (ch : Channel) :
    Assoc.get? ch rt.exporters = some (exporterOf w.exports.length ch.name) := by
  rw [h.exporters, get?_all_map]

theorem holds (h : Opened directory job w rt w') :
    Holds w.exports.length (place directory job).resolve
      (fun ch => (w.files.table? (place directory job).resolve ch.name).getD []) .nothing w' :=
  ⟨_, h.connection, rfl, rfl, fun ch => ⟨_, h.tables ch, rfl⟩⟩

theorem exec_closing (h : Opened directory job w rt w') {v : World}
    (hl : Holds w.exports.length path before l v) :
    ∃ v₁, rt.closing.exec v = (disconnect w.exports.length).exec v₁ ∧ Holds w.exports.length path before l v₁ ∧
      Settled w.exports.length v₁ ∧ v.Changes Resource.outputs v₁ := by
  obtain ⟨v₁, hfinish, h₁, hsettled, hchanges⟩ := hl.finishAll (show Channel.all ≠ [] from List.cons_ne_nil _ _)
  refine ⟨v₁, ?_, h₁, hsettled, hchanges⟩
  unfold Router.closing
  rw [h.exporters, h.release]
  simp only [List.forM_eq_forM, List.forM_map, List.forM_cons, List.forM_nil, bind_pure_unit]
  exact Action.exec_bind_ok hfinish _

/-- Closing a run to tables puts every row in its table and never fails. -/
theorem closing (h : Opened directory job w rt w') {v : World}
    (hl : Holds w.exports.length path before l v) :
    ∃ v', rt.closing.exec v = (.ok (), v') ∧ v.Changes Resource.outputs v' ∧
      ∀ ch, v'.files.table? path ch.name = some (before ch ++ (l ch).map row) := by
  obtain ⟨v₁, hclosing, h₁, hsettled, hchanges⟩ := h.exec_closing hl
  refine ⟨_, hclosing, hchanges.trans (changes_stepped (.refl _ _) _ _), fun ch => ?_⟩
  obtain ⟨c, hc, hpending⟩ := hsettled
  obtain ⟨c', hc', -, -, hrows⟩ := h₁
  rw [hc] at hc'
  cases hc'
  obtain ⟨rows, htable, hsum⟩ := hrows ch
  rw [hpending] at hsum
  rw [← hsum]
  exact htable.trans (by simp [rowsFor])

end Opened

theorem ledger {config : OutputConfig} {directory : Path} {job tag : String} {rt : Router World}
    (hformat : config.format = .sqlite) (h : Opened directory job w rt w') :
    Ledger config job directory tag w Resource.outputs rt
      (Holds w.exports.length (place directory job).resolve
        fun ch => (w.files.table? (place directory job).resolve ch.name).getD []) where
  keeps := {
    exporter := fun ch => ⟨_, h.get?_exporters ch⟩
    write := by
      intro ch e l r s t he hl hwrite
      rw [h.get?_exporters ch] at he
      cases he
      obtain ⟨t', hinsert, ht', -⟩ := hl.insert ch r
      cases hinsert.symm.trans hwrite
      exact ht' }
  counts := h.counts
  stable := by
    rintro l v v' scope ⟨c, hc, hpath, hopen, hrows⟩ hchanges hdisjoint
    have hkept {x : Resource} (hx : x ∈ Resource.outputs) : x ∉ scope := fun hmem =>
      Set.disjoint_left.mp hdisjoint hmem hx
    refine ⟨c, ?_, hpath, hopen, fun ch => ?_⟩
    · rw [hchanges.connection _ (hkept trivial), hc]
    · obtain ⟨rows, htable, hsum⟩ := hrows ch
      refine ⟨rows, ?_, hsum⟩
      rw [← htable]
      exact hchanges.storage.files.table _ _ (hkept trivial)
  settled := by
    intro l v v' hl hclosing ch
    obtain ⟨u, hu, -, hrows⟩ := h.closing hl
    cases hu.symm.trans hclosing
    unfold OutputConfig.Added
    rw [hformat]
    dsimp only
    rw [hrows ch]
    rfl
  writes := by
    intro l v v' ch e r hl he hwrite
    rw [h.get?_exporters ch] at he
    cases he
    obtain ⟨t', hinsert, -, hchanges⟩ := hl.insert ch r
    cases hinsert.symm.trans hwrite
    exact hchanges
  closes := by
    intro l v v' hl hclosing
    obtain ⟨u, hu, hchanges, -⟩ := h.closing hl
    cases hu.symm.trans hclosing
    exact hchanges

/-- A run to tables takes every record. -/
theorem steadyLedger {config : OutputConfig} {directory : Path} {job tag : String} {rt : Router World}
    (hformat : config.format = .sqlite) (h : Opened directory job w rt w') :
    SteadyLedger config job directory tag w (fun _ => True) rt
      (Holds w.exports.length (place directory job).resolve
        fun ch => (w.files.table? (place directory job).resolve ch.name).getD []) where
  toLedger := (ledger hformat h).mono Set.subset_union_left
  takes := by
    intro ch e l r v he hl
    rw [h.get?_exporters ch] at he
    cases he
    obtain ⟨t', hinsert, -⟩ := hl.insert ch r
    exact ⟨fun _ => trivial, fun _ => ⟨t', hinsert⟩⟩
  returns := by
    intro l v hl
    obtain ⟨v', hv', -⟩ := h.closing hl
    exact ⟨v', hv'⟩

end TableExport

end DocFetch

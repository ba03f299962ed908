import DocFetch.Files.Tree

/-! # What a file tree holds

Directories, the bytes of files and the databases in them, before and after each operation on the tree.
-/

namespace DocFetch

/-! ## Tables -/

namespace Database

/-- The rows of a table for exported records, if there is one by that name. -/
def table? (d : Database) (name : String) : Option (List ExportRow) :=
  (d.exports.find? fun t => sameName t.1 name).map Prod.snd

theorem hasSchema_withSchema (d : Database) : d.withSchema.HasSchema := ⟨rfl, rfl⟩

theorem sameName_iff {a b : String} : sameName a b = true ↔ a.toLower = b.toLower := decide_eq_true_iff

theorem table?_createExports {d d' : Database} {made : String} (h : d.createExports made = .ok d')
    (name : String) :
    d'.table? name = if d.table? name = none ∧ sameName made name then some [] else d.table? name := by
  unfold createExports at h
  split at h
  · cases h
  split at h
  · rename_i hany
    cases h
    obtain ⟨t, ht, hmade⟩ := List.any_eq_true.mp hany
    rw [if_neg]
    rintro ⟨hnone, hsame⟩
    rw [table?, Option.map_eq_none_iff, List.find?_eq_none] at hnone
    rw [sameName_iff] at hmade hsame
    exact hnone t ht (sameName_iff.mpr (hmade.trans hsame))
  · cases h
    unfold table?
    rw [List.find?_append, List.find?_singleton]
    rcases hfind : d.exports.find? fun t => sameName t.1 name with _ | t
    · by_cases hsame : sameName made name = true
      · simp [hfind, hsame]
      · simp [hfind, hsame]
    · simp [hfind]

theorem table?_insertExport (d : Database) (made name : String) (row : ExportRow) :
    (d.insertExport made row).table? name =
      if sameName made name then (d.table? name).map (· ++ [row]) else d.table? name := by
  unfold table? insertExport
  dsimp only
  induction d.exports with
  | nil => simp
  | cons t rest ih =>
    rw [List.map_cons, List.find?_cons, List.find?_cons]
    by_cases hname : sameName t.1 name = true
    · have hmade : sameName t.1 made = sameName made name := by
        rw [Bool.eq_iff_iff, sameName_iff, sameName_iff, sameName_iff.mp hname]
        exact eq_comm
      by_cases hsame : sameName made name = true
      · simp [hname, hmade, hsame]
      · simp [hname, hmade, hsame]
    · have hmoved (rows : List ExportRow) :
          sameName (if sameName t.1 made then (t.1, rows) else t).1 name = false := by
        split <;> simpa using hname
      simp only [hmoved, hname, ih]

end Database

/-! ## Places -/

namespace FileTree

variable {t t' : FileTree} {p q : Path} {above : Path} {names : List String}

theorem get?_put_of_ne (t : FileTree) (h : p ≠ q) (n : Node) : (t.put p n).get? q = t.get? q := by
  unfold get? put
  rw [Assoc.get?_put_of_ne h]

theorem get?_put_self (t : FileTree) (h : t.isDirectory p = false) (n : Node) :
    (t.put p n).get? p = some n := by
  unfold get? put
  rw [if_neg, Assoc.get?_put_self]
  intro hroot
  simp [isDirectory, get?, hroot] at h

theorem isDirectory_iff : t.isDirectory p = true ↔ t.get? p = some .directory := by
  unfold isDirectory
  split
  · simp [*]
  · rename_i h
    simpa using fun hnode => h hnode

theorem walk_cons_eq_ok {n : String} :
    t.walk above (n :: names) = .ok q ↔
      n = ".." ∧ t.walk above.parent names = .ok q ∨
      n ≠ ".." ∧ tooLong n = false ∧
        (names = [] ∧ q = above.child n ∨
          names ≠ [] ∧ t.isDirectory (above.child n) = true ∧ t.walk (above.child n) names = .ok q) := by
  rw [walk]
  by_cases hdots : n = ".."
  · simp [hdots]
  by_cases hlong : tooLong n = true
  · simp [hdots, hlong]
  by_cases hempty : names = []
  · simp only [hdots, hlong, hempty, List.isEmpty_nil, if_true, if_false, false_and, false_or, ne_eq,
      not_false_eq_true, not_true_eq_false, true_and, or_false, Except.ok.injEq, Bool.false_eq_true]
    exact eq_comm
  have hnames : names.isEmpty = false := by simpa using hempty
  simp only [hdots, hlong, hempty, hnames, if_false, false_and, false_or, ne_eq, not_false_eq_true, true_and,
    isDirectory_iff, Bool.false_eq_true]
  rcases hnode : t.get? (above.child n) with _ | node
  · simp
  · cases node <;> simp

theorem walk_eq_ok (h : t.walk above names = .ok q) :
    q = { root := above.root, parts := Path.follow above.parts.reverse names } := by
  induction names generalizing above with
  | nil =>
    cases h
    simp [Path.follow]
  | cons n rest ih =>
    have hchild : (above.child n).parts.reverse = n :: above.parts.reverse := by simp [Path.child]
    rw [Path.follow]
    rcases walk_cons_eq_ok.mp h with ⟨hdots, hrest⟩ | ⟨hdots, -, ⟨rfl, rfl⟩ | ⟨-, -, hrest⟩⟩
    · rw [if_pos hdots, ih hrest, Path.parent, List.tail_reverse]
    · rw [if_neg hdots, Path.follow, ← hchild, List.reverse_reverse]
      rfl
    · rw [if_neg hdots, ih hrest, hchild]
      rfl

/-- A path leads to where it resolves to, if it leads anywhere. -/
theorem locate_eq_ok (h : t.locate p = .ok q) : q = p.resolve := by
  unfold locate at h
  split at h
  · cases h
  · exact walk_eq_ok h

theorem walk_mono (hmono : ∀ q, t.isDirectory q = true → t'.isDirectory q = true)
    (h : t.walk above names = .ok q) : t'.walk above names = .ok q := by
  induction names generalizing above with
  | nil => exact h
  | cons n rest ih =>
    rw [walk_cons_eq_ok] at h ⊢
    rcases h with ⟨hdots, hrest⟩ | ⟨hdots, hshort, hempty | ⟨hmore, hdirectory, hrest⟩⟩
    · exact .inl ⟨hdots, ih hrest⟩
    · exact .inr ⟨hdots, hshort, .inl hempty⟩
    · exact .inr ⟨hdots, hshort, .inr ⟨hmore, hmono _ hdirectory, ih hrest⟩⟩

theorem locate_mono (hmono : ∀ q, t.isDirectory q = true → t'.isDirectory q = true)
    (h : t.locate p = .ok q) : t'.locate p = .ok q := by
  unfold locate at h ⊢
  split at h
  · cases h
  · rename_i hnul
    rw [if_neg hnul]
    exact walk_mono hmono h

/-! ## Operations -/

/-- Whether a file can be opened for writing at its end. -/
def Opens (t : FileTree) (p : Path) : Prop := t.locate p = .ok p.resolve ∧ t.isDirectory p.resolve = false

/-- What writing at the end of a file does. -/
structure Appended (t : FileTree) (p : Path) (content : ByteArray) (t' : FileTree) : Prop where
  text_self : t'.textAt p.resolve = t.textAt p.resolve ++ content
  other : ∀ q, q ≠ p.resolve → t'.get? q = t.get? q
  database : ∀ q, t'.databaseAt q = t.databaseAt q
  directory : ∀ q, t'.isDirectory q = t.isDirectory q
  file : t'.isFile p.resolve = true

theorem Opens.congr (h : t.Opens p) (hsame : ∀ q, t'.isDirectory q = t.isDirectory q) : t'.Opens p :=
  ⟨locate_mono (fun q hq => by rwa [hsame]) h.1, by rw [hsame]; exact h.2⟩

theorem openEnd_eq_ok : t.openEnd p = .ok q ↔ t.Opens p ∧ q = p.resolve := by
  unfold openEnd Opens
  rcases hplace : t.locate p with e | place
  · constructor
    · intro h
      cases h
    · rintro ⟨⟨h, -⟩, -⟩
      cases h
  · obtain rfl := locate_eq_ok hplace
    change (if t.isDirectory p.resolve = true then Except.error (Failure.fault .isDirectory)
      else Except.ok p.resolve) = _ ↔ _
    by_cases hdirectory : t.isDirectory p.resolve = true
    · simp [hdirectory]
    · simp only [hdirectory, if_false, Except.ok.injEq, Bool.false_eq_true, true_and]
      exact eq_comm

/-- The node that is there after something was written at the end of a file. -/
def appended (t : FileTree) (p : Path) (content : ByteArray) : Node :=
  match t.databaseAt p with
  | some d => .database d (t.textAt p ++ content)
  | none => .file (t.textAt p ++ content)

theorem append_of_opens (h : t.Opens p) (content : ByteArray) :
    t.append p content = .ok (t.put p.resolve (t.appended p.resolve content)) := by
  unfold append
  rw [openEnd_eq_ok.mpr ⟨h, rfl⟩]
  change (match t.databaseAt p.resolve with
    | some d => pure (t.put p.resolve (.database d (t.textAt p.resolve ++ content)))
    | none => pure (t.put p.resolve (.file (t.textAt p.resolve ++ content)))) = _
  unfold appended
  cases t.databaseAt p.resolve <;> rfl

theorem appended_of_opens (h : t.Opens p) (content : ByteArray) :
    Appended t p content (t.put p.resolve (t.appended p.resolve content)) := by
  have hself := get?_put_self t h.2 (t.appended p.resolve content)
  have hother (q : Path) (hq : q ≠ p.resolve) := get?_put_of_ne t hq.symm (t.appended p.resolve content)
  refine ⟨?_, hother, ?_, ?_, ?_⟩
  · rw [textAt, hself]
    unfold appended
    cases t.databaseAt p.resolve <;> rfl
  · intro q
    by_cases hq : q = p.resolve
    · subst hq
      rw [databaseAt, hself]
      unfold appended
      cases t.databaseAt p.resolve <;> rfl
    · rw [databaseAt, hother q hq]
      rfl
  · intro q
    by_cases hq : q = p.resolve
    · subst hq
      rw [h.2, isDirectory, hself]
      unfold appended
      cases t.databaseAt p.resolve <;> rfl
    · rw [isDirectory, hother q hq]
      rfl
  · rw [isFile, hself]
    unfold appended
    cases t.databaseAt p.resolve <;> rfl

theorem append_eq_ok {content : ByteArray} (h : t.append p content = .ok t') :
    t.Opens p ∧ Appended t p content t' := by
  have hopens : t.Opens p := by
    rcases hplace : t.openEnd p with e | q
    · unfold append at h
      rw [hplace] at h
      cases h
    · exact (openEnd_eq_ok.mp hplace).1
  rw [append_of_opens hopens] at h
  cases h
  exact ⟨hopens, appended_of_opens hopens content⟩

theorem write_eq_append (h : t.exists? p = .ok false) (content : ByteArray) :
    t.write p content = t.append p content := by
  rcases hplace : t.openEnd p with e | q
  · unfold write append
    rw [hplace]
    rfl
  obtain ⟨⟨hlocate, -⟩, rfl⟩ := openEnd_eq_ok.mp hplace
  have hnone : t.get? p.resolve = none := by
    unfold exists? look at h
    rw [hlocate] at h
    have hsome : (t.get? p.resolve).isSome = false := Except.ok.inj h
    simpa using hsome
  have hdatabase : t.databaseAt p.resolve = none := by rw [databaseAt, hnone]
  have htext : t.textAt p.resolve = .empty := by rw [textAt, hnone]
  rw [append_of_opens (openEnd_eq_ok.mp hplace).1, appended, hdatabase, htext, ByteArray.empty_append]
  unfold write
  rw [hplace]
  rfl

theorem write_of_opens (h : t.Opens p) (content : ByteArray) :
    t.write p content = .ok (t.put p.resolve (.file content)) := by
  unfold write
  rw [openEnd_eq_ok.mpr ⟨h, rfl⟩]
  rfl

theorem write_of_not_opens (h : ¬ t.Opens p) (content : ByteArray) : ∃ e, t.write p content = .error e := by
  unfold write
  cases hplace : t.openEnd p with
  | ok q => exact absurd (openEnd_eq_ok.mp hplace).1 h
  | error e => exact ⟨e, rfl⟩

theorem isDirectory_put_file (h : t.isDirectory p = false) (content : ByteArray) (q : Path) :
    (t.put p (.file content)).isDirectory q = t.isDirectory q := by
  by_cases hq : q = p
  · rw [hq, h, isDirectory, get?_put_self t h]
  · rw [isDirectory, get?_put_of_ne t (Ne.symm hq)]
    rfl

theorem exists?_of_locate (h : t.locate p = .ok q) : t.exists? p = .ok (t.get? q).isSome := by
  unfold exists? look
  rw [h]
  rfl

theorem exists?_of_locate_system (h : t.locate p = .error (.fault .system)) :
    t.exists? p = .error (.fault .system) := by
  unfold exists? look
  rw [h]
  rfl

theorem read_of_file (h : t.locate p = .ok q) {content : ByteArray} (hfile : t.get? q = some (.file content)) :
    t.read p = .ok content := by
  have hplace : t.locate p = pure q := h
  unfold read
  rw [hplace, pure_bind, hfile]
  dsimp only
  rw [textAt, hfile]

theorem remove_of_file (h : t.locate p = .ok q) {content : ByteArray} (hfile : t.get? q = some (.file content)) :
    t.remove p = .ok (t.erase q) := by
  have hplace : t.locate p = pure q := h
  unfold remove
  rw [hplace, pure_bind, hfile]
  rfl

theorem get?_erase_self (t : FileTree) (h : t.isDirectory p = false) : (t.erase p).get? p = none := by
  unfold get? erase
  rw [if_neg, Assoc.get?_erase_self]
  intro hroot
  simp [isDirectory, get?, hroot] at h

theorem get?_erase_of_ne (t : FileTree) (h : p ≠ q) : (t.erase p).get? q = t.get? q := by
  unfold get? erase
  rw [Assoc.get?_erase_of_ne h]

theorem isDirectory_erase (h : t.isDirectory p = false) (q : Path) :
    (t.erase p).isDirectory q = t.isDirectory q := by
  by_cases hq : q = p
  · rw [hq, h, isDirectory, get?_erase_self t h]
  · rw [isDirectory, get?_erase_of_ne t (Ne.symm hq)]
    rfl

/-- What making directories does: nothing where there was something. -/
def MadeDirectories (t t' : FileTree) : Prop :=
  ∀ q, t'.get? q = t.get? q ∨ t.get? q = none ∧ t'.get? q = some .directory

theorem MadeDirectories.refl (t : FileTree) : MadeDirectories t t := fun _ => .inl rfl

theorem MadeDirectories.trans {u : FileTree} (h : MadeDirectories t t') (h' : MadeDirectories t' u) :
    MadeDirectories t u := by
  intro q
  rcases h q with hsame | ⟨hnone, hmade⟩ <;> rcases h' q with hsame' | ⟨hnone', hmade'⟩
  · exact .inl (hsame'.trans hsame)
  · exact .inr ⟨hsame ▸ hnone', hmade'⟩
  · exact .inr ⟨hnone, hsame'.trans hmade⟩
  · rw [hmade] at hnone'
    cases hnone'

theorem makeDirectoriesFrom_eq_ok (h : t.makeDirectoriesFrom above names = .ok t') :
    MadeDirectories t t' := by
  induction names generalizing t above with
  | nil =>
    cases h
    exact .refl _
  | cons n rest ih =>
    unfold makeDirectoriesFrom at h
    dsimp only at h
    split at h
    · exact ih h
    split at h
    · cases h
    split at h
    · exact ih h
    · cases h
    · rename_i hnone
      refine MadeDirectories.trans ?_ (ih h)
      intro q
      by_cases hq : q = above.child n
      · subst hq
        exact .inr ⟨hnone, get?_put_self t (by simp [isDirectory, hnone]) _⟩
      · exact .inl (get?_put_of_ne t (Ne.symm hq) _)

theorem makeDirectories_eq_ok (h : t.makeDirectories p = .ok t') : MadeDirectories t t' := by
  unfold makeDirectories at h
  split at h
  · cases h
  · exact makeDirectoriesFrom_eq_ok h

theorem MadeDirectories.textAt (h : MadeDirectories t t') (q : Path) : t'.textAt q = t.textAt q := by
  unfold FileTree.textAt
  rcases h q with hsame | ⟨hnone, hmade⟩
  · rw [hsame]
  · rw [hnone, hmade]

theorem MadeDirectories.databaseAt (h : MadeDirectories t t') (q : Path) :
    t'.databaseAt q = t.databaseAt q := by
  unfold FileTree.databaseAt
  rcases h q with hsame | ⟨hnone, hmade⟩
  · rw [hsame]
  · rw [hnone, hmade]

theorem MadeDirectories.isFile (h : MadeDirectories t t') (q : Path) : t'.isFile q = t.isFile q := by
  unfold FileTree.isFile
  rcases h q with hsame | ⟨hnone, hmade⟩
  · rw [hsame]
  · rw [hnone, hmade]

theorem MadeDirectories.isDirectory (h : MadeDirectories t t') {q : Path} (hq : t.isDirectory q = true) :
    t'.isDirectory q = true := by
  rw [isDirectory_iff] at hq ⊢
  rcases h q with hsame | ⟨hnone, -⟩
  · exact hsame.trans hq
  · rw [hq] at hnone
    cases hnone

/-- What opening a database does: an empty one is there where there was no file or an empty one. -/
structure OpenedDatabase (t : FileTree) (p : Path) (q : Path) (t' : FileTree) : Prop where
  place : q = p.resolve
  text : ∀ r, t'.textAt r = t.textAt r
  other : ∀ r, r ≠ q → t'.get? r = t.get? r
  database : t'.databaseAt q = t.databaseAt q ∨ t.databaseAt q = none ∧ t'.databaseAt q = some {}
  directory : ∀ r, t'.isDirectory r = t.isDirectory r

private theorem openedDatabase_of_empty (hplace : q = p.resolve) (hfile : t.isDirectory q = false)
    (htext : t.textAt q = .empty) (hnone : t.databaseAt q = none) :
    OpenedDatabase t p q (t.put q (.database {})) := by
  have hself := get?_put_self t hfile (.database {})
  have hother (r : Path) (hr : r ≠ q) := get?_put_of_ne t hr.symm (.database {})
  refine ⟨hplace, ?_, hother, .inr ⟨hnone, by rw [databaseAt, hself]⟩, ?_⟩
  · intro r
    by_cases hr : r = q
    · rw [hr, htext, textAt, hself]
    · rw [textAt, hother r hr]
      rfl
  · intro r
    by_cases hr : r = q
    · rw [hr, hfile, isDirectory, hself]
    · rw [isDirectory, hother r hr]
      rfl

theorem openDatabase_eq_ok (h : t.openDatabase p = .ok (q, t')) : OpenedDatabase t p q t' := by
  unfold openDatabase at h
  split at h
  · cases h
  · cases h
  rename_i place hplace
  obtain rfl := locate_eq_ok hplace
  split at h
  · cases h
  · rename_i b hnode
    cases h
    split
    · rename_i hempty
      have htext : t.textAt p.resolve = .empty := by
        rw [textAt, hnode]
        exact ByteArray.ext (Array.isEmpty_iff.mp hempty)
      exact openedDatabase_of_empty rfl (by simp [isDirectory, hnode]) htext (by simp [databaseAt, hnode])
    · exact ⟨rfl, fun _ => rfl, fun _ _ => rfl, .inl rfl, fun _ => rfl⟩
  · rename_i hnode
    cases h
    exact ⟨rfl, fun _ => rfl, fun _ _ => rfl, .inl rfl, fun _ => rfl⟩
  · rename_i hnode
    cases h
    exact openedDatabase_of_empty rfl (by simp [isDirectory, hnode]) (by simp [textAt, hnode])
      (by simp [databaseAt, hnode])

/-- What putting a database in a file does. -/
structure PutDatabase (t : FileTree) (p : Path) (d : Database) (t' : FileTree) : Prop where
  self : t'.databaseAt p = some d
  text : ∀ q, t'.textAt q = t.textAt q
  other : ∀ q, q ≠ p → t'.get? q = t.get? q
  directory : ∀ q, t'.isDirectory q = t.isDirectory q

theorem putDatabase_spec (h : t.isDirectory p = false) (d : Database) :
    PutDatabase t p d (t.putDatabase p d) := by
  have hself := get?_put_self t h (.database d (t.textAt p))
  have hother (q : Path) (hq : q ≠ p) := get?_put_of_ne t hq.symm (.database d (t.textAt p))
  unfold putDatabase
  refine ⟨by rw [databaseAt, hself], ?_, hother, ?_⟩
  · intro q
    by_cases hq : q = p
    · rw [hq, textAt, hself]
    · rw [textAt, hother q hq]
      rfl
  · intro q
    by_cases hq : q = p
    · rw [hq, h, isDirectory, hself]
    · rw [isDirectory, hother q hq]
      rfl

theorem putDatabase_of_databaseAt {d : Database} (h : t.databaseAt p = some d) : t.putDatabase p d = t := by
  unfold databaseAt at h
  split at h
  · rename_i content tail hnode
    cases h
    have htext : t.textAt p = tail := by rw [textAt, hnode]
    rw [putDatabase, htext, put, Assoc.put_of_get?]
    unfold get? at hnode
    split at hnode
    · cases hnode
    · exact hnode
  · cases h

theorem database_eq_ok {d : Database} (h : t.database p = .ok d) :
    t.isDirectory p = false ∧ d = (t.databaseAt p).getD {} := by
  unfold database at h
  unfold isDirectory databaseAt
  split at h
  · rename_i hnode
    cases h
    simp [hnode]
  · cases h
  · cases h
  · rename_i hnode
    cases h
    simp [hnode]

theorem database_of_databaseAt {d : Database} (h : t.databaseAt p = some d) : t.database p = .ok d := by
  unfold databaseAt at h
  unfold database
  split at h
  · rename_i hnode
    cases h
    rw [hnode]
  · cases h

theorem isFile_of_read {b : ByteArray} (hp : p.resolve = p) (h : t.read p = .ok b) :
    t.isFile p = true := by
  unfold read at h
  cases hplace : t.locate p with
  | error e =>
    rw [hplace] at h
    cases h
  | ok q =>
    have hq : t.locate p = pure p := by rw [hplace, locate_eq_ok hplace, hp]; rfl
    rw [hq, pure_bind] at h
    unfold isFile
    split at h
    · cases h
    · rename_i node hdirectory hnode
      rw [hnode]
      cases node with
      | directory => exact absurd rfl hdirectory
      | file | database => rfl
    · cases h

theorem exists?_of_read {b : ByteArray} (h : t.read p = .ok b) : t.exists? p = .ok true := by
  unfold read at h
  cases hplace : t.locate p with
  | error e =>
    rw [hplace] at h
    cases h
  | ok q =>
    have hq : t.locate p = pure q := hplace
    rw [hq, pure_bind] at h
    rw [exists?_of_locate hplace]
    cases hnode : t.get? q with
    | none =>
      rw [hnode] at h
      cases h
    | some node => rfl

/-! ## What a directory lists -/

theorem mem_children_iff {name : String} : p.child name ∈ t.children p ↔ (t.get? (p.child name)).isSome = true := by
  have hbelow : (p.child name).parent = p ∧ p.child name ≠ p := by
    refine ⟨by simp [Path.parent, Path.child], fun heq => ?_⟩
    have hlength := congrArg (fun q => q.parts.length) heq
    simp [Path.child] at hlength
  unfold children get?
  rw [List.mem_filter, if_neg (by simp [Path.child]), Assoc.isSome_get?_iff]
  exact and_iff_left (decide_eq_true hbelow)

theorem exists_name_of_mem_children (h : q ∈ t.children p) : ∃ name, q = p.child name := by
  obtain ⟨hparent, hne⟩ := of_decide_eq_true (List.mem_filter.mp h).2
  obtain ⟨root, parts⟩ := q
  rcases List.eq_nil_or_concat parts with rfl | ⟨init, last, rfl⟩
  · exact absurd hparent hne
  · exact ⟨last, by rw [← hparent]; simp [Path.parent, Path.child]⟩

theorem mem_children_put {n : Node} {d : Path} (h : q ∈ (t.put p n).children d) : q = p ∨ q ∈ t.children d := by
  obtain ⟨hkey, hbelow⟩ := List.mem_filter.mp h
  rw [put, Assoc.keys_put] at hkey
  split at hkey
  · exact .inr (List.mem_filter.mpr ⟨hkey, hbelow⟩)
  · rcases List.mem_append.mp hkey with hold | hnew
    · exact .inr (List.mem_filter.mpr ⟨hold, hbelow⟩)
    · exact .inl (List.mem_singleton.mp hnew)

theorem children_erase_sublist (t : FileTree) (p d : Path) : ((t.erase p).children d).Sublist (t.children d) :=
  (List.filter_sublist.map Prod.fst).filter _

theorem nodup_children_put (h : (t.children q).Nodup) (p : Path) (n : Node) : ((t.put p n).children q).Nodup := by
  unfold children put at *
  rw [Assoc.keys_put]
  split
  · exact h
  · rename_i hnew
    rw [List.filter_append]
    have hlast : (List.filter (fun p => decide (p.parent = q ∧ p ≠ q)) [p]).Nodup :=
      (List.pairwise_singleton _ p).sublist List.filter_sublist
    refine List.nodup_append.mpr ⟨h, hlast, fun a ha b hb hab => hnew ?_⟩
    have hb' : b = p := List.mem_singleton.mp (List.mem_filter.mp hb).1
    rw [← hb', ← hab]
    exact (List.mem_filter.mp ha).1

theorem erase_of_get?_eq_none (h : t.get? p = none) : t.erase p = t := by
  have hkey : Assoc.get? p t.nodes = none := by
    unfold get? at h
    split at h
    · cases h
    · exact h
  rw [erase, Assoc.erase_of_get?_eq_none hkey]

end FileTree

end DocFetch

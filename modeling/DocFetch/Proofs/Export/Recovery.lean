import DocFetch.Proofs.Export.Formats
import DocFetch.Proofs.Record.Reading

/-! # Exported records recovered

An exporter to a file writes one line for a record, from which the record is read back. However its writes, flushes
and closings follow each other, the file holds the records of its earlier runs and those written since, in order.
-/

namespace DocFetch

/-! ## Lines -/

/-- The records of a text in which every line ends in a line feed. -/
def Record.ofLines? (s : String) : Option (List Record) :=
  let pieces := (s.toList.splitOn '\n').map String.ofList
  if pieces.getLast? = some "" then pieces.dropLast.mapM ofLine? else none

namespace FileExport

theorem mapM_payloads {records : List Record} (h : ∀ r ∈ records, r.names.Nodup) :
    (payloads records).mapM Record.ofLine? = some records := by
  induction records with
  | nil => rfl
  | cons r rest ih =>
    rw [List.forall_mem_cons] at h
    have hrest : (rest.map fun r => Json.write r.toValue).mapM Record.ofLine? = some rest := ih h.2
    rw [payloads, List.map_cons, List.mapM_cons, Record.ofLine?_write h.1, hrest]
    rfl

theorem ofLines?_lines {records : List Record} (h : ∀ r ∈ records, r.names.Nodup) :
    Record.ofLines? (lines records) = some records := by
  unfold Record.ofLines?
  dsimp only
  rw [splitOn_lines, List.getLast?_concat, List.dropLast_concat, if_pos rfl, mapM_payloads h]

theorem lines_append (earlier records : List Record) :
    lines (earlier ++ records) = lines earlier ++ lines records := by
  simp [lines, String.join_append]

/-! ## Uses of one exporter -/

inductive Use
  | write (r : Record)
  | flush
  | close

namespace Use

def perform (e : Exporter World) : Use → Action World Unit
  | write r => e.write r
  | flush => e.flush
  | close => e.close

def records : Use → List Record
  | write r => [r]
  | flush | close => []

end Use

/-- The records that are written, in order. -/
def written (uses : List Use) : List Record := uses.flatMap Use.records

/-- Uses an exporter and closes it. -/
def useAll (e : Exporter World) (uses : List Use) : Action World Unit := do
  uses.forM fun u => u.perform e
  e.close

/-- What a file and the stream of its exporter hold, while the directories are those of `t`. -/
structure Held (t : FileTree) (path : Path) (before : ByteArray) (n : Nat) (records : List Record) (w : World)
    (s : Stream) : Prop where
  same : SameDirectories t w
  stream : w.streams[n]? = some s
  stores : Stores path before (t.Opens path) records w.files s

namespace Held

variable {t : FileTree} {path : Path} {before : ByteArray} {n : Nat} {records records' : List Record} {w w' : World}
  {s : Stream} {r : Record}

theorem stepped {files : FileTree} {f : Stream → Stream} (h : Held t path before n records w s)
    (hfiles : ∀ q, files.isDirectory q = w.files.isDirectory q)
    (hstores : Stores path before (t.Opens path) records' files (f s)) :
    Held t path before n records' (stepped w files n f) (f s) where
  same q := (hfiles q).trans (h.same q)
  stream := by
    change (w.streams.modify n f)[n]? = _
    rw [List.getElem?_modify_eq, h.stream]
    rfl
  stores := hstores

/-! ### Uses that return -/

theorem write (h : Held t path before n records w s) (hwrite : (write n r).exec w = (.ok (), w')) :
    ∃ s', Held t path before n (records ++ [r]) w' s' := by
  rw [exec_write h.stream] at hwrite
  split at hwrite
  · rename_i hopen
    cases hwrite
    exact ⟨_, h.stepped (fun _ => rfl) (h.stores.wrote (.refl ∅ w.files) (h.stores.isOpen hopen) r)⟩
  · split at hwrite
    · rename_i files happend
      cases hwrite
      obtain ⟨hopens, happended⟩ := FileTree.append_eq_ok happend
      rw [h.stores.path] at hopens
      refine ⟨_, h.stepped happended.directory (h.stores.wrote (.of_append_empty happend) ?_ r)⟩
      exact hopens.congr fun q => (h.same q).symm
    · cases hwrite

theorem flush (h : Held t path before n records w s) (hflush : (flush n).exec w = (.ok (), w')) :
    ∃ s', Held t path before n records w' s' ∧ s'.pending = "" := by
  rw [exec_flush h.stream] at hflush
  split at hflush
  · split at hflush
    · rename_i files happend
      cases hflush
      obtain ⟨-, happended⟩ := FileTree.append_eq_ok happend
      exact ⟨_, h.stepped happended.directory (h.stores.flushed happended), rfl⟩
    · cases hflush
  · rename_i hclosed
    cases hflush
    exact ⟨s, h, h.stores.closed (by simpa using hclosed)⟩

theorem close (h : Held t path before n records w s) (hclose : (close n).exec w = (.ok (), w')) :
    ∃ s', Held t path before n records w' s' ∧ s'.pending = "" := by
  obtain ⟨_, w₁, hflush, hshut⟩ := Action.exec_bind_eq_ok hclose
  cases hshut
  obtain ⟨s₁, h₁, hpending⟩ := h.flush hflush
  exact ⟨shut s₁, h₁.stepped (f := shut) (fun _ => rfl) ⟨h₁.stores.path, h₁.stores.text, fun _ => hpending, nofun⟩,
    hpending⟩

theorem perform {u : Use} (h : Held t path before n records w s)
    (hu : (u.perform (exporterOf n)).exec w = (.ok (), w')) :
    ∃ s', Held t path before n (records ++ u.records) w' s' := by
  cases u with
  | write r => exact h.write hu
  | flush =>
    obtain ⟨s', h', -⟩ := h.flush hu
    exact ⟨s', by rwa [Use.records, List.append_nil]⟩
  | close =>
    obtain ⟨s', h', -⟩ := h.close hu
    exact ⟨s', by rwa [Use.records, List.append_nil]⟩

theorem performAll {uses : List Use} (h : Held t path before n records w s)
    (huses : (uses.forM fun u => u.perform (exporterOf n)).exec w = (.ok (), w')) :
    ∃ s', Held t path before n (records ++ written uses) w' s' := by
  -- each use adds its records to those held, so they grow along the uses
  induction uses generalizing records w s with
  | nil =>
    cases huses
    exact ⟨s, by rwa [written, List.flatMap_nil, List.append_nil]⟩
  | cons u rest ih =>
    obtain ⟨_, w₁, hfirst, hrest⟩ := Action.exec_bind_eq_ok huses
    obtain ⟨s₁, h₁⟩ := h.perform hfirst
    rw [written, List.flatMap_cons, ← List.append_assoc]
    exact ih h₁ hrest

/-- Once the exporter is closed all records are in the file. -/
theorem textAt_useAll {uses : List Use} (h : Held t path before n records w s)
    (huses : (useAll (exporterOf n) uses).exec w = (.ok (), w')) :
    w'.files.textAt path.resolve = before ++ Text.encodeUtf8 (lines (records ++ written uses)) := by
  obtain ⟨_, w₁, hall, hclose⟩ := Action.exec_bind_eq_ok huses
  obtain ⟨s₁, h₁⟩ := h.performAll hall
  obtain ⟨s₂, h₂, hpending⟩ := h₁.close hclose
  have htext := h₂.stores.text
  rwa [hpending, Text.encodeUtf8_empty, ByteArray.append_empty] at htext

/-! ### Files that can be opened -/

theorem write_returns (h : Held t path before n records w s) (hopens : t.Opens path) (r : Record) :
    ∃ w', (FileExport.write n r).exec w = (.ok (), w') := by
  rw [exec_write h.stream, h.stores.path, FileTree.append_of_opens (hopens.congr h.same)]
  split <;> exact ⟨_, rfl⟩

theorem flush_returns (h : Held t path before n records w s) (hopens : t.Opens path) :
    ∃ w', (FileExport.flush n).exec w = (.ok (), w') := by
  rw [exec_flush h.stream, h.stores.path, FileTree.append_of_opens (hopens.congr h.same)]
  split <;> exact ⟨_, rfl⟩

theorem close_returns (h : Held t path before n records w s) (hopens : t.Opens path) :
    ∃ w', (FileExport.close n).exec w = (.ok (), w') := by
  obtain ⟨w₁, hflush⟩ := h.flush_returns hopens
  exact ⟨_, Action.exec_bind_ok hflush _⟩

theorem perform_returns (h : Held t path before n records w s) (hopens : t.Opens path) (u : Use) :
    ∃ w', (u.perform (exporterOf n)).exec w = (.ok (), w') := by
  cases u with
  | write r => exact h.write_returns hopens r
  | flush => exact h.flush_returns hopens
  | close => exact h.close_returns hopens

theorem useAll_returns (h : Held t path before n records w s) (hopens : t.Opens path) (uses : List Use) :
    ∃ w', (useAll (exporterOf n) uses).exec w = (.ok (), w') := by
  have hall : ∃ w', (uses.forM fun u => u.perform (exporterOf n)).exec w = (.ok (), w') := by
    induction uses generalizing records w s with
    | nil => exact ⟨w, rfl⟩
    | cons u rest ih =>
      obtain ⟨w₁, hfirst⟩ := h.perform_returns hopens u
      obtain ⟨s₁, h₁⟩ := h.perform hfirst
      obtain ⟨w', hrest⟩ := ih h₁
      exact ⟨w', by rw [← hrest]; exact Action.exec_bind_ok hfirst _⟩
  obtain ⟨w₁, hall⟩ := hall
  obtain ⟨s₁, h₁⟩ := h.performAll hall
  obtain ⟨w', hclose⟩ := h₁.close_returns hopens
  exact ⟨w', by rw [← hclose]; exact Action.exec_bind_ok hall _⟩

end Held

theorem held_openAt {directory : Path} {job channel tag : String} {w w' : World} {e : Exporter World}
    (h : (openAt directory job channel tag).exec w = (.ok e, w')) :
    e = exporterOf w.streams.length ∧
      Held w'.files (directory.child (fileName job channel tag))
        (w.files.textAt (directory.child (fileName job channel tag)).resolve) w.streams.length [] w'
        { path := directory.child (fileName job channel tag) } := by
  obtain ⟨files, hfiles, rfl, rfl⟩ := openAt_eq_ok h
  refine ⟨rfl, fun _ => rfl, ?_, rfl, ?_, fun _ => rfl, nofun⟩
  · rw [List.getElem?_append_right (le_refl _), Nat.sub_self]
    rfl
  · congr 1
    exact (FileTree.makeDirectories_eq_ok hfiles).textAt _

/-- Records have one value to a name. A record has one line, from which it is read back with its uuid, attributes and
payload. A file holds the records of all runs of exporters to it, which are read back line by line. And records are
equal just if their plain data hold the same texts. -/
theorem records_recovered :
    (∀ (uuid : String) (payload attributes : Value) (r : Record),
      Record.ofParts uuid payload attributes = .ok r → r.names.Nodup) ∧
    (∀ (r : Record) (updates : Attributes), r.names.Nodup → (r.withAttributes updates).names.Nodup) ∧
    (∀ r : Record, r.names.Nodup →
      ∃ text, line r = text ++ "\n" ∧ '\n' ∉ text.toList ∧ Record.ofLine? text = some r) ∧
    (∀ (directory : Path) (job channel tag : String) (w w' : World) (e : Exporter World) (earlier : List Record)
      (uses : List Use),
      (openAt directory job channel tag).exec w = (.ok e, w') →
      let path := directory.child (fileName job channel tag)
      w.files.textAt path.resolve = Text.encodeUtf8 (lines earlier) →
      (∀ r ∈ earlier ++ written uses, r.names.Nodup) →
      (w'.files.Opens path → ∃ x, (useAll e uses).exec w' = (.ok (), x)) ∧
      ∀ x, (useAll e uses).exec w' = (.ok (), x) →
        (Text.decodeUtf8? (x.files.textAt path.resolve)).bind Record.ofLines? = some (earlier ++ written uses)) ∧
    ∀ x y : Record, x.names.Nodup → y.names.Nodup →
      (x.same y = true ↔ ∀ path, x.toValue.textAt? path = y.toValue.textAt? path) := by
  refine ⟨fun _ _ _ _ h => Record.nodup_names_ofParts h, fun _ updates h => Record.nodup_names_withAttributes h updates,
    fun r hr => ?_, ?_, fun x y hx hy => Record.same_iff_textAt? hx hy⟩
  · exact ⟨Json.write r.toValue, rfl, (Json.noControl_write r.toValue).newline_notMem, Record.ofLine?_write hr⟩
  · intro directory job channel tag w w' e earlier uses hopen path hearlier hnames
    obtain ⟨rfl, hheld⟩ := held_openAt hopen
    refine ⟨fun hopens => hheld.useAll_returns hopens uses, fun x hx => ?_⟩
    rw [hheld.textAt_useAll hx, List.nil_append, hearlier, ← Text.encodeUtf8_append, ← lines_append,
      Text.decodeUtf8?_encodeUtf8, Option.bind_some, ofLines?_lines hnames]

/-- A file with a record of an earlier run, to which a record with line ends in its texts and one that is no text
are added. -/
theorem records_recovered_archive :
    let directory : Path := ⟨"/", ["out"]⟩
    let path := directory.child (fileName "users" "success" "t")
    let first : Record := ⟨"1", [("a", "b\n"), ("", "\"")], Text.encodeUtf8 "x\r\n"⟩
    let second : Record := ⟨"2", [], ⟨#[255]⟩⟩
    let nodes : List (Path × Node) := [(directory, .directory), (path, .file (Text.encodeUtf8 (lines [second])))]
    let w : World := { storage := { files := ⟨nodes⟩ } }
    let uses : List Use := [.write first, .close, .flush, .write second]
    ∃ e w' x, (openAt directory "users" "success" "t").exec w = (.ok e, w') ∧
      (useAll e uses).exec w' = (.ok (), x) ∧
      (Text.decodeUtf8? (x.files.textAt path.resolve)).bind Record.ofLines? = some [second, first, second] := by
  intro directory path first second nodes w uses
  have hopen : (openAt directory "users" "success" "t").exec w =
      (.ok (exporterOf 0), { w with streams := [{ path }] }) := by
    rfl
  have hopens : w.files.Opens path := (FileTree.openEnd_eq_ok.mp (by rfl)).1
  have hearlier : w.files.textAt path.resolve = Text.encodeUtf8 (lines [second]) := by
    rfl
  have hnames : ∀ r ∈ [second] ++ written uses, r.names.Nodup := by
    decide
  obtain ⟨hreturns, hrecovered⟩ :=
    records_recovered.2.2.2.1 directory "users" "success" "t" w _ _ [second] uses hopen hearlier hnames
  obtain ⟨x, hx⟩ := hreturns hopens
  exact ⟨_, _, x, hopen, hx, hrecovered x hx⟩

end FileExport

end DocFetch

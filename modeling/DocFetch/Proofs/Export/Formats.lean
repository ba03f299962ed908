import DocFetch.Proofs.Export.Opening
import DocFetch.Proofs.Json.Writing

/-! # The formats record the same

Files of lines, tables and collections hold the same records in the same order. The text of a record is the
same in a file and in a table, and a collection holds the value that it stands for.
-/

namespace DocFetch

/-- The JSON texts of records. -/
def payloads (records : List Record) : List String := records.map fun r => Json.write r.toValue

/-- The pieces of a file between line feeds, if there is a file. -/
def FileTree.pieces? (t : FileTree) (p : Path) : Option (List String) :=
  if t.isFile p then
    (Text.decodeUtf8? (t.textAt p)).map fun s => (s.toList.splitOn '\n').map String.ofList
  else none

theorem FileTree.textAt_of_isFile {t : FileTree} {p : Path} (h : t.isFile p = false) : t.textAt p = .empty := by
  unfold isFile at h
  unfold textAt
  split at h
  · cases h
  · cases h
  · rfl

namespace FileExport

theorem toList_lines (records : List Record) :
    (lines records).toList = ['\n'].intercalate ((payloads records ++ [""]).map String.toList) := by
  induction records with
  | nil => rfl
  | cons r rest ih =>
    have hrest : (payloads rest ++ [""]).map String.toList ≠ [] := by simp
    obtain ⟨next, others, hnext⟩ := List.exists_cons_of_ne_nil hrest
    have hlines : lines (r :: rest) = line r ++ lines rest := by
      simp [lines, String.join_cons]
    have hpayloads : (payloads (r :: rest) ++ [""]).map String.toList =
        (Json.write r.toValue).toList :: (payloads rest ++ [""]).map String.toList := rfl
    rw [hlines, hpayloads, String.toList_append, ih, line, String.toList_append, hnext,
      List.intercalate_cons_cons]
    rfl

theorem splitOn_lines (records : List Record) :
    ((lines records).toList.splitOn '\n').map String.ofList = payloads records ++ [""] := by
  have hpieces : ∀ cs ∈ (payloads records ++ [""]).map String.toList, '\n' ∉ cs := by
    simp only [List.forall_mem_map, List.forall_mem_append, payloads]
    exact ⟨fun r _ => (Json.noControl_write r.toValue).newline_notMem, by decide⟩
  rw [toList_lines, List.splitOn_intercalate '\n' hpieces (by simp), List.map_map]
  simp

variable {directory : Path} {job tag : String} {w w' : World} {rt : Router World}

namespace Opened

theorem shown (h : Opened directory job tag w rt w')
    (hfresh : ∀ ch, w.files.isFile (place directory job tag ch).resolve = false) :
    Shown (place directory job tag) w.streams.length .nothing w' := by
  intro ch
  refine ⟨{ path := place directory job tag ch }, ?_, rfl, fun _ => rfl, ?_⟩
  · rw [h.streams, List.getElem?_append_right (Nat.le_add_right _ _), Nat.add_sub_cancel_left]
    cases ch <;> rfl
  · rw [h.files.isFile, hfresh ch]
    rfl

theorem keeps_shown (h : Opened directory job tag w rt w') :
    Router.Keeps rt.exporters (Shown (place directory job tag) w.streams.length) where
  exporter ch := ⟨_, h.get?_exporters ch⟩
  write {ch e l r s t} he hl hwrite := by
    rw [h.get?_exporters ch] at he
    cases he
    exact hl.write (apart_place directory job tag) hwrite

end Opened

theorem Opened.pieces {c : OutputConfig} (hformat : c.format = .json) (h : Opened directory job tag w rt w')
    (hfresh : ∀ ch, w.files.isFile (place directory job tag ch).resolve = false) {calls : List (List Transfer)}
    {x : Router World × World} (hx : (Router.routeAll calls).exec (rt, w') = (.ok (), x)) (ch : Channel) :
    x.2.files.pieces? (place directory job tag ch).resolve =
      if recordsFor calls.flatten ch = [] then none else some (payloads (recordsFor calls.flatten ch) ++ [""]) := by
  have hledger := ledger hformat h (fixed_true (place directory job tag))
  obtain ⟨v, ⟨hholds, hshown⟩, hclosing⟩ :=
    Router.routeAll_eq_ok (hledger.keeps.and h.keeps_shown) ⟨⟨h.holds _, trivial⟩, h.shown hfresh⟩ hx
  have hadded := hledger.settled hholds hclosing ch
  have hbefore : w.files.textAt (place directory job tag ch).resolve = .empty :=
    FileTree.textAt_of_isFile (hfresh ch)
  have hfile : x.2.files.isFile (place directory job tag ch).resolve = !(recordsFor calls.flatten ch).isEmpty := by
    rw [h.closing_eq] at hclosing
    obtain ⟨s, -, hshows⟩ := hshown.finishAll (apart_place directory job tag) hclosing ch
    exact hshows.isFile
  have htext : x.2.files.textAt (place directory job tag ch).resolve =
      Text.encodeUtf8 (lines (recordsFor calls.flatten ch)) := by
    unfold OutputConfig.Added at hadded
    rw [hformat] at hadded
    exact hadded.trans (by rw [hbefore, ByteArray.empty_append]; rfl)
  rw [FileTree.pieces?, hfile, htext, Text.decodeUtf8?_encodeUtf8, Option.map_some, splitOn_lines]
  cases recordsFor calls.flatten ch <;> rfl

end FileExport

/-! ## Three outputs -/

theorem Routed.forall_mem_iff {transfers : List Transfer} {P : Channel → Prop} :
    (∀ t ∈ transfers, P t.channel) ↔ ∀ ch, recordsFor transfers ch ≠ [] → P ch := by
  constructor
  · intro h ch hne
    obtain ⟨r, hr⟩ := List.exists_mem_of_ne_nil _ hne
    exact h _ (mem_recordsFor.mp hr)
  · intro h t ht
    exact h t.channel (List.ne_nil_of_mem (mem_recordsFor.mpr ht))

/-- Whether nothing is at the destinations of a run. -/
def OutputConfig.Fresh (c : OutputConfig) (job : String) (directory : Path) (tag : String) (w : World) : Prop :=
  match c.format with
  | .json => ∀ ch, w.files.isFile (FileExport.place directory job tag ch).resolve = false
  | .sqlite => ∀ ch : Channel, (w.files.table? (TableExport.place directory job).resolve ch.name).getD [] = []
  | .mongodb => ∀ ch, w.collected (c.uri.getD "") (CollectionExport.place c.database job ch) = []

/-- A router that was opened for a run to fresh destinations. -/
structure FreshOutput (c : OutputConfig) (job : String) (directory : Path) (tag : String) where
  before : World
  fresh : c.Fresh job directory tag before
  router : Router World
  world : World
  opened : (c.openRouter job directory tag).exec before = (.ok router, world)

/-- The calls return if the channels in use take what is written to them. Then all of it is added. -/
theorem FreshOutput.routeAll {c : OutputConfig} {job tag : String} {directory : Path}
    (o : FreshOutput c job directory tag) (calls : List (List Transfer)) :
    ((∃ x, (Router.routeAll calls).exec (o.router, o.world) = (.ok (), x)) ↔
      ∀ t ∈ calls.flatten, c.Takes job directory tag o.world t.channel) ∧
    ∀ x, (Router.routeAll calls).exec (o.router, o.world) = (.ok (), x) →
      ∀ ch, c.Added job directory tag o.before x.2 ch (recordsFor calls.flatten ch) := by
  obtain ⟨holds, hnothing, hledger⟩ := OutputConfig.exists_steadyLedger o.opened
  refine ⟨Router.routeAll_returns hledger.keeps hledger.takes hledger.returns hnothing, fun x hx => ?_⟩
  obtain ⟨v, hholds, hclosing⟩ := Router.routeAll_eq_ok hledger.keeps hnothing hx
  exact hledger.settled hholds hclosing

/-- Outputs of one job in the three formats, to which the same calls hand the same records. A run to tables always
returns. One to files does when those of the channels in use can be opened, and one to collections unless it has
records to insert and the database refuses them. -/
theorem formats_record_the_same (c : OutputConfig) (job tag : String) (directory : Path)
    (lines : FreshOutput { c with format := .json } job directory tag)
    (rows : FreshOutput { c with format := .sqlite } job directory tag)
    (documents : FreshOutput { c with format := .mongodb } job directory tag) (calls : List (List Transfer)) :
    ((∃ x, (Router.routeAll calls).exec (lines.router, lines.world) = (.ok (), x)) ↔
      ∀ ch, recordsFor calls.flatten ch ≠ [] →
        lines.world.files.Opens (FileExport.place directory job tag ch)) ∧
    (∀ x, (Router.routeAll calls).exec (lines.router, lines.world) = (.ok (), x) → ∀ ch,
      x.2.files.pieces? (FileExport.place directory job tag ch).resolve =
        if recordsFor calls.flatten ch = [] then none
        else some (payloads (recordsFor calls.flatten ch) ++ [""])) ∧
    (∃ x, (Router.routeAll calls).exec (rows.router, rows.world) = (.ok (), x) ∧ ∀ ch : Channel,
      ((x.2.files.table? (TableExport.place directory job).resolve ch.name).getD []).map ExportRow.payload =
        payloads (recordsFor calls.flatten ch)) ∧
    ((∃ x, (Router.routeAll calls).exec (documents.router, documents.world) = (.ok (), x)) ↔
      (calls.flatten ≠ [] → documents.world.refusal (c.uri.getD "") = none)) ∧
    ∀ x, (Router.routeAll calls).exec (documents.router, documents.world) = (.ok (), x) → ∀ ch,
      x.2.collected (c.uri.getD "") (CollectionExport.place c.database job ch) =
        (recordsFor calls.flatten ch).map Record.toValue := by
  have hjson : OutputConfig.format { c with format := .json } = .json := rfl
  obtain ⟨hlines, -⟩ := lines.routeAll calls
  obtain ⟨hrows, haddedRows⟩ := rows.routeAll calls
  obtain ⟨hdocuments, haddedDocuments⟩ := documents.routeAll calls
  refine ⟨?_, ?_, ?_, ?_, ?_⟩
  · rw [hlines]
    exact Routed.forall_mem_iff (P := fun ch => lines.world.files.Opens (FileExport.place directory job tag ch))
  · intro x hx ch
    exact (FileExport.openRouter_eq_ok hjson lines.opened).pieces hjson lines.fresh hx ch
  · obtain ⟨x, hx⟩ := hrows.mpr fun _ _ => trivial
    refine ⟨x, hx, fun ch => ?_⟩
    have hadded : _ = _ ++ _ := haddedRows x hx ch
    rw [hadded, rows.fresh ch, List.nil_append, List.map_map]
    rfl
  · rw [hdocuments]
    constructor
    · intro htakes hne
      obtain ⟨t, ht⟩ := List.exists_mem_of_ne_nil _ hne
      exact htakes t ht
    · exact fun htakes t ht => htakes (List.ne_nil_of_mem ht)
  · intro x hx ch
    have hadded : _ = _ ++ _ := haddedDocuments x hx ch
    rw [hadded, documents.fresh ch]
    rfl

/-- An output that can be opened where there is nothing yet. -/
theorem exists_freshOutput {c : OutputConfig} {job tag : String} {directory : Path}
    (h : ((c.openRouter job directory tag).exec {}).1.isOk = true) :
    ∃ o : FreshOutput c job directory tag, o.world = ((c.openRouter job directory tag).exec {}).2 := by
  have hget (p : Path) : (World.files {}).get? p = some .directory ∨ (World.files {}).get? p = none := by
    unfold FileTree.get?
    split
    · exact .inl rfl
    · exact .inr rfl
  have hfresh : c.Fresh job directory tag {} := by
    unfold OutputConfig.Fresh
    split
    · intro ch
      rcases hget (FileExport.place directory job tag ch).resolve with hp | hp <;> rw [FileTree.isFile, hp]
    · intro ch
      rcases hget (TableExport.place directory job).resolve with hp | hp <;>
        rw [FileTree.table?, FileTree.databaseAt, hp] <;> rfl
    · exact fun _ => rfl
  rcases hopen : (c.openRouter job directory tag).exec {} with ⟨r, w⟩
  rw [hopen] at h
  cases r with
  | ok router => exact ⟨⟨{}, hfresh, router, w, hopen⟩, rfl⟩
  | error e => cases h

/-- A payload with a line feed, one that is no text, and a channel that is not in use. -/
theorem formats_record_the_same_archive :
    let c : OutputConfig := { uri := some "mongodb://archive", database := "exports" }
    let directory : Path := ⟨"/", ["out"]⟩
    let first : Record := ⟨"1", [("a", "b\n")], Text.encodeUtf8 "x\n"⟩
    let second : Record := ⟨"2", [], ⟨#[255]⟩⟩
    let calls : List (List Transfer) := [[⟨.success, first⟩, ⟨.retry, second⟩], [], [⟨.success, second⟩]]
    let texts := ["\x7b\"uuid\": \"1\", \"attributes\": \x7b\"a\": \"b\\n\"\x7d, \"payload\": \"x\\n\", " ++
        "\"payload_encoding\": \"utf-8\"\x7d",
      "\x7b\"uuid\": \"2\", \"attributes\": \x7b\x7d, \"payload\": \"/w==\", \"payload_encoding\": \"base64\"\x7d"]
    ∃ (lines : FreshOutput { c with format := .json } "users" directory "t")
      (rows : FreshOutput { c with format := .sqlite } "users" directory "t")
      (documents : FreshOutput { c with format := .mongodb } "users" directory "t"),
      (∃ x, (Router.routeAll calls).exec (lines.router, lines.world) = (.ok (), x) ∧
        x.2.files.pieces? (FileExport.place directory "users" "t" .success).resolve = some (texts ++ [""]) ∧
        x.2.files.pieces? (FileExport.place directory "users" "t" .failure).resolve = none) ∧
      (∃ x, (Router.routeAll calls).exec (rows.router, rows.world) = (.ok (), x) ∧
        ((x.2.files.table? (TableExport.place directory "users").resolve "success").getD []).map ExportRow.payload =
          texts) ∧
      ∃ x, (Router.routeAll calls).exec (documents.router, documents.world) = (.ok (), x) ∧
        x.2.collected "mongodb://archive" ("exports", "users.success") = [first.toValue, second.toValue] := by
  intro c directory first second calls texts
  obtain ⟨lines, hlines⟩ : ∃ o : FreshOutput { c with format := .json } "users" directory "t",
      o.world = (OutputConfig.openRouter { c with format := .json } "users" directory "t" |>.exec {}).2 :=
    exists_freshOutput (by decide +kernel)
  obtain ⟨rows, -⟩ : ∃ o : FreshOutput { c with format := .sqlite } "users" directory "t", True :=
    (exists_freshOutput (by decide +kernel)).imp fun _ _ => trivial
  obtain ⟨documents, hworld⟩ : ∃ o : FreshOutput { c with format := .mongodb } "users" directory "t",
      o.world = (OutputConfig.openRouter { c with format := .mongodb } "users" directory "t" |>.exec {}).2 :=
    exists_freshOutput (by decide +kernel)
  have hopens (ch : Channel) : lines.world.files.Opens (FileExport.place directory "users" "t" ch) := by
    rw [hlines]
    cases ch <;> exact (FileTree.openEnd_eq_ok.mp (by rfl)).1
  have htexts : payloads [first, second] = texts := by decide +kernel
  have htakes : documents.world.refusal "mongodb://archive" = none := by
    rw [hworld]
    rfl
  obtain ⟨hreturns, hpieces, ⟨y, hy, hrows⟩, hinserts, hdocuments⟩ :=
    formats_record_the_same c "users" "t" directory lines rows documents calls
  obtain ⟨x, hx⟩ := hreturns.mpr fun ch _ => hopens ch
  obtain ⟨z, hz⟩ := hinserts.mpr fun _ => htakes
  refine ⟨lines, rows, documents, ⟨x, hx, ?_, ?_⟩, ⟨y, hy, ?_⟩, z, hz, hdocuments z hz .success⟩
  · rw [hpieces x hx .success, ← htexts]
    rfl
  · rw [hpieces x hx .failure]
    rfl
  · rw [← htexts]
    exact hrows .success

end DocFetch

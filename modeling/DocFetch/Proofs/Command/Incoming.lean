import DocFetch.Command.Perform
import DocFetch.Proofs.Files.Contents

/-! # Incoming records

A text lists ids one a line, with any blanks around them and any blank lines between them. Every text lists
something in this way and nothing else, and the contents that are read from it are the ids it lists. A run gets
one record for each id of its command line and then for each id that its file lists.
-/

namespace DocFetch

namespace Text

/-! ## Lists of ids -/

/-- What may end a line. -/
def lineEnds : List (List Char) :=
  [['\n'], ['\r', '\n'], ['\r'], ['\x0b'], ['\x0c'], ['\x1c'], ['\x1d'], ['\x1e'], ['\x85'], ['\u2028'], ['\u2029']]

def Blanks (cs : List Char) : Prop := ∀ c ∈ cs, isBlank c = true

theorem blanks_nil : Blanks [] := List.forall_mem_nil _

/-- A text that a line can hold with blanks around it. -/
structure Listable (cs : List Char) : Prop where
  ne_nil : cs ≠ []
  first : ∀ c ∈ cs.head?, isBlank c = false
  last : ∀ c ∈ cs.getLast?, isBlank c = false
  unbroken : ∀ c ∈ cs, [c] ∉ lineEnds

/-- The ids that a text lists. Blanks take in the ends of lines, and so blank lines are blanks. -/
inductive Lists : List Char → List (List Char) → Prop
  | none {b : List Char} (hb : Blanks b) : Lists b []
  | last {b id b' : List Char} (hb : Blanks b) (hid : Listable id) (hb' : Blanks b') : Lists (b ++ (id ++ b')) [id]
  | line {b id b' e text : List Char} {ids : List (List Char)} (hb : Blanks b) (hid : Listable id) (hb' : Blanks b')
      (he : e ∈ lineEnds) (h : Lists text ids) : Lists (b ++ (id ++ (b' ++ (e ++ text)))) (id :: ids)

theorem isLineBoundary_iff {c : Char} : isLineBoundary c = true ↔ [c] ∈ lineEnds := by
  constructor
  · intro h
    have hends : ∀ n ∈ [10, 11, 12, 13, 28, 29, 30, 133, 0x2028, 0x2029], [Char.ofNat n] ∈ lineEnds := by decide
    rw [← Char.ofNat_toNat c]
    apply hends
    simp only [isLineBoundary, Bool.or_eq_true, Bool.and_eq_true, decide_eq_true_eq] at h
    simp only [List.mem_cons, List.not_mem_nil, or_false]
    omega
  · intro h
    simp only [lineEnds, List.mem_cons, List.cons.injEq, and_true, List.not_mem_nil, or_false, reduceCtorEq,
      and_false, false_or] at h
    rcases h with rfl | rfl | rfl | rfl | rfl | rfl | rfl | rfl | rfl | rfl <;> decide

theorem isLineBoundary_of_mem {e : List Char} (he : e ∈ lineEnds) : ∀ c ∈ e, isLineBoundary c = true := by
  have hall : lineEnds.all (fun e => e.all isLineBoundary) = true := by decide
  exact List.all_eq_true.mp (List.all_eq_true.mp hall e he)

theorem isBlank_of_isLineBoundary {c : Char} (h : isLineBoundary c = true) : isBlank c = true := by
  have hall : lineEnds.all (fun e => e.all isBlank) = true := by decide
  exact List.all_eq_true.mp (List.all_eq_true.mp hall [c] (isLineBoundary_iff.mp h)) c (List.mem_singleton.mpr rfl)

theorem blanks_of_mem_lineEnds {e : List Char} (he : e ∈ lineEnds) : Blanks e :=
  fun c hc => isBlank_of_isLineBoundary (isLineBoundary_of_mem he c hc)

theorem Listable.notBoundary {cs : List Char} (h : Listable cs) : ∀ c ∈ cs, isLineBoundary c = false := by
  intro c hc
  rw [Bool.eq_false_iff, ne_eq, isLineBoundary_iff]
  exact h.unbroken c hc

/-! ## Reading them -/

/-- The pieces of a text that are not blank, without the blanks around them; `piece` is the open piece, last
character first. -/
def entriesFrom (piece cs : List Char) : List (List Char) :=
  ((piecesFrom piece cs).map trimChars).filter fun p => !p.isEmpty

theorem listedContents_eq (s : String) : listedContents s = (entriesFrom [] s.toList).map String.ofList := by
  have htrim : trim ∘ String.ofList = String.ofList ∘ trimChars := by
    funext cs
    rw [Function.comp_apply, trim, String.toList_ofList]
    rfl
  have hempty (cs : List Char) : (String.ofList cs).isEmpty = cs.isEmpty := by
    rw [Bool.eq_iff_iff, String.isEmpty_iff, List.isEmpty_iff, String.ofList_eq_empty_iff]
  rw [listedContents, splitLines, unified, String.toList_ofList, piecesFrom_unifyNewlines, List.map_map, htrim,
    ← List.map_map, List.filter_map, entriesFrom]
  congr 2
  funext cs
  rw [Function.comp_apply, hempty]

theorem entriesFrom_nil (piece : List Char) :
    entriesFrom piece [] = [trimChars piece.reverse].filter fun p => !p.isEmpty := by
  cases piece with
  | nil => rfl
  | cons c piece => rfl

theorem entriesFrom_closed {piece cs rest : List Char}
    (h : piecesFrom piece cs = piece.reverse :: piecesFrom [] rest) :
    entriesFrom piece cs = entriesFrom piece [] ++ entriesFrom [] rest := by
  rw [entriesFrom, h, List.map_cons, ← List.singleton_append, List.filter_append, entriesFrom_nil, entriesFrom]

/-- A carriage return with a line feed is one boundary, and read as two it closes one more piece that is blank. -/
theorem entriesFrom_boundary {c : Char} (hc : isLineBoundary c = true) (piece cs : List Char) :
    entriesFrom piece (c :: cs) = entriesFrom piece [] ++ entriesFrom [] cs := by
  by_cases hboth : ∃ after, c = '\r' ∧ cs = '\n' :: after
  · obtain ⟨after, rfl, rfl⟩ := hboth
    have hpieces : piecesFrom piece ('\r' :: '\n' :: after) = piece.reverse :: piecesFrom [] after := by
      rw [piecesFrom]
    have hafter : entriesFrom [] ('\n' :: after) = entriesFrom [] after :=
      entriesFrom_closed (piecesFrom_cons (fun _ heq => absurd heq (by decide)) [])
    rw [entriesFrom_closed hpieces, hafter]
  · apply entriesFrom_closed
    rw [piecesFrom_cons fun after hreturn hfeed => hboth ⟨after, hreturn, hfeed⟩, if_pos hc]

theorem entriesFrom_cons {c : Char} (hc : isLineBoundary c = false) (piece cs : List Char) :
    entriesFrom piece (c :: cs) = entriesFrom (c :: piece) cs := by
  have hother (after : List Char) (hreturn : c = '\r') : cs ≠ '\n' :: after := by
    subst hreturn
    cases hc
  rw [entriesFrom, piecesFrom_cons hother, hc]
  rfl

theorem entriesFrom_append {line : List Char} (h : ∀ c ∈ line, isLineBoundary c = false) (piece cs : List Char) :
    entriesFrom piece (line ++ cs) = entriesFrom (line.reverse ++ piece) cs := by
  induction line generalizing piece with
  | nil => rfl
  | cons c line ih =>
    rw [List.forall_mem_cons] at h
    rw [List.cons_append, entriesFrom_cons h.1, ih h.2, List.reverse_cons, List.append_assoc, List.singleton_append]

theorem entriesFrom_surrounded {b b' : List Char} (hb : Blanks b) (hb' : Blanks b') (piece : List Char) :
    entriesFrom (b' ++ (piece ++ b)) [] = entriesFrom piece [] := by
  have htrim : trimChars (b' ++ (piece ++ b)).reverse = trimChars piece.reverse := by
    rw [List.reverse_append, List.reverse_append, List.append_assoc]
    exact stripWhile_surrounded (fun c hc => hb c (List.mem_reverse.mp hc))
      (fun c hc => hb' c (List.mem_reverse.mp hc)) piece.reverse
  rw [entriesFrom_nil, entriesFrom_nil, htrim]

theorem entriesFrom_opened {b : List Char} (hb : Blanks b) (piece cs : List Char) :
    entriesFrom (piece ++ b) cs = entriesFrom piece cs := by
  induction cs generalizing piece with
  | nil => exact entriesFrom_surrounded hb blanks_nil piece
  | cons c cs ih =>
    cases hc : isLineBoundary c with
    | true =>
      rw [entriesFrom_boundary hc, entriesFrom_boundary hc]
      congr 1
      exact entriesFrom_surrounded hb blanks_nil piece
    | false =>
      rw [entriesFrom_cons hc, entriesFrom_cons hc]
      exact ih (c :: piece)

theorem entriesFrom_blanks {b : List Char} (hb : Blanks b) (cs : List Char) :
    entriesFrom [] (b ++ cs) = entriesFrom [] cs := by
  induction b with
  | nil => rfl
  | cons c b ih =>
    obtain ⟨hblank, hb⟩ := List.forall_mem_cons.mp hb
    rw [List.cons_append]
    -- a boundary closes an empty piece, and any other blank opens the next one
    cases hc : isLineBoundary c with
    | true =>
      rw [entriesFrom_boundary hc, ih hb]
      rfl
    | false =>
      have hopened := entriesFrom_opened (List.forall_mem_singleton.mpr hblank) [] (b ++ cs)
      rw [entriesFrom_cons hc, ← ih hb]
      exact hopened

theorem entriesFrom_blanks_closing {b : List Char} (hb : Blanks b) {cs : List Char}
    (hcs : ∀ c ∈ cs.head?, isLineBoundary c = true) (piece : List Char) :
    entriesFrom piece (b ++ cs) = entriesFrom piece [] ++ entriesFrom [] cs := by
  induction b generalizing piece with
  | nil =>
    cases cs with
    | nil => exact (List.append_nil _).symm
    | cons c cs =>
      have hc := hcs c rfl
      rw [List.nil_append, entriesFrom_boundary hc, entriesFrom_boundary hc []]
      rfl
  | cons c b ih =>
    obtain ⟨hblank, hb⟩ := List.forall_mem_cons.mp hb
    rw [List.cons_append]
    cases hc : isLineBoundary c with
    | true => rw [entriesFrom_boundary hc, entriesFrom_blanks hb]
    | false =>
      have hlast := entriesFrom_surrounded blanks_nil (List.forall_mem_singleton.mpr hblank) piece
      rw [List.append_nil] at hlast
      rw [entriesFrom_cons hc, ih hb, ← hlast]
      rfl

theorem entriesFrom_listable {id : List Char} (h : Listable id) : entriesFrom id.reverse [] = [id] := by
  have htrim : trimChars id = id := stripWhile_eq_self h.first h.last
  rw [entriesFrom_nil, List.reverse_reverse, htrim]
  simp [h.ne_nil]

theorem entriesFrom_line {b id b' cs : List Char} (hb : Blanks b) (hid : Listable id) (hb' : Blanks b')
    (hcs : ∀ c ∈ cs.head?, isLineBoundary c = true) :
    entriesFrom [] (b ++ (id ++ (b' ++ cs))) = id :: entriesFrom [] cs := by
  rw [entriesFrom_blanks hb, entriesFrom_append hid.notBoundary, List.append_nil,
    entriesFrom_blanks_closing hb' hcs, entriesFrom_listable hid, List.singleton_append]

theorem head?_of_mem_lineEnds {e : List Char} (he : e ∈ lineEnds) (text : List Char) :
    ∀ c ∈ (e ++ text).head?, isLineBoundary c = true := by
  have hne : e ≠ [] := by
    rintro rfl
    exact absurd he (by decide)
  intro c hc
  obtain ⟨d, e, rfl⟩ := List.exists_cons_of_ne_nil hne
  obtain rfl := Option.some_inj.mp hc
  exact isLineBoundary_of_mem he d List.mem_cons_self

theorem entriesFrom_of_lists {text : List Char} {ids : List (List Char)} (h : Lists text ids) :
    entriesFrom [] text = ids := by
  induction h with
  | none hb =>
    have hblank := entriesFrom_blanks hb []
    rwa [List.append_nil] at hblank
  | last hb hid hb' =>
    have hend : ∀ c ∈ [].head?, isLineBoundary c = true := fun _ hc => absurd hc (Option.not_mem_none _)
    have hline := entriesFrom_line hb hid hb' hend
    rwa [List.append_nil] at hline
  | @line b id b' e text ids hb hid hb' he h ih =>
    rw [entriesFrom_line hb hid hb' (head?_of_mem_lineEnds he text), entriesFrom_blanks (blanks_of_mem_lineEnds he), ih]

/-! ## What any text lists -/

theorem Lists.blanks {b text : List Char} {ids : List (List Char)} (hb : Blanks b) (h : Lists text ids) :
    Lists (b ++ text) ids := by
  have happend {b' : List Char} (hb' : Blanks b') : Blanks (b ++ b') := List.forall_mem_append.mpr ⟨hb, hb'⟩
  cases h with
  | none hb' => exact .none (happend hb')
  | last hb' hid hb'' =>
    rw [← List.append_assoc]
    exact .last (happend hb') hid hb''
  | line hb' hid hb'' he h =>
    rw [← List.append_assoc]
    exact .line (happend hb') hid hb'' he h

theorem blanks_or_listable {line : List Char} (h : ∀ c ∈ line, isLineBoundary c = false) :
    Blanks line ∨ ∃ b id b', Blanks b ∧ Listable id ∧ Blanks b' ∧ line = b ++ (id ++ b') := by
  obtain ⟨b, b', hb, hb', heq⟩ := exists_strip isBlank line
  by_cases hempty : stripWhile isBlank line = []
  · rw [hempty, List.nil_append] at heq
    exact .inl (heq ▸ List.forall_mem_append.mpr ⟨hb, hb'⟩)
  · obtain ⟨hfirst, hlast⟩ := ends_stripWhile isBlank line
    refine .inr ⟨b, stripWhile isBlank line, b', hb, ⟨hempty, hfirst, hlast, fun c hc => ?_⟩, hb', heq⟩
    rw [← isLineBoundary_iff, Bool.not_eq_true]
    apply h
    rw [heq]
    exact List.mem_append_right b (List.mem_append_left b' hc)

theorem exists_lists (text : List Char) {line : List Char} (h : ∀ c ∈ line, isLineBoundary c = false) :
    ∃ ids, Lists (line ++ text) ids := by
  induction text generalizing line with
  | nil =>
    rw [List.append_nil]
    rcases blanks_or_listable h with hblank | ⟨b, id, b', hb, hid, hb', rfl⟩
    · exact ⟨[], .none hblank⟩
    · exact ⟨[id], .last hb hid hb'⟩
  | cons c text ih =>
    cases hc : isLineBoundary c with
    | true =>
      obtain ⟨ids, hids⟩ := ih (List.forall_mem_nil _)
      rw [List.nil_append] at hids
      have he := isLineBoundary_iff.mp hc
      rcases blanks_or_listable h with hblank | ⟨b, id, b', hb, hid, hb', rfl⟩
      · exact ⟨ids, (hids.blanks (blanks_of_mem_lineEnds he)).blanks hblank⟩
      · refine ⟨id :: ids, ?_⟩
        rw [List.append_assoc, List.append_assoc]
        exact .line hb hid hb' he hids
    | false =>
      have hline : ∀ d ∈ line ++ [c], isLineBoundary d = false :=
        List.forall_mem_append.mpr ⟨h, List.forall_mem_singleton.mpr hc⟩
      obtain ⟨ids, hids⟩ := ih hline
      exact ⟨ids, by rwa [List.append_assoc] at hids⟩

/-- A text is read as the ids it lists, and it lists no others. -/
theorem lists_iff {s : String} {ids : List String} :
    Lists s.toList (ids.map String.toList) ↔ listedContents s = ids := by
  have hread {listed : List (List Char)} (h : Lists s.toList listed) : listedContents s = listed.map String.ofList := by
    rw [listedContents_eq, entriesFrom_of_lists h]
  constructor
  · intro h
    rw [hread h, List.map_map]
    simp
  · rintro rfl
    obtain ⟨listed, hlisted⟩ := exists_lists s.toList (List.forall_mem_nil _)
    rw [List.nil_append] at hlisted
    rw [hread hlisted, List.map_map]
    simpa using hlisted

end Text

/-! ## Records for them -/

section Batch

variable {uuid : Nat → String} {contents : List String} {attributes : Attributes}

theorem map_payload_batchRecords :
    (batchRecords uuid contents attributes).map Record.payload = contents.map Text.encodeUtf8 := by
  apply List.ext_getElem
  · rw [List.length_map, batchRecords, List.length_mapIdx, List.length_map]
  · intro i hi hi'
    simp only [batchRecords, List.getElem_map, List.getElem_mapIdx]

theorem attributes_of_mem_batchRecords {r : Record} (h : r ∈ batchRecords uuid contents attributes) :
    r.attributes = attributes := by
  obtain ⟨i, hi, rfl⟩ := List.mem_mapIdx.mp h
  rfl

theorem map_uuid_batchRecords {uuids : List String} (h : uuids.length = contents.length) :
    (batchRecords (fun i => uuids.getD i "") contents attributes).map Record.uuid = uuids := by
  apply List.ext_getElem
  · rw [List.length_map, batchRecords, List.length_mapIdx, h]
  · intro i hi hi'
    simp only [batchRecords, List.getElem_map, List.getElem_mapIdx]
    rw [List.getD_eq_getElem?_getD, List.getElem?_eq_getElem hi', Option.getD_some]

end Batch

namespace Command

open Session

variable {α : Type}

/-- The next uuids that a session draws. -/
def Session.nextUuids (s : Session) (n : Nat) : List String :=
  (List.range' (s.home.world.drawn + 1) n).map s.home.uuid

/-- A session that has drawn some uuids more. -/
def Session.drew (s : Session) (n : Nat) : Session :=
  { s with home := { s.home with world := { s.home.world with drawn := s.home.world.drawn + n } } }

theorem Session.nextUuids_succ (s : Session) (n : Nat) :
    s.nextUuids (n + 1) = s.home.uuid (s.home.world.drawn + 1) :: (s.drew 1).nextUuids n := by
  rw [nextUuids, List.range'_succ, List.map_cons]
  rfl

theorem Session.drew_drew (s : Session) (m n : Nat) : (s.drew m).drew n = s.drew (m + n) := by
  unfold drew
  rw [Nat.add_assoc]

theorem Session.length_nextUuids (s : Session) (n : Nat) : (s.nextUuids n).length = n := by
  rw [nextUuids, List.length_map, List.length_range']

theorem exec_draws (contents : List String) (s : Session) :
    (contents.mapM fun _ => (onHome (Home.draw : StateM Home String) : SessionM String)).exec s =
      (.ok (s.nextUuids contents.length), s.drew contents.length) := by
  induction contents generalizing s with
  | nil => rfl
  | cons content contents ih =>
    have hdraw : (onHome (Home.draw : StateM Home String) : SessionM String).exec s =
        (.ok (s.home.uuid (s.home.world.drawn + 1)), s.drew 1) := rfl
    rw [List.mapM_cons, Action.exec_bind_ok hdraw, Action.exec_bind_ok (ih _), Action.exec_pure, s.drew_drew,
      List.length_cons, s.nextUuids_succ, Nat.add_comm 1]

theorem exec_newRecords (contents : List String) (attributes : Attributes) (s : Session) :
    ∃ records, (newRecords contents attributes).exec s = (.ok records, s.drew records.length) ∧
      records.map Record.payload = contents.map Text.encodeUtf8 ∧ (∀ r ∈ records, r.attributes = attributes) ∧
      records.map Record.uuid = s.nextUuids records.length := by
  let records := batchRecords (fun i => (s.nextUuids contents.length).getD i "") contents attributes
  have hlength : records.length = contents.length := List.length_mapIdx
  refine ⟨records, ?_, map_payload_batchRecords, fun r hr => attributes_of_mem_batchRecords hr, ?_⟩
  · rw [newRecords, Action.exec_bind_ok (exec_draws contents s), Action.exec_pure, hlength]
  · rw [hlength, map_uuid_batchRecords (s.length_nextUuids _)]

/-- The ids that a run is given in a file; there are none without a file. -/
inductive FileLists (files : FileTree) : Option String → List String → Prop
  | none : FileLists files none []
  | file {p text : String} {ids : List String} (hread : files.read (.ofText p) = .ok (Text.encodeUtf8 text))
      (h : Text.Lists text.toList (ids.map String.toList)) : FileLists files (some p) ids

theorem listedIn_of_read {files : FileTree} {p : Path} {text : String} (h : files.read p = .ok (Text.encodeUtf8 text)) :
    listedIn p files = .ok (listedContents text) := by
  rw [listedIn, h]
  dsimp only [bind, Except.bind]
  rw [Text.decodeUtf8?_encodeUtf8]
  rfl

theorem exec_look (f : FileTree → Except Failure α) (s : Session) : (look f).exec s = (f s.home.files, s) := rfl

theorem exec_buildRecords {s : Session} {file : Option String} {listed : List String}
    (h : FileLists s.home.files file listed) (ids : List String) (attributes : Attributes) :
    (buildRecords ids attributes file).exec s =
      ((batchContents ids listed attributes).mapM fun contents => newRecords contents attributes).exec s := by
  cases h with
  | none => rfl
  | @file p text listed hread h =>
    have hlook : (look (listedIn (.ofText p))).exec s = (.ok listed, s) := by
      rw [exec_look, listedIn_of_read hread, Text.lists_iff.mp h]
    exact Action.exec_bind_ok hlook _

theorem batchContents_of_ne_nil {ids listed : List String} (h : ids ++ listed ≠ []) (attributes : Attributes) :
    batchContents ids listed attributes = some (ids ++ listed) := by
  unfold batchContents
  split
  · contradiction
  · rfl

theorem batchContents_of_nil {ids listed : List String} (h : ids ++ listed = []) (attributes : Attributes) :
    batchContents ids listed attributes = if attributes = [] then none else some [""] := by
  rw [batchContents, h]
  simp only [List.isEmpty_iff]

/-- A run gets one record for each id of its command line and then for each that its file lists, with the id as
payload. Without ids it gets one empty record where there are attributes, and none where there are none. Each record
has the attributes and a uuid of its own, and nothing else is drawn or changed. -/
theorem buildRecords_one_per_id {s : Session} {file : Option String} {listed : List String}
    (h : FileLists s.home.files file listed) (ids : List String) (attributes : Attributes) :
    ∃ built, (buildRecords ids attributes file).exec s = (.ok built, s.drew (built.getD []).length) ∧
      (ids ++ listed ≠ [] → built.map (List.map Record.payload) = some ((ids ++ listed).map Text.encodeUtf8)) ∧
      (ids ++ listed = [] → attributes ≠ [] → built.map (List.map Record.payload) = some [.empty]) ∧
      (ids ++ listed = [] → attributes = [] → built = none) ∧
      ∀ records ∈ built,
        (∀ r ∈ records, r.attributes = attributes) ∧ records.map Record.uuid = s.nextUuids records.length := by
  rw [exec_buildRecords h]
  cases hcontents : batchContents ids listed attributes with
  | none =>
    refine ⟨none, rfl, fun hne => ?_, fun hnil hne => ?_, fun _ _ => rfl, fun _ hmem => ?_⟩
    · rw [batchContents_of_ne_nil hne] at hcontents
      cases hcontents
    · rw [batchContents_of_nil hnil, if_neg hne] at hcontents
      cases hcontents
    · cases hmem
  | some contents =>
    obtain ⟨records, hrun, hpayload, hrecords⟩ := exec_newRecords contents attributes s
    refine ⟨some records, ?_, fun hne => ?_, fun hnil hne => ?_, fun hnil hempty => ?_, ?_⟩
    · rw [Option.mapM_some, map_eq_pure_bind, Action.exec_bind_ok hrun]
      rfl
    · rw [batchContents_of_ne_nil hne] at hcontents
      cases hcontents
      exact congrArg some hpayload
    · rw [batchContents_of_nil hnil, if_neg hne] at hcontents
      cases hcontents
      exact congrArg some hpayload
    · rw [batchContents_of_nil hnil, if_pos hempty] at hcontents
      cases hcontents
    · rintro _ ⟨⟩
      exact hrecords

/-- A session with one file of ids. -/
def sampleSession (text : String) : Session where
  home := {
    layout := ⟨.ofText "/home"⟩
    world := { storage := { files := ⟨[(.ofText "/ids.txt", .file (Text.encodeUtf8 text))]⟩ } }
    now := ⟨⟨2024, 1, 2⟩, ⟨3, 4, 5, 0⟩, some 0⟩
    uuid := fun n => String.ofList (List.replicate n 'u') }
  repository := { layout := ⟨.ofText "/home"⟩ }
  runner := { layout := ⟨.ofText "/home"⟩, settings := {}, provenance := .log, pools := {} }
  input := []

theorem fileLists_sample {text : String} {ids : List String} (h : listedContents text = ids) :
    FileLists (sampleSession text).home.files (some "/ids.txt") ids :=
  .file (FileTree.read_of_file (q := .ofText "/ids.txt") rfl rfl) (Text.lists_iff.mpr h)

/-- Three ids with several ends of lines, blanks and blank lines. -/
def sampleListing : String := "\u00a0a b\r\n\r \x0b\tb\x85\x1fé\u2028"

theorem buildRecords_sample :
    FileLists (sampleSession sampleListing).home.files (some "/ids.txt") ["a b", "b", "é"] ∧
      ∃ records, (buildRecords ["x"] [("k", "v")] (some "/ids.txt")).exec (sampleSession sampleListing) =
          (.ok (some records), (sampleSession sampleListing).drew 4) ∧
        records.map Record.payload = ["x", "a b", "b", "é"].map Text.encodeUtf8 ∧
        ∀ r ∈ records, r.attributes = [("k", "v")] := by
  have hlists : FileLists (sampleSession sampleListing).home.files (some "/ids.txt") ["a b", "b", "é"] :=
    fileLists_sample (by decide +kernel)
  obtain ⟨built, hrun, hids, -, -, hbuilt⟩ := buildRecords_one_per_id hlists ["x"] [("k", "v")]
  obtain ⟨records, rfl, hpayload⟩ := Option.map_eq_some_iff.mp (hids (List.cons_ne_nil _ _))
  have hfour : records.length = 4 := by
    have hlength := congrArg List.length hpayload
    rwa [List.length_map] at hlength
  refine ⟨hlists, records, ?_, hpayload, (hbuilt records rfl).1⟩
  rw [hrun, Option.getD_some, hfour]

end Command

end DocFetch

import DocFetch.Proofs.Export.Ledger

/-! # Files of lines

The text of a channel's file and what is pending in its stream are what was there before and one line per
record.
-/

namespace DocFetch

namespace Text

theorem encodeUtf8_append (s t : String) : encodeUtf8 (s ++ t) = encodeUtf8 s ++ encodeUtf8 t := by
  simp [encodeUtf8]

theorem encodeUtf8_empty : encodeUtf8 "" = .empty := rfl

end Text

/-- The position of a channel among the streams of a run. -/
def Channel.number : Channel → Nat
  | success => 0
  | original => 1
  | retry => 2
  | failure => 3

theorem Channel.number_injective {a b : Channel} (h : a.number = b.number) : a = b := by
  cases a <;> cases b <;> first | rfl | cases h

namespace FileExport

variable {directory : Path} {job tag : String}

/-! ## Places -/

theorem fileName_toList (job channel tag : String) :
    ∃ stem, (fileName job channel tag).toList = stem ++ ".jsonl".toList :=
  ⟨_, String.toList_append⟩

theorem fileName_ne_dots (job channel tag : String) : fileName job channel tag ≠ ".." := by
  intro h
  obtain ⟨stem, hstem⟩ := fileName_toList job channel tag
  have hlength := congrArg List.length hstem
  rw [h, List.length_append] at hlength
  simp at hlength

theorem resolve_place (directory : Path) (job tag : String) (ch : Channel) :
    (place directory job tag ch).resolve =
      { root := "/", parts := Path.follow [] directory.parts ++ [fileName job ch.name tag] } := by
  rw [Path.resolve, place, Path.child, Path.follow_append_singleton (fileName_ne_dots job ch.name tag)]

theorem resolve_place_injective {ch ch' : Channel}
    (h : (place directory job tag ch).resolve = (place directory job tag ch').resolve) : ch = ch' := by
  rw [resolve_place, resolve_place, Path.mk.injEq] at h
  have hname : fileName job ch.name tag = fileName job ch'.name tag := by simpa using h.2
  unfold fileName at hname
  rw [String.append_left_inj, String.append_left_inj, String.append_left_inj, String.append_right_inj] at hname
  exact Channel.name_injective hname

theorem isLog_resolve_place (directory : Path) (job tag : String) (ch : Channel) :
    (place directory job tag ch).resolve.isLog = false := by
  rw [← Bool.not_eq_true]
  intro hlog
  obtain ⟨stem, hstem⟩ := fileName_toList job ch.name tag
  rw [resolve_place, Path.isLog, Path.name, List.getLastD_concat, List.isSuffixOf_iff_suffix, hstem] at hlog
  have hends : ".log".toList <:+ ".jsonl".toList :=
    List.suffix_of_suffix_length_le hlog (List.suffix_append stem _) (by decide)
  exact absurd hends (by decide)

/-! ## Streams -/

def exporterOf (n : Nat) : Exporter World := { write := write n, flush := flush n, close := close n }

def lines (records : List Record) : String := String.join (records.map line)

theorem lines_concat (records : List Record) (r : Record) : lines (records ++ [r]) = lines records ++ line r := by
  simp [lines, String.join]

/-- The world after files and one stream changed. -/
def stepped (w : World) (files : FileTree) (n : Nat) (f : Stream → Stream) : World :=
  { w with storage := { w.storage with files }, streams := w.streams.modify n f }

/-- What a write appends to its stream. -/
def wrote (r : Record) (s : Stream) : Stream := { s with isOpen := true, pending := s.pending ++ line r }

def flushed (s : Stream) : Stream := { s with pending := "" }

def shut (s : Stream) : Stream := { s with isOpen := false }

variable {w w' : World} {n : Nat} {s : Stream} {r : Record}

theorem changes_stepped {files : FileTree} (h : w.files.Changes Resource.outputs files) (n : Nat)
    (f : Stream → Stream) : w.Changes Resource.outputs (stepped w files n f) where
  storage := .of_files h
  stream _ hn := absurd trivial hn
  connection _ _ := rfl
  inserted _ _ _ := rfl
  drawn _ := rfl
  drawn_le := le_refl _
  client _ c hc := ⟨c, hc, rfl, rfl, rfl⟩
  refusal := rfl

theorem exec_write (hs : w.streams[n]? = some s) (r : Record) :
    (write n r).exec w =
      if s.isOpen then (.ok (), stepped w w.files n (wrote r))
      else
        match w.files.append s.path .empty with
        | .ok files => (.ok (), stepped w files n (wrote r))
        | .error e => (.error e, w) := by
  unfold write
  rw [Action.exec_bind_ok (Action.exec_get w), hs]
  dsimp only
  cases hopen : s.isOpen with
  | true => rfl
  | false =>
    have hfiles := World.exec_changeFiles (·.append s.path .empty) w
    simp only [Bool.false_eq_true, if_false]
    cases happend : w.files.append s.path .empty with
    | error e =>
      rw [happend] at hfiles
      exact Action.exec_bind_error hfiles _
    | ok files =>
      rw [happend] at hfiles
      exact Action.exec_bind_ok hfiles _

theorem exec_flush (hs : w.streams[n]? = some s) :
    (flush n).exec w =
      if s.isOpen then
        match w.files.append s.path (Text.encodeUtf8 s.pending) with
        | .ok files => (.ok (), stepped w files n flushed)
        | .error e => (.error e, w)
      else (.ok (), w) := by
  unfold flush
  rw [Action.exec_bind_ok (Action.exec_get w), hs]
  dsimp only
  cases hopen : s.isOpen with
  | false => rfl
  | true =>
    have hfiles := World.exec_changeFiles (·.append s.path (Text.encodeUtf8 s.pending)) w
    simp only [if_true]
    cases happend : w.files.append s.path (Text.encodeUtf8 s.pending) with
    | error e =>
      rw [happend] at hfiles
      exact Action.exec_bind_error hfiles _
    | ok files =>
      rw [happend] at hfiles
      exact Action.exec_bind_ok hfiles _

/-! ## What a run holds -/

/-- What the file of a channel and its stream hold together. -/
structure Stores (place : Path) (before : ByteArray) (opened : Prop) (records : List Record) (files : FileTree)
    (s : Stream) : Prop where
  path : s.path = place
  text : files.textAt place.resolve ++ Text.encodeUtf8 s.pending = before ++ Text.encodeUtf8 (lines records)
  closed : s.isOpen = false → s.pending = ""
  isOpen : s.isOpen = true → opened

/-- What is the case for the files and streams of all channels; the streams start at number `base`. -/
def Each (base : Nat) (P : Channel → FileTree → Stream → Prop) (w : World) : Prop :=
  ∀ ch, ∃ s, w.streams[base + ch.number]? = some s ∧ P ch w.files s

theorem Each.changed {base : Nat} {P Q : Channel → FileTree → Stream → Prop} {ch : Channel} {files : FileTree}
    {f : Stream → Stream} (h : Each base P w) (hs : w.streams[base + ch.number]? = some s) (hself : Q ch files (f s))
    (hother : ∀ ch' s', ch' ≠ ch → P ch' w.files s' → Q ch' files s') :
    Each base Q (stepped w files (base + ch.number) f) := by
  intro ch'
  by_cases hch : ch' = ch
  · subst hch
    refine ⟨f s, ?_, hself⟩
    change (w.streams.modify _ f)[base + ch'.number]? = _
    rw [List.getElem?_modify_eq, hs]
    rfl
  · obtain ⟨s', hs', hP⟩ := h ch'
    refine ⟨s', ?_, hother ch' s' hch hP⟩
    change (w.streams.modify _ f)[base + ch'.number]? = _
    rw [List.getElem?_modify_ne, hs']
    intro heq
    exact hch (Channel.number_injective (Nat.add_left_cancel heq).symm)

/-- What the files and streams of a run hold. -/
def Holds (places : Channel → Path) (base : Nat) (before : Channel → ByteArray) (opened : Channel → Prop)
    (l : Routed) : World → Prop :=
  Each base fun ch => Stores (places ch) (before ch) (opened ch) (l ch)

variable {places : Channel → Path} {base : Nat} {before : Channel → ByteArray} {opened : Channel → Prop}
  {l l' : Routed} {ch : Channel}

theorem Holds.changed {files : FileTree} {f : Stream → Stream} (h : Holds places base before opened l w)
    (hs : w.streams[base + ch.number]? = some s)
    (hself : Stores (places ch) (before ch) (opened ch) (l' ch) files (f s))
    (hfiles : ∀ ch', ch' ≠ ch → files.textAt (places ch').resolve = w.files.textAt (places ch').resolve)
    (hl : ∀ ch', ch' ≠ ch → l' ch' = l ch') :
    Holds places base before opened l' (stepped w files (base + ch.number) f) := by
  refine Each.changed h hs hself fun ch' s' hch hstores => ⟨hstores.path, ?_, hstores.closed, hstores.isOpen⟩
  rw [hfiles ch' hch, hl ch' hch]
  exact hstores.text

theorem Stores.wrote {files files' : FileTree} {place : Path} {b : ByteArray} {o : Prop} {records : List Record}
    (h : Stores place b o records files s) (hfiles : files.Changes ∅ files') (ho : o) (r : Record) :
    Stores place b o (records ++ [r]) files' (wrote r s) where
  path := h.path
  text := by
    rw [hfiles.text _ (Set.notMem_empty _), FileExport.wrote, Text.encodeUtf8_append, ← ByteArray.append_assoc,
      h.text, lines_concat, Text.encodeUtf8_append, ByteArray.append_assoc]
  closed hclosed := by cases hclosed
  isOpen _ := ho

theorem Stores.flushed {files files' : FileTree} {place : Path} {b : ByteArray} {o : Prop} {records : List Record}
    (h : Stores place b o records files s)
    (happended : FileTree.Appended files s.path (Text.encodeUtf8 s.pending) files') :
    Stores place b o records files' (flushed s) where
  path := h.path
  text := by
    rw [← h.path, happended.text_self, h.path]
    change _ ++ Text.encodeUtf8 "" = _
    rw [Text.encodeUtf8_empty, ByteArray.append_empty, h.text]
  closed _ := rfl
  isOpen := h.isOpen

theorem Holds.write (h : Holds places base before opened l w)
    (hopened : w.files.Opens (places ch) → opened ch)
    (hwrite : (write (base + ch.number) r).exec w = (.ok (), w')) :
    Holds places base before opened (l.add [⟨ch, r⟩]) w' ∧ w.Changes Resource.outputs w' := by
  obtain ⟨s, hs, hstores⟩ := h ch
  have hadd (ch' : Channel) (hch : ch' ≠ ch) : l.add [⟨ch, r⟩] ch' = l ch' := l.add_of_ne hch.symm r
  rw [exec_write hs] at hwrite
  split at hwrite
  · rename_i hopen
    cases hwrite
    refine ⟨h.changed hs ?_ (fun _ _ => rfl) hadd, changes_stepped (.refl _ _) _ _⟩
    rw [l.add_self]
    exact hstores.wrote (.refl ∅ w.files) (hstores.isOpen hopen) r
  · rename_i hclosed
    split at hwrite
    · rename_i files happend
      cases hwrite
      have hchanges := FileTree.Changes.of_append_empty happend
      refine ⟨h.changed hs ?_ (fun ch' _ => hchanges.text _ (Set.notMem_empty _)) hadd,
        changes_stepped (hchanges.mono (Set.empty_subset _)) _ _⟩
      rw [l.add_self]
      refine hstores.wrote hchanges (hopened ?_) r
      rw [← hstores.path]
      exact (FileTree.append_eq_ok happend).1
    · cases hwrite

/-- Whether nothing is pending in the stream of a channel. -/
def Settled (base : Nat) (w : World) (ch : Channel) : Prop :=
  ∃ s, w.streams[base + ch.number]? = some s ∧ s.pending = ""

theorem Settled.changed {files : FileTree} {f : Stream → Stream} (hf : ∀ s, s.pending = "" → (f s).pending = "")
    (h : Settled base w ch) (n : Nat) : Settled base (stepped w files n f) ch := by
  obtain ⟨s, hs, hpending⟩ := h
  refine ⟨if n = base + ch.number then f s else s, ?_, ?_⟩
  · change (w.streams.modify n f)[base + ch.number]? = _
    rw [List.getElem?_modify, hs]
    rfl
  · split
    · exact hf s hpending
    · exact hpending

/-- Files of their own for all channels, none of which is a log. -/
structure Apart (places : Channel → Path) : Prop where
  injective : ∀ ch ch', (places ch).resolve = (places ch').resolve → ch = ch'
  isLog : ∀ ch, (places ch).resolve.isLog = false

theorem apart_place (directory : Path) (job tag : String) : Apart (place directory job tag) :=
  ⟨fun _ _ => resolve_place_injective, isLog_resolve_place directory job tag⟩

/-- What closing a part of the exporters keeps. -/
structure Kept (places : Channel → Path) (base : Nat) (before : Channel → ByteArray) (opened : Channel → Prop)
    (l : Routed) (w w' : World) : Prop where
  holds : Holds places base before opened l w'
  settled : ∀ ch, Settled base w ch → Settled base w' ch
  changes : w.Changes Resource.outputs w'

theorem Kept.trans {w'' : World} (h : Kept places base before opened l w w')
    (h' : Kept places base before opened l w' w'') : Kept places base before opened l w w'' :=
  ⟨h'.holds, fun ch hch => h'.settled ch (h.settled ch hch), h.changes.trans h'.changes⟩

theorem Holds.flush (hplaces : Apart places) (h : Holds places base before opened l w)
    (hflush : (flush (base + ch.number)).exec w = (.ok (), w')) :
    Kept places base before opened l w w' ∧ Settled base w' ch := by
  obtain ⟨s, hs, hstores⟩ := h ch
  rw [exec_flush hs] at hflush
  split at hflush
  · rename_i hopen
    split at hflush
    · rename_i files happend
      cases hflush
      obtain ⟨-, happended⟩ := FileTree.append_eq_ok happend
      refine ⟨⟨?_, fun ch' hch' => hch'.changed (fun _ _ => rfl) _, changes_stepped ?_ _ _⟩, flushed s, ?_, rfl⟩
      · refine h.changed hs (hstores.flushed happended) (fun ch' hch => ?_) fun _ _ => rfl
        rw [FileTree.textAt, happended.other _ fun heq => hch (hplaces.injective ch' ch (hstores.path ▸ heq))]
        rfl
      · refine (FileTree.Changes.of_append happend).mono ?_
        rintro x rfl
        rw [hstores.path]
        exact hplaces.isLog ch
      · change (w.streams.modify _ flushed)[base + ch.number]? = _
        rw [List.getElem?_modify_eq, hs]
        rfl
    · cases hflush
  · rename_i hclosed
    cases hflush
    exact ⟨⟨h, fun _ hch' => hch', .refl _ w⟩, s, hs, hstores.closed (by simpa using hclosed)⟩

/-- Flushing an exporter and closing it. -/
def finish (n : Nat) : Action World Unit := do
  flush n
  close n

theorem Holds.finish (hplaces : Apart places) (h : Holds places base before opened l w)
    (hfinish : (finish (base + ch.number)).exec w = (.ok (), w')) :
    Kept places base before opened l w w' ∧ Settled base w' ch := by
  obtain ⟨_, w₁, hflush, hclose⟩ := Action.exec_bind_eq_ok hfinish
  obtain ⟨_, w₂, hflush', hclosed⟩ := Action.exec_bind_eq_ok hclose
  obtain ⟨hkept₁, -⟩ := h.flush hplaces hflush
  obtain ⟨hkept₂, hsettled⟩ := hkept₁.holds.flush hplaces hflush'
  cases hclosed
  have hshut (ch' : Channel) (hch' : Settled base w₂ ch') :
      Settled base (stepped w₂ w₂.files (base + ch.number) shut) ch' :=
    hch'.changed (f := shut) (fun _ hp => hp) (base + ch.number)
  obtain ⟨s, hs, hstores⟩ := hkept₂.holds ch
  have hpending : s.pending = "" := by
    obtain ⟨s', hs', hpending⟩ := hsettled
    rw [hs] at hs'
    cases hs'
    exact hpending
  refine ⟨(hkept₁.trans hkept₂).trans ⟨?_, hshut, changes_stepped (.refl _ _) _ _⟩, hshut ch hsettled⟩
  exact hkept₂.holds.changed (f := shut) hs ⟨hstores.path, hstores.text, fun _ => hpending, nofun⟩
    (fun _ _ => rfl) fun _ _ => rfl

/-- Once all exporters are closed nothing is pending. -/
theorem Holds.finishAll (hplaces : Apart places) {chs : List Channel} (h : Holds places base before opened l w)
    (hfinish : (chs.forM fun ch => FileExport.finish (base + ch.number)).exec w = (.ok (), w')) :
    Kept places base before opened l w w' ∧ ∀ ch ∈ chs, Settled base w' ch := by
  induction chs generalizing w with
  | nil =>
    cases hfinish
    exact ⟨⟨h, fun _ hch' => hch', .refl _ _⟩, fun _ hmem => absurd hmem List.not_mem_nil⟩
  | cons ch rest ih =>
    obtain ⟨_, w₁, hfirst, hrest⟩ := Action.exec_bind_eq_ok hfinish
    obtain ⟨hkept, hsettled⟩ := h.finish hplaces hfirst
    obtain ⟨hkept', hsettled'⟩ := ih hkept.holds hrest
    exact ⟨hkept.trans hkept', List.forall_mem_cons.mpr ⟨hkept'.settled ch hsettled, hsettled'⟩⟩

/-! ## Routers -/

theorem openAt_eq_ok {channel : String} {e : Exporter World}
    (h : (openAt directory job channel tag).exec w = (.ok e, w')) :
    ∃ files, w.files.makeDirectories directory = .ok files ∧ e = exporterOf w.streams.length ∧
      w' = { w with
        storage := { w.storage with files }
        streams := w.streams ++ [{ path := directory.child (fileName job channel tag) }] } := by
  unfold openAt at h
  obtain ⟨_, w₁, hmade, h⟩ := Action.exec_bind_eq_ok h
  obtain ⟨files, hfiles, rfl⟩ := World.changeFiles_eq_ok hmade
  cases h
  exact ⟨files, hfiles, rfl, rfl⟩

theorem changes_openAt {channel : String} {e : Exporter World}
    (h : (openAt directory job channel tag).exec w = (.ok e, w')) :
    w.Changes (Resource.outputs ∪ {.directories}) w' := by
  obtain ⟨files, hfiles, -, rfl⟩ := openAt_eq_ok h
  refine ⟨?_, fun _ hn => absurd (.inl trivial) hn, fun _ _ => rfl, fun _ _ _ => rfl, fun _ => rfl, le_refl _,
    fun _ c hc => ⟨c, hc, rfl, rfl, rfl⟩, rfl⟩
  exact (Storage.Changes.of_files (.of_makeDirectories hfiles)).mono Set.subset_union_right

/-- What a run to files has opened. -/
structure Opened (directory : Path) (job tag : String) (w : World) (r : Router World) (w' : World) : Prop where
  exporters : r.exporters = Channel.all.map fun ch => (ch, exporterOf (w.streams.length + ch.number))
  release : r.release = []
  counts : ∀ ch, r.counts ch = 0
  files : FileTree.MadeDirectories w.files w'.files
  streams : w'.streams = w.streams ++ Channel.all.map fun ch => { path := place directory job tag ch }
  changes : w.Changes (Resource.outputs ∪ {.directories}) w'

theorem openRouter_eq_ok {c : OutputConfig} {rt : Router World} (hformat : c.format = .json)
    (h : (c.openRouter job directory tag).exec w = (.ok rt, w')) : Opened directory job tag w rt w' := by
  unfold OutputConfig.openRouter at h
  rw [hformat] at h
  obtain ⟨exporters, w₄, hexporters, h⟩ := Action.exec_bind_eq_ok h
  cases h
  obtain ⟨e₀, e₁, e₂, e₃, w₁, w₂, w₃, h₀, h₁, h₂, h₃, rfl⟩ := exportersFor_eq_ok hexporters
  have hchanges := (((changes_openAt h₀).trans (changes_openAt h₁)).trans (changes_openAt h₂)).trans
    (changes_openAt h₃)
  obtain ⟨files₀, hfiles₀, rfl, rfl⟩ := openAt_eq_ok h₀
  obtain ⟨files₁, hfiles₁, rfl, rfl⟩ := openAt_eq_ok h₁
  obtain ⟨files₂, hfiles₂, rfl, rfl⟩ := openAt_eq_ok h₂
  obtain ⟨files₃, hfiles₃, rfl, rfl⟩ := openAt_eq_ok h₃
  refine ⟨?_, rfl, fun _ => rfl, ?_, ?_, hchanges⟩
  · simp [Channel.all, Channel.number]
  · exact (((FileTree.makeDirectories_eq_ok hfiles₀).trans (FileTree.makeDirectories_eq_ok hfiles₁)).trans
      (FileTree.makeDirectories_eq_ok hfiles₂)).trans (FileTree.makeDirectories_eq_ok hfiles₃)
  · simp [Channel.all, place]

namespace Opened

variable {rt : Router World} {w₁ : World}

theorem stream (h : Opened directory job tag w rt w') (ch : Channel) :
    w'.streams[w.streams.length + ch.number]? = some { path := place directory job tag ch } := by
  rw [h.streams, List.getElem?_append_right (Nat.le_add_right _ _), Nat.add_sub_cancel_left]
  cases ch <;> rfl

theorem holds (h : Opened directory job tag w rt w') (opened : Channel → Prop) :
    Holds (place directory job tag) w.streams.length (fun ch => w.files.textAt (place directory job tag ch).resolve)
      opened .nothing w' := by
  intro ch
  refine ⟨{ path := place directory job tag ch }, h.stream ch, rfl, ?_, fun _ => rfl, nofun⟩
  rw [h.files.textAt]
  rfl

theorem get?_exporters (h : Opened directory job tag w rt w') (ch : Channel) :
    Assoc.get? ch rt.exporters = some (exporterOf (w.streams.length + ch.number)) := by
  rw [h.exporters, get?_all_map]

theorem closing_eq (h : Opened directory job tag w rt w') :
    rt.closing = Channel.all.forM fun ch => FileExport.finish (w.streams.length + ch.number) := by
  unfold Router.closing
  rw [h.exporters, h.release]
  simp only [List.forM_eq_forM, List.forM_map, List.forM_nil, bind_pure_unit]
  rfl

end Opened

/-- What stays fixed while a run goes on, and tells which files were opened. -/
structure Fixed (watched : Set Resource) (places : Channel → Path) (opened : Channel → Prop)
    (fixed : World → Prop) : Prop where
  covers : Resource.outputs ⊆ watched
  stable : ∀ {v v' : World} {scope : Set Resource}, fixed v → v.Changes scope v' → Disjoint scope watched → fixed v'
  outputs : ∀ {v v' : World}, fixed v → v.Changes Resource.outputs v' → fixed v'
  opened : ∀ {v : World} {ch : Channel}, fixed v → v.files.Opens (places ch) → opened ch

theorem ledger {c : OutputConfig} {rt : Router World} {watched : Set Resource} {opened : Channel → Prop}
    {fixed : World → Prop} (hformat : c.format = .json) (h : Opened directory job tag w rt w')
    (hfixed : Fixed watched (place directory job tag) opened fixed) :
    Ledger c job directory tag w watched rt fun l v =>
      Holds (place directory job tag) w.streams.length
        (fun ch => w.files.textAt (place directory job tag ch).resolve) opened l v ∧ fixed v where
  keeps := {
    exporter := fun ch => ⟨_, h.get?_exporters ch⟩
    write := by
      rintro ch e l r s t he ⟨hl, hs⟩ hwrite
      rw [h.get?_exporters ch] at he
      cases he
      obtain ⟨hheld, hchanges⟩ := hl.write (hfixed.opened hs) hwrite
      exact ⟨hheld, hfixed.outputs hs hchanges⟩ }
  counts := h.counts
  stable := by
    rintro l v v' scope ⟨hl, hv⟩ hchanges hdisjoint
    refine ⟨fun ch => ?_, hfixed.stable hv hchanges hdisjoint⟩
    have hkept {x : Resource} (hx : x ∈ Resource.outputs) : x ∉ scope := fun hmem =>
      Set.disjoint_left.mp hdisjoint hmem (hfixed.covers hx)
    obtain ⟨s, hs, hstores⟩ := hl ch
    refine ⟨s, ?_, hstores.path, ?_, hstores.closed, hstores.isOpen⟩
    · rw [hchanges.stream _ (hkept trivial), hs]
    · rw [← hstores.text]
      congr 1
      exact hchanges.storage.files.text _ (hkept (isLog_resolve_place directory job tag ch))
  settled := by
    rintro l v v' ⟨hl, -⟩ hclosing ch
    rw [h.closing_eq] at hclosing
    obtain ⟨hkept, hsettled⟩ := hl.finishAll (apart_place directory job tag) hclosing
    obtain ⟨s, hs, hpending⟩ := hsettled ch (Channel.mem_all ch)
    obtain ⟨s', hs', hstores⟩ := hkept.holds ch
    rw [hs] at hs'
    cases hs'
    have htext := hstores.text
    rw [hpending, Text.encodeUtf8_empty, ByteArray.append_empty] at htext
    unfold OutputConfig.Added
    rw [hformat]
    exact htext
  writes := by
    rintro l v v' ch e r ⟨hl, hv⟩ he hwrite
    rw [h.get?_exporters ch] at he
    cases he
    exact (hl.write (hfixed.opened hv) hwrite).2
  closes := by
    rintro l v v' ⟨hl, -⟩ hclosing
    rw [h.closing_eq] at hclosing
    exact (hl.finishAll (apart_place directory job tag) hclosing).1.changes

theorem fixed_true (places : Channel → Path) :
    Fixed Resource.outputs places (fun _ => True) (fun _ => True) :=
  ⟨subset_rfl, fun _ _ _ => trivial, fun _ _ => trivial, fun _ _ => trivial⟩

/-! ### Fixed directories -/

/-- Whether directories are those of a tree. -/
def SameDirectories (t : FileTree) (v : World) : Prop := ∀ p, v.files.isDirectory p = t.isDirectory p

theorem fixed_directories (t : FileTree) (places : Channel → Path) :
    Fixed (Resource.outputs ∪ {.directories}) places (fun ch => t.Opens (places ch)) (SameDirectories t) where
  covers := Set.subset_union_left
  stable hv hchanges hdisjoint p := by
    rw [← hv p]
    exact hchanges.storage.files.directories
      (fun hmem => Set.disjoint_left.mp hdisjoint hmem (.inr rfl)) p
  outputs hv hchanges p := by
    rw [← hv p]
    exact hchanges.storage.files.directories (fun hmem => hmem) p
  opened hv hopens := hopens.congr fun q => (hv q).symm

theorem Holds.write_returns_iff {t : FileTree} (h : Holds places base before (fun ch => t.Opens (places ch)) l w)
    (hsame : SameDirectories t w) (ch : Channel) (r : Record) :
    (∃ w', (FileExport.write (base + ch.number) r).exec w = (.ok (), w')) ↔ t.Opens (places ch) := by
  obtain ⟨s, hs, hstores⟩ := h ch
  rw [exec_write hs, hstores.path]
  cases hopen : s.isOpen with
  | true => exact ⟨fun _ => hstores.isOpen hopen, fun _ => ⟨_, rfl⟩⟩
  | false =>
    constructor
    · rintro ⟨w', hw'⟩
      cases happend : w.files.append (places ch) .empty with
      | error e =>
        rw [happend] at hw'
        cases hw'
      | ok files => exact (FileTree.append_eq_ok happend).1.congr fun q => (hsame q).symm
    · intro hopens
      rw [FileTree.append_of_opens (hopens.congr hsame)]
      exact ⟨_, rfl⟩

theorem Holds.flush_returns {t : FileTree} (h : Holds places base before (fun ch => t.Opens (places ch)) l w)
    (hsame : SameDirectories t w) (ch : Channel) :
    ∃ w', (FileExport.flush (base + ch.number)).exec w = (.ok (), w') := by
  obtain ⟨s, hs, hstores⟩ := h ch
  rw [exec_flush hs, hstores.path]
  cases hopen : s.isOpen with
  | true =>
    rw [FileTree.append_of_opens ((hstores.isOpen hopen).congr hsame)]
    exact ⟨_, rfl⟩
  | false => exact ⟨w, rfl⟩

theorem Holds.finishAll_returns {t : FileTree} (hplaces : Apart places) (chs : List Channel)
    (h : Holds places base before (fun ch => t.Opens (places ch)) l w) (hsame : SameDirectories t w) :
    ∃ w', (chs.forM fun ch => FileExport.finish (base + ch.number)).exec w = (.ok (), w') := by
  have houtputs {v v' : World} (hv : SameDirectories t v) (hchanges : v.Changes Resource.outputs v') :=
    (fixed_directories t places).outputs hv hchanges
  induction chs generalizing w with
  | nil => exact ⟨w, rfl⟩
  | cons ch rest ih =>
    obtain ⟨w₁, hflush⟩ := h.flush_returns hsame ch
    obtain ⟨hkept₁, -⟩ := h.flush hplaces hflush
    obtain ⟨w₂, hflush'⟩ := hkept₁.holds.flush_returns (houtputs hsame hkept₁.changes) ch
    have hfinish : (FileExport.finish (base + ch.number)).exec w =
        (.ok (), stepped w₂ w₂.files (base + ch.number) shut) := by
      unfold FileExport.finish close
      rw [Action.exec_bind_ok hflush, Action.exec_bind_ok hflush']
      rfl
    obtain ⟨hkept, -⟩ := h.finish hplaces hfinish
    obtain ⟨w', hrest⟩ := ih hkept.holds (houtputs hsame hkept.changes)
    exact ⟨w', by rw [← hrest]; exact Action.exec_bind_ok hfinish _⟩

/-- A run to files takes the records of the channels whose files can be opened. -/
theorem steadyLedger {c : OutputConfig} {rt : Router World} (hformat : c.format = .json)
    (h : Opened directory job tag w rt w') :
    SteadyLedger c job directory tag w (fun ch => w'.files.Opens (place directory job tag ch)) rt fun l v =>
      Holds (place directory job tag) w.streams.length
        (fun ch => w.files.textAt (place directory job tag ch).resolve)
        (fun ch => w'.files.Opens (place directory job tag ch)) l v ∧ SameDirectories w'.files v where
  toLedger := ledger hformat h (fixed_directories w'.files (place directory job tag))
  takes := by
    rintro ch e l r v he ⟨hl, hv⟩
    rw [h.get?_exporters ch] at he
    cases he
    exact hl.write_returns_iff hv ch r
  returns := by
    rintro l v ⟨hl, hv⟩
    rw [h.closing_eq]
    exact hl.finishAll_returns (apart_place directory job tag) Channel.all hv

/-! ## Files that are there -/

/-- The file of a channel is there once a record was written to it. -/
structure Shows (place : Path) (records : List Record) (files : FileTree) (s : Stream) : Prop where
  path : s.path = place
  isOpen : records = [] → s.isOpen = false
  isFile : files.isFile place.resolve = !records.isEmpty

/-- Which files of a run are there. -/
def Shown (places : Channel → Path) (base : Nat) (l : Routed) : World → Prop :=
  Each base fun ch => Shows (places ch) (l ch)

theorem Shown.appended {content : ByteArray} {files : FileTree} {f : Stream → Stream} (hplaces : Apart places)
    (h : Shown places base l w) (hs : w.streams[base + ch.number]? = some s)
    (happend : w.files.append s.path content = .ok files) (hpath : (f s).path = s.path) (hmore : l' ch ≠ [])
    (hl : ∀ ch', ch' ≠ ch → l' ch' = l ch') : Shown places base l' (stepped w files (base + ch.number) f) := by
  obtain ⟨-, happended⟩ := FileTree.append_eq_ok happend
  obtain ⟨s', hs', hshows⟩ := h ch
  rw [hs] at hs'
  cases hs'
  refine Each.changed h hs ⟨hpath.trans hshows.path, fun hnil => absurd hnil hmore, ?_⟩ ?_
  · rw [← hshows.path, happended.file]
    simp [hmore]
  · intro ch' s' hch hother
    rw [hl ch' hch]
    refine ⟨hother.path, hother.isOpen, ?_⟩
    have hplace (heq : _) := hch (hplaces.injective ch' ch (hshows.path ▸ heq))
    rw [← hother.isFile, FileTree.isFile, happended.other _ hplace]
    rfl

theorem Shown.write (hplaces : Apart places) (h : Shown places base l w)
    (hwrite : (write (base + ch.number) r).exec w = (.ok (), w')) :
    Shown places base (l.add [⟨ch, r⟩]) w' := by
  obtain ⟨s, hs, hshows⟩ := h ch
  have hadd (ch' : Channel) (hch : ch' ≠ ch) : l.add [⟨ch, r⟩] ch' = l ch' := l.add_of_ne hch.symm r
  have hmore : l.add [⟨ch, r⟩] ch ≠ [] := by simp
  rw [exec_write hs] at hwrite
  split at hwrite
  · rename_i hopen
    cases hwrite
    have hnil : l ch ≠ [] := fun hnil => by simp [hshows.isOpen hnil] at hopen
    refine Each.changed h hs ⟨hshows.path, fun hempty => absurd hempty hmore, ?_⟩ fun ch' s' hch hother => ?_
    · rw [hshows.isFile, List.isEmpty_eq_false_iff.mpr hnil, List.isEmpty_eq_false_iff.mpr hmore]
    · rwa [hadd ch' hch]
  · split at hwrite
    · rename_i files happend
      cases hwrite
      exact h.appended hplaces hs happend rfl hmore hadd
    · cases hwrite

theorem Shown.flush (hplaces : Apart places) (h : Shown places base l w)
    (hflush : (flush (base + ch.number)).exec w = (.ok (), w')) : Shown places base l w' := by
  obtain ⟨s, hs, hshows⟩ := h ch
  rw [exec_flush hs] at hflush
  split at hflush
  · rename_i hopen
    split at hflush
    · rename_i files happend
      cases hflush
      exact h.appended hplaces hs happend rfl (fun hnil => by simp [hshows.isOpen hnil] at hopen) fun _ _ => rfl
    · cases hflush
  · cases hflush
    exact h

theorem Shown.finish (hplaces : Apart places) (h : Shown places base l w)
    (hfinish : (FileExport.finish (base + ch.number)).exec w = (.ok (), w')) : Shown places base l w' := by
  obtain ⟨_, w₁, hflush, hclose⟩ := Action.exec_bind_eq_ok hfinish
  obtain ⟨_, w₂, hflush', hclosed⟩ := Action.exec_bind_eq_ok hclose
  have h₂ := (h.flush hplaces hflush).flush hplaces hflush'
  cases hclosed
  obtain ⟨s, hs, hshows⟩ := h₂ ch
  exact Each.changed h₂ hs ⟨hshows.path, fun _ => rfl, hshows.isFile⟩ fun _ _ _ hother => hother

theorem Shown.finishAll (hplaces : Apart places) {chs : List Channel} (h : Shown places base l w)
    (hfinish : (chs.forM fun ch => FileExport.finish (base + ch.number)).exec w = (.ok (), w')) :
    Shown places base l w' := by
  induction chs generalizing w with
  | nil =>
    cases hfinish
    exact h
  | cons ch rest ih =>
    obtain ⟨_, w₁, hfirst, hrest⟩ := Action.exec_bind_eq_ok hfinish
    exact ih (h.finish hplaces hfirst) hrest

end FileExport

end DocFetch

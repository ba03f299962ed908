import DocFetch.Proofs.Export.Ledger
import Mathlib.Data.List.Basic

/-! # Collections of documents

Every record is inserted at once, by the client of the run, which is the last that inserted anything. A database
that refuses takes none.
-/

namespace DocFetch

/-! ## Collections -/

namespace World

variable {w w' : World} {n m : Nat} {uri : String} {k : String × String} {scope : Set Resource}

theorem collectedByFirst_succ (w : World) (n : Nat) (uri : String) (k : String × String) :
    w.collectedByFirst (n + 1) uri k = w.collectedByFirst n uri k ++
      if (w.clients[n]?).map MongoClient.uri = some uri then w.insertedBy n k else [] := by
  rw [collectedByFirst, List.range_succ, List.flatMap_append, List.flatMap_singleton]
  rfl

theorem collectedByFirst_congr (h : ∀ m < n,
    (w'.clients[m]?).map MongoClient.uri = (w.clients[m]?).map MongoClient.uri ∧
    w'.insertedBy m k = w.insertedBy m k) : w'.collectedByFirst n uri k = w.collectedByFirst n uri k := by
  refine List.flatMap_congr fun m hm => ?_
  obtain ⟨huri, hinserted⟩ := h m (List.mem_range.mp hm)
  rw [huri, hinserted]

theorem collectedByFirst_of_nil (hle : n ≤ m) (hnil : ∀ i, n ≤ i → w.insertedBy i k = []) :
    w.collectedByFirst m uri k = w.collectedByFirst n uri k := by
  induction m, hle using Nat.le_induction with
  | base => rfl
  | succ m hm ih => rw [collectedByFirst_succ, hnil m hm, ite_self, List.append_nil, ih]

theorem Changes.length_le (h : w.Changes scope w') : w.clients.length ≤ w'.clients.length := by
  rcases hlength : w.clients.length with _ | m
  · exact Nat.zero_le _
  · obtain ⟨c, hc⟩ : ∃ c, w.clients[m]? = some c :=
      ⟨_, List.getElem?_eq_getElem (hlength ▸ Nat.lt_succ_self m)⟩
    obtain ⟨c', hc', -⟩ := h.client m c hc
    exact (List.getElem?_eq_some_iff.mp hc').1

theorem Changes.collected (h : w.Changes scope w') (hk : ∀ m, .inserted m k ∉ scope) :
    w'.collected uri k = w.collected uri k := by
  unfold World.collected
  rw [collectedByFirst_of_nil h.length_le]
  · refine collectedByFirst_congr fun m hm => ⟨?_, h.inserted m k (hk m)⟩
    obtain ⟨c', hc', hcontinues⟩ := h.client m _ (List.getElem?_eq_getElem hm)
    rw [hc', List.getElem?_eq_getElem hm, Option.map_some, Option.map_some, hcontinues.uri]
  · intro m hm
    rw [h.inserted m k (hk m), insertedBy_of_length_le hm]

/-- A collection in which a client, and none after it, inserted something. -/
theorem collected_of_last {c : MongoClient} (hc : w.clients[n]? = some c) (huri : c.uri = uri)
    (hlast : ∀ m, n < m → w.insertedBy m k = []) :
    w.collected uri k = w.collectedByFirst n uri k ++ w.insertedBy n k := by
  have hn : n + 1 ≤ w.clients.length := (List.getElem?_eq_some_iff.mp hc).1
  rw [World.collected, collectedByFirst_of_nil hn hlast, collectedByFirst_succ, hc, Option.map_some, huri,
    if_pos rfl]

end World

namespace CollectionExport

def exporterOf (n : Nat) (database collection : String) : Exporter World where
  write := fun r => World.insert n database collection r.toValue
  flush := pure ()
  close := if false then World.changeClient n MongoClient.close else pure ()

variable {w w' : World} {n : Nat} {uri database job : String} {refusal : Option String}
  {before : Channel → List Value} {l : Routed} {scope : Set Resource}

theorem place_injective {ch ch' : Channel} (h : place database job ch = place database job ch') : ch = ch' := by
  unfold place at h
  rw [Prod.mk.injEq, String.append_right_inj] at h
  exact Channel.name_injective h.2

/-- What the collections of a run hold; its client has number `n`, and `refusal` is what its database says to it. -/
structure Holds (n : Nat) (uri database job : String) (refusal : Option String) (before : Channel → List Value)
    (l : Routed) (w : World) : Prop where
  client : ∃ c, w.clients[n]? = some c ∧ c.uri = uri
  refusal : w.refusal uri = refusal
  last : ∀ m k, n < m → w.insertedBy m k = []
  collected : ∀ ch, w.collected uri (place database job ch) = before ch ++ (l ch).map Record.toValue

/-- The world after a client inserted a document. -/
def inserted (w : World) (n : Nat) (place : String × String) (document : Value) : World :=
  { w with clients := w.clients.modify n (·.insert place.1 place.2 document) }

theorem getElem?_inserted {m : Nat} (hm : n ≠ m) (place : String × String) (document : Value) :
    (inserted w n place document).clients[m]? = w.clients[m]? :=
  List.getElem?_modify_ne _ _ hm

theorem insertedBy_inserted {c : MongoClient} (hc : w.clients[n]? = some c) (place : String × String)
    (document : Value) (m : Nat) (k : String × String) :
    (inserted w n place document).insertedBy m k =
      if m = n ∧ k = place then w.insertedBy m k ++ [document] else w.insertedBy m k := by
  unfold World.insertedBy inserted
  dsimp only
  rw [List.getElem?_modify]
  by_cases hm : m = n
  · subst hm
    rw [hc]
    by_cases hk : k = place
    · subst hk
      simp [MongoClient.insert]
    · simp [MongoClient.insert, hk, Assoc.get?_put_of_ne (Ne.symm hk)]
  · cases w.clients[m]? <;> simp [hm, Ne.symm hm]

theorem changes_inserted (w : World) (n : Nat) (place : String × String) (document : Value) :
    w.Changes Resource.outputs (inserted w n place document) where
  storage := .refl _ w.storage
  stream _ _ := rfl
  connection _ _ := rfl
  inserted _ _ h := absurd trivial h
  drawn _ := rfl
  drawn_le := le_refl _
  client m c hc := by
    refine ⟨if n = m then c.insert place.1 place.2 document else c, ?_, ?_⟩
    · change (w.clients.modify n _)[m]? = _
      rw [List.getElem?_modify, hc]
      split <;> rfl
    · split
      · exact ⟨rfl, rfl, rfl⟩
      · exact ⟨rfl, rfl, rfl⟩
  refusal := rfl

theorem exec_write (n : Nat) (database collection : String) (r : Record) (w : World) :
    ((exporterOf n database collection).write r).exec w =
      match (w.clients[n]?).bind fun c => w.refusal c.uri with
      | some e => (.error (.foreign "PyMongoError" [.text e]), w)
      | none => (.ok (), inserted w n (database, collection) r.toValue) := by
  unfold exporterOf World.insert
  rw [Action.exec_bind_ok (Action.exec_get w)]
  cases (w.clients[n]?).bind fun c => w.refusal c.uri <;> rfl

theorem Holds.inserted (h : Holds n uri database job refusal before l w) (ch : Channel) (r : Record) :
    Holds n uri database job refusal before (l.add [⟨ch, r⟩]) (inserted w n (place database job ch) r.toValue) := by
  obtain ⟨c, hc, huri⟩ := h.client
  have hby := insertedBy_inserted hc (place database job ch) r.toValue
  have hchanges := changes_inserted w n (place database job ch) r.toValue
  obtain ⟨c', hc', hcontinues⟩ := hchanges.client n c hc
  refine ⟨⟨c', hc', hcontinues.uri.trans huri⟩, h.refusal, ?_, ?_⟩
  · intro m k hm
    rw [hby, if_neg fun hmem => hm.ne' hmem.1, h.last m k hm]
  · intro ch'
    have hlater (m : Nat) (hm : n < m) :
        (CollectionExport.inserted w n (place database job ch) r.toValue).insertedBy m (place database job ch') =
          [] := by
      rw [hby, if_neg fun hmem => hm.ne' hmem.1, h.last m _ hm]
    rw [World.collected_of_last hc' (hcontinues.uri.trans huri) hlater, hby]
    have hbefore := h.collected ch'
    rw [World.collected_of_last hc huri fun m hm => h.last m _ hm] at hbefore
    have hearlier : (CollectionExport.inserted w n (place database job ch) r.toValue).collectedByFirst n uri
        (place database job ch') = w.collectedByFirst n uri (place database job ch') := by
      refine World.collectedByFirst_congr fun m hm => ⟨?_, ?_⟩
      · rw [getElem?_inserted hm.ne']
      · rw [hby, if_neg fun hmem => hm.ne hmem.1]
    rw [hearlier]
    by_cases hch : ch' = ch
    · subst hch
      rw [if_pos ⟨rfl, rfl⟩, ← List.append_assoc, hbefore, l.add_self, List.map_append, List.append_assoc]
      rfl
    · rw [if_neg fun hmem => hch (place_injective hmem.2), hbefore, l.add_of_ne (Ne.symm hch)]

/-- A record is taken just if the database does not refuse. -/
theorem Holds.write_eq_ok_iff (h : Holds n uri database job refusal before l w) (ch : Channel) (r : Record) :
    ((exporterOf n database (job ++ "." ++ ch.name)).write r).exec w = (.ok (), w') ↔
      refusal = none ∧ w' = CollectionExport.inserted w n (place database job ch) r.toValue := by
  obtain ⟨c, hc, huri⟩ := h.client
  rw [exec_write, hc, Option.bind_some, huri, h.refusal]
  cases refusal with
  | none =>
    constructor
    · intro heq
      exact ⟨rfl, (congrArg Prod.snd heq).symm⟩
    · rintro ⟨-, rfl⟩
      rfl
  | some e => exact iff_of_false (fun heq => by cases heq) fun hnone => by cases hnone.1

/-! ## Routers -/

theorem changes_changed {f : MongoClient → MongoClient} (hf : ∀ c : MongoClient, c.Continues (f c))
    (hinserted : ∀ c, (f c).inserted = c.inserted) (h : (World.changeClient n f).exec w = (.ok (), w')) :
    w.Changes ∅ w' := by
  cases h
  exact World.moves_changeClient hf hinserted n w

theorem openCollection_eq_ok {collection : String} {e : Exporter World}
    (h : (openCollection n database collection).exec w = (.ok e, w')) :
    e = exporterOf n database collection ∧ w'.clients.length = w.clients.length ∧ w.Changes ∅ w' := by
  unfold openCollection at h
  obtain ⟨_, w₁, haccess, h⟩ := Action.exec_bind_eq_ok h
  cases h
  refine ⟨rfl, ?_, changes_changed (World.continues_access · database collection) (fun _ => rfl) haccess⟩
  cases haccess
  exact List.length_modify _ _ _

/-- What a run to collections has opened. -/
structure Opened (uri database job : String) (w : World) (r : Router World) (w' : World) : Prop where
  exporters : r.exporters = Channel.all.map fun ch =>
    (ch, exporterOf w.clients.length database (job ++ "." ++ ch.name))
  release : r.release = [World.changeClient w.clients.length MongoClient.close]
  counts : ∀ ch, r.counts ch = 0
  client : ∃ c, w'.clients[w.clients.length]? = some c ∧ c.uri = uri
  length : w'.clients.length = w.clients.length + 1
  changes : w.Changes ∅ w'

theorem openRouter_eq_ok {config : OutputConfig} {directory : Path} {tag : String} {rt : Router World}
    (hformat : config.format = .mongodb) (h : (config.openRouter job directory tag).exec w = (.ok rt, w')) :
    Opened (config.uri.getD "") config.database job w rt w' := by
  unfold OutputConfig.openRouter at h
  rw [hformat] at h
  obtain ⟨n, w₀, hnew, h⟩ := Action.exec_bind_eq_ok h
  obtain ⟨exporters, w₄, hexporters, h⟩ := Action.exec_bind_eq_ok h
  cases h
  have hchanges₀ : w.Changes ∅ w₀ := by
    cases hnew
    exact World.changes_newClient _ w
  cases hnew
  obtain ⟨e₀, e₁, e₂, e₃, w₁, w₂, w₃, h₀, h₁, h₂, h₃, rfl⟩ := exportersFor_eq_ok hexporters
  obtain ⟨rfl, hlength₀, hopened₀⟩ := openCollection_eq_ok h₀
  obtain ⟨rfl, hlength₁, hopened₁⟩ := openCollection_eq_ok h₁
  obtain ⟨rfl, hlength₂, hopened₂⟩ := openCollection_eq_ok h₂
  obtain ⟨rfl, hlength₃, hopened₃⟩ := openCollection_eq_ok h₃
  have hopened := ((hopened₀.trans hopened₁).trans hopened₂).trans hopened₃
  obtain ⟨c, hc, hcontinues⟩ := hopened.client _ _ List.getElem?_concat_length
  refine ⟨rfl, rfl, fun _ => rfl, ⟨c, hc, hcontinues.uri⟩, ?_, hchanges₀.trans hopened⟩
  rw [hlength₃, hlength₂, hlength₁, hlength₀]
  exact List.length_append

namespace Opened

variable {rt : Router World}

theorem get?_exporters (h : Opened uri database job w rt w') (ch : Channel) :
    Assoc.get? ch rt.exporters = some (exporterOf w.clients.length database (job ++ "." ++ ch.name)) := by
  rw [h.exporters, get?_all_map]

theorem holds (h : Opened uri database job w rt w') :
    Holds w.clients.length uri database job (w'.refusal uri) (fun ch => w.collected uri (place database job ch))
      .nothing w' where
  client := h.client
  refusal := rfl
  last m k hm := World.insertedBy_of_length_le (h.length ▸ hm) k
  collected ch := by
    rw [h.changes.collected fun _ => Set.notMem_empty _]
    exact (List.append_nil _).symm

theorem exec_closing (h : Opened uri database job w rt w') (v : World) :
    ∃ v', rt.closing.exec v = (.ok (), v') ∧ v.Changes ∅ v' := by
  have hclosing : rt.closing = World.changeClient w.clients.length MongoClient.close := by
    unfold Router.closing
    rw [h.exporters, h.release]
    rfl
  rw [hclosing]
  exact ⟨_, rfl, World.moves_changeClient World.continues_close (fun _ => rfl) _ v⟩

end Opened

theorem Holds.changed (h : Holds n uri database job refusal before l w) (hchanges : w.Changes scope w')
    (hscope : ∀ m k, .inserted m k ∉ scope) : Holds n uri database job refusal before l w' where
  client := by
    obtain ⟨c, hc, huri⟩ := h.client
    obtain ⟨c', hc', hcontinues⟩ := hchanges.client n c hc
    exact ⟨c', hc', hcontinues.uri.trans huri⟩
  refusal := by rw [hchanges.refusal, h.refusal]
  last m k hm := by rw [hchanges.inserted m k (hscope m k), h.last m k hm]
  collected ch := by rw [hchanges.collected fun m => hscope m _, h.collected ch]

theorem ledger {config : OutputConfig} {directory : Path} {tag : String} {rt : Router World}
    (hformat : config.format = .mongodb) (h : Opened (config.uri.getD "") config.database job w rt w') :
    Ledger config job directory tag w Resource.outputs rt
      (Holds w.clients.length (config.uri.getD "") config.database job (w'.refusal (config.uri.getD "")) fun ch =>
        w.collected (config.uri.getD "") (place config.database job ch)) where
  keeps := {
    exporter := fun ch => ⟨_, h.get?_exporters ch⟩
    write := by
      intro ch e l r s t he hl hwrite
      rw [h.get?_exporters ch] at he
      cases he
      obtain ⟨-, rfl⟩ := (hl.write_eq_ok_iff ch r).mp hwrite
      exact hl.inserted ch r }
  counts := h.counts
  stable := by
    intro l v v' scope hl hchanges hdisjoint
    exact hl.changed hchanges fun _ _ hmem => Set.disjoint_left.mp hdisjoint hmem trivial
  settled := by
    intro l v v' hl hclosing ch
    obtain ⟨u, hu, hchanges⟩ := h.exec_closing v
    cases hu.symm.trans hclosing
    unfold OutputConfig.Added
    rw [hformat]
    exact (hl.changed hchanges fun _ _ => Set.notMem_empty _).collected ch
  writes := by
    intro l v v' ch e r hl he hwrite
    rw [h.get?_exporters ch] at he
    cases he
    obtain ⟨-, rfl⟩ := (hl.write_eq_ok_iff ch r).mp hwrite
    exact changes_inserted _ _ _ _
  closes := by
    intro l v v' hl hclosing
    obtain ⟨u, hu, hchanges⟩ := h.exec_closing v
    cases hu.symm.trans hclosing
    exact hchanges.mono (Set.empty_subset _)

/-- A run to collections takes every record where the database refuses none. -/
theorem steadyLedger {config : OutputConfig} {directory : Path} {tag : String} {rt : Router World}
    (hformat : config.format = .mongodb) (h : Opened (config.uri.getD "") config.database job w rt w') :
    SteadyLedger config job directory tag w (fun _ => w'.refusal (config.uri.getD "") = none) rt
      (Holds w.clients.length (config.uri.getD "") config.database job (w'.refusal (config.uri.getD "")) fun ch =>
        w.collected (config.uri.getD "") (place config.database job ch)) where
  toLedger := (ledger hformat h).mono Set.subset_union_left
  takes := by
    intro ch e l r v he hl
    rw [h.get?_exporters ch] at he
    cases he
    constructor
    · rintro ⟨t, hwrite⟩
      exact ((hl.write_eq_ok_iff ch r).mp hwrite).1
    · exact fun hnone => ⟨_, (hl.write_eq_ok_iff ch r).mpr ⟨hnone, rfl⟩⟩
  returns := by
    intro l v hl
    obtain ⟨v', hv', -⟩ := h.exec_closing v
    exact ⟨v', hv'⟩

end CollectionExport

end DocFetch

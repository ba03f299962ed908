import DocFetch.Proofs.Store.Stored
import DocFetch.Store.Mongo

/-! # Documents of a document database

The fields of a document may hold any data. Reading sorts every answer of the driver: a document that can be read,
one that cannot, none, and a look-up that failed.
-/

namespace DocFetch.Mongo

variable {α σ : Type} {fields : List (Value × Value)}

/-- The numbers that fields give a document; no expiry is zero. -/
def Numbers (fields : List (Value × Value)) (d : Document α) : Prop :=
  ∃ cas expiry : Int, Value.field? "cas" fields = some (.int cas) ∧
    (Value.field? "expiry" fields = some (.int expiry) ∨ Value.field? "expiry" fields = none ∧ expiry = 0) ∧
    d.Numbered cas expiry

/-- The document that is read from fields as text. -/
def ReadsText (fields : List (Value × Value)) (d : Document String) : Prop :=
  Value.field? "content" fields = some (.text d.content) ∧ Numbers fields d

/-- The document that is read from fields as bytes; a text gives those of its UTF-8 form. -/
def ReadsBytes (fields : List (Value × Value)) (d : Document ByteArray) : Prop :=
  (Value.field? "content" fields = some (.bytes d.content) ∨
    ∃ text, Value.field? "content" fields = some (.text text) ∧ d.content = Text.encodeUtf8 text) ∧ Numbers fields d

theorem numbers_iff {d : Document α} : Numbers fields d ↔
    ∃ c e, (Value.field? "cas" fields).getD .null = .int c ∧
      (Value.field? "expiry" fields).getD (.int 0) = .int e ∧ d.Numbered c e := by
  have hcas (c : Int) : (Value.field? "cas" fields).getD .null = .int c ↔ Value.field? "cas" fields = some (.int c) := by
    cases Value.field? "cas" fields <;> simp
  have hexpiry (e : Int) : (Value.field? "expiry" fields).getD (.int 0) = .int e ↔
      (Value.field? "expiry" fields = some (.int e) ∨ Value.field? "expiry" fields = none ∧ e = 0) := by
    cases Value.field? "expiry" fields with
    | none => simp [eq_comm]
    | some v => simp
  unfold Numbers
  simp only [hcas, hexpiry]

theorem settled_documentOf {content : α} {Reads : List (Value × Value) → Document α → Prop} {absent : Failure}
    (h : ∀ d, Reads fields d ↔ d.content = content ∧ Numbers fields d) (id : String) :
    Settled Reads absent (some fields) (documentOf id content fields) := by
  apply Settled.ofStored
  intro d
  rw [h, numbers_iff]

theorem settled_readJson (bucket id : String) (stored : Option (List (Value × Value))) :
    Settled ReadsText (missingFrom bucket id) stored (readJson bucket id (.ok stored)) := by
  cases stored with
  | none => exact .nothing
  | some fields =>
    have hfound : found bucket id (.ok (some fields)) = pure fields := rfl
    unfold readJson
    rw [hfound, pure_bind]
    split
    · rename_i s hcontent
      apply settled_documentOf
      intro d
      unfold ReadsText
      rw [hcontent]
      simp [eq_comm]
    · rename_i hcontent
      refine .failed ?_ ⟨_, rfl, rfl⟩
      intro d hd
      exact hcontent d.content hd.1

theorem settled_readBinary (bucket id : String) (stored : Option (List (Value × Value))) :
    Settled ReadsBytes (missingFrom bucket id) stored (readBinary bucket id (.ok stored)) := by
  cases stored with
  | none => exact .nothing
  | some fields =>
    have hfound : found bucket id (.ok (some fields)) = pure fields := rfl
    unfold readBinary
    rw [hfound, pure_bind]
    split
    · rename_i s hcontent
      apply settled_documentOf
      intro d
      unfold ReadsBytes
      rw [hcontent]
      simp
    · rename_i b hcontent
      apply settled_documentOf
      intro d
      unfold ReadsBytes
      rw [hcontent]
      simp [eq_comm]
    · rename_i htext hbytes
      refine .failed ?_ ⟨_, rfl, rfl⟩
      intro d hd
      rcases hd.1 with hcontent | ⟨text, hcontent, -⟩
      · exact hbytes d.content hcontent
      · exact htext text hcontent

/-- A read ends as the answer of the driver says, whatever the fields of a document hold. -/
theorem fields_settle_reads (bucket : String) (find : String → StateM σ (Except String (Option (List (Value × Value)))))
    (close : Action σ Unit) (id : String) (s : σ) :
    let json := (((reader bucket find close).getJson id).exec s).1
    let binary := (((reader bucket find close).getBinary id).exec s).1
    match ((find id).run s).1 with
    | .ok stored =>
      Settled ReadsText (missingFrom bucket id) stored json ∧ Settled ReadsBytes (missingFrom bucket id) stored binary
    | .error _ => (∃ f, json = .error f ∧ f.IsOf .connection) ∧ ∃ f, binary = .error f ∧ f.IsOf .connection := by
  intro json binary
  have hjson : json = readJson bucket id ((find id).run s).1 := rfl
  have hbinary : binary = readBinary bucket id ((find id).run s).1 := rfl
  rw [hjson, hbinary]
  cases ((find id).run s).1 with
  | ok stored => exact ⟨settled_readJson bucket id stored, settled_readBinary bucket id stored⟩
  | error message => exact ⟨⟨_, rfl, _, rfl, rfl⟩, ⟨_, rfl, _, rfl, rfl⟩⟩

end DocFetch.Mongo

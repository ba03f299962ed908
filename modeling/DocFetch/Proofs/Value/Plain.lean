import DocFetch.Config.Fields

/-! # Plain values

Values that a text format can hold as they are: no dates and no bytes, and mappings with texts for keys. Making
a value plain leaves them alone.
-/

namespace DocFetch

namespace Value

/-! ## Equality -/

mutual

theorem beq_self (v : Value) : v.beq v = true := by
  cases v with
  | null => rfl
  | bool | int | float | text | date | moment => exact beq_self_eq_true _
  | bytes b =>
    change (b.data == b.data) = true
    exact beq_self_eq_true _
  | list items => exact beqItems_self items
  | map entries => exact beqEntries_self entries

theorem beqItems_self : ∀ items : List Value, beqItems items items = true
  | [] => rfl
  | v :: rest => by rw [beqItems, beq_self v, beqItems_self rest, Bool.and_self]

theorem beqEntries_self : ∀ entries : List (Value × Value), beqEntries entries entries = true
  | [] => rfl
  | (k, v) :: rest => by
    rw [beqEntries, beq_self k, beq_self v, beqEntries_self rest, Bool.and_self, Bool.and_self]

end

mutual

theorem eq_of_beq {a b : Value} (h : a.beq b = true) : a = b := by
  cases a <;> cases b <;> first | cases h | skip
  case null.null => rfl
  case list.list as bs => rw [eq_of_beqItems h]
  case map.map as bs => rw [eq_of_beqEntries h]
  case bytes.bytes a b =>
    have hdata : a.data = b.data := LawfulBEq.eq_of_beq h
    rw [ByteArray.ext hdata]
  all_goals rw [LawfulBEq.eq_of_beq h]

theorem eq_of_beqItems {as bs : List Value} (h : beqItems as bs = true) : as = bs := by
  cases as <;> cases bs <;> first | cases h | skip
  case nil.nil => rfl
  case cons.cons a as b bs =>
    rw [beqItems, Bool.and_eq_true] at h
    rw [eq_of_beq h.1, eq_of_beqItems h.2]

theorem eq_of_beqEntries {as bs : List (Value × Value)} (h : beqEntries as bs = true) : as = bs := by
  cases as <;> cases bs <;> first | cases h | skip
  case nil.nil => rfl
  case cons.cons a as b bs =>
    rw [beqEntries, Bool.and_eq_true, Bool.and_eq_true] at h
    rw [Prod.ext (eq_of_beq h.1.1) (eq_of_beq h.1.2), eq_of_beqEntries h.2]

end

instance : LawfulBEq Value where
  eq_of_beq := eq_of_beq
  rfl := beq_self _

instance : DecidableEq Value := fun _ _ => decidable_of_iff _ beq_iff_eq

/-! ## Plain values -/

inductive IsPlain : Value → Prop
  | null : IsPlain .null
  | bool (b : Bool) : IsPlain (.bool b)
  | int (n : Int) : IsPlain (.int n)
  | float (x : Binary64) (finite : x.isFinite = true) : IsPlain (.float x)
  | text (s : String) : IsPlain (.text s)
  | list {items : List Value} (plain : ∀ v ∈ items, IsPlain v) : IsPlain (.list items)
  | object {fields : List (String × Value)} (keys : (fields.map Prod.fst).Nodup)
      (plain : ∀ f ∈ fields, IsPlain f.2) : IsPlain (.object fields)

theorem plainItems_eq_self {items : List Value} (h : ∀ v ∈ items, v.plain = v) : plainItems items = items := by
  induction items with
  | nil => rfl
  | cons v rest ih =>
    rw [plainItems, h v List.mem_cons_self, ih fun w hw => h w (List.mem_cons_of_mem v hw)]

theorem plainEntries_eq_self {fields : List (String × Value)} (h : ∀ f ∈ fields, f.2.plain = f.2) :
    plainEntries (fields.map fun (k, v) => (.text k, v)) = fields.map fun (k, v) => (.text k, v) := by
  induction fields with
  | nil => rfl
  | cons f rest ih =>
    have hkey : (Value.text f.1).plainKey = f.1 := rfl
    rw [List.map_cons, plainEntries, hkey, h f List.mem_cons_self,
      ih fun g hg => h g (List.mem_cons_of_mem f hg)]

theorem IsPlain.plain_eq {v : Value} (h : v.IsPlain) : v.plain = v := by
  induction h with
  | null | bool | int | float | text => rfl
  | list _ ih => rw [plain, plainItems_eq_self ih]
  | @object fields keys _ ih =>
    have hkeys : ((fields.map fun (k, v) => (Value.text k, v)).map Prod.fst).Nodup := by
      rw [List.Nodup, List.pairwise_map] at keys
      rw [List.Nodup, List.map_map, List.pairwise_map]
      exact keys.imp fun hne heq => hne (Value.text.inj heq)
    rw [Value.object, plain, plainEntries_eq_self ih, Assoc.ofList_eq_self hkeys]

end Value

end DocFetch

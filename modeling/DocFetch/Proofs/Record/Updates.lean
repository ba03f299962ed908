import DocFetch.Record.Create

/-! # Records updated again and again

An update gives values to names, and a record takes the values by their texts. Updates of a record compose like
updates of each other: known names keep their places, and new ones follow in the order in which they first appear.
-/

namespace DocFetch

/-- Values under distinct names. -/
structure Updates where
  entries : List (String × Value)
  nodup : (entries.map Prod.fst).Nodup

namespace Updates

def none : Updates := ⟨[], List.nodup_nil⟩

def names (u : Updates) : List String := u.entries.map Prod.fst

/-- Both updates in one; under a common name that of `b` counts. -/
def override (a b : Updates) : Updates := ⟨Assoc.merge a.entries b.entries, Assoc.nodup_keys_merge a.nodup b.entries⟩

def combined (chain : List Updates) : Updates := chain.foldl override none

/-- The updates as attributes. -/
def attributes (u : Updates) : Attributes := attributesOfEntries (u.entries.map fun e => (.text e.1, e.2))

theorem attributes_eq (u : Updates) : u.attributes = u.entries.map (Prod.map id Value.display) := by
  have hshown : (u.entries.map fun e => (Value.text e.1, e.2)).map (fun e => (e.1.display, e.2.display)) =
      u.entries.map (Prod.map id Value.display) := by
    rw [List.map_map]
    rfl
  have hnodup : ((u.entries.map (Prod.map id Value.display)).map Prod.fst).Nodup := by
    rw [List.map_map]
    exact u.nodup
  change Assoc.ofList ((u.entries.map fun e => (Value.text e.1, e.2)).map fun e => (e.1.display, e.2.display)) = _
  rw [hshown, Assoc.ofList_eq_self hnodup]

theorem names_attributes (u : Updates) : u.attributes.map Prod.fst = u.names := by
  rw [attributes_eq, List.map_map]
  rfl

theorem nodup_attributes (u : Updates) : (u.attributes.map Prod.fst).Nodup := by
  rw [names_attributes]
  exact u.nodup

theorem get?_attributes (u : Updates) (k : String) :
    Assoc.get? k u.attributes = (Assoc.get? k u.entries).map Value.display := by
  rw [attributes_eq, Assoc.get?_map]

theorem attributes_override (a b : Updates) : (a.override b).attributes = Assoc.merge a.attributes b.attributes := by
  rw [attributes_eq, attributes_eq, attributes_eq, ← Assoc.map_merge]
  rfl

theorem names_override (a b : Updates) : (a.override b).names = a.names ++ b.names.filter (· ∉ a.names) :=
  Assoc.keys_merge a.entries b.nodup

theorem get?_override (a b : Updates) (k : String) :
    Assoc.get? k (a.override b).entries = (Assoc.get? k b.entries).or (Assoc.get? k a.entries) :=
  Assoc.get?_merge k a.entries b.nodup

theorem eraseDups_names (u : Updates) : u.names.eraseDups = u.names := by
  have hself (names : List String) (h : names.Nodup) : names.eraseDups = names := by
    induction names with
    | nil => rfl
    | cons name rest ih =>
      obtain ⟨hnew, hrest⟩ := List.nodup_cons.mp h
      have hfilter : (rest.filter fun other => !other == name) = rest :=
        List.filter_eq_self.mpr fun other hother => by
          simpa using fun heq : other = name => hnew (heq ▸ hother)
      rw [List.eraseDups_cons, hfilter, ih hrest]
  exact hself u.names u.nodup

theorem names_combined (chain : List Updates) : (combined chain).names = (chain.flatMap names).eraseDups := by
  have hfrom (u : Updates) : (chain.foldl override u).names = (u.names ++ chain.flatMap names).eraseDups := by
    induction chain generalizing u with
    | nil => rw [List.foldl_nil, List.flatMap_nil, List.append_nil, eraseDups_names]
    | cons a rest ih =>
      have hremove : a.names.filter (· ∉ u.names) = a.names.removeAll u.names := by
        simp [List.removeAll]
      rw [List.foldl_cons, ih, names_override, hremove, List.flatMap_cons]
      rw [List.append_assoc, List.eraseDups_append, @List.eraseDups_append _ _ _ u.names]
      simp [List.removeAll, List.filter_append]
  exact hfrom none

end Updates

namespace Record

def names (r : Record) : List String := r.attributes.map Prod.fst

def update (r : Record) (u : Updates) : Record := r.withAttributes u.attributes

/-- The record, and what each update of a chain makes of it. -/
def versions (r : Record) (chain : List Updates) : List Record := chain.scanl update r

variable (r : Record)

theorem update_update (a b : Updates) : (r.update a).update b = r.update (a.override b) := by
  unfold update withAttributes
  rw [Updates.attributes_override, Assoc.merge_merge _ a.nodup_attributes]

theorem update_none : r.update .none = r := rfl

theorem names_update (u : Updates) : (r.update u).names = r.names ++ u.names.filter (· ∉ r.names) := by
  rw [← Updates.names_attributes]
  exact Assoc.keys_merge r.attributes u.nodup_attributes

theorem get?_update (u : Updates) (k : String) :
    Assoc.get? k (r.update u).attributes =
      ((Assoc.get? k u.entries).map Value.display).or (Assoc.get? k r.attributes) := by
  rw [← Updates.get?_attributes]
  exact Assoc.get?_merge k r.attributes u.nodup_attributes

theorem foldl_update (chain : List Updates) : chain.foldl update r = r.update (.combined chain) := by
  have hfrom (u : Updates) : chain.foldl update (r.update u) = r.update (chain.foldl Updates.override u) := by
    induction chain generalizing u with
    | nil => rfl
    | cons a rest ih => rw [List.foldl_cons, update_update, ih, List.foldl_cons]
  exact hfrom .none

/-- What updates leave of a record. -/
structure Kept (updates : List Updates) (r x : Record) : Prop where
  uuid : x.uuid = r.uuid
  payload : x.payload = r.payload
  names : r.names <+: x.names
  value : ∀ k, (∀ u ∈ updates, k ∉ u.names) → Assoc.get? k x.attributes = Assoc.get? k r.attributes

namespace Kept

variable {r} {updates : List Updates} {x y : Record}

theorem refl (updates : List Updates) (r : Record) : Kept updates r r :=
  ⟨rfl, rfl, List.prefix_refl _, fun _ _ => rfl⟩

theorem trans (h : Kept updates r x) (h' : Kept updates x y) : Kept updates r y where
  uuid := h'.uuid.trans h.uuid
  payload := h'.payload.trans h.payload
  names := h.names.trans h'.names
  value k hk := (h'.value k hk).trans (h.value k hk)

theorem update {u : Updates} (hu : u ∈ updates) (r : Record) : Kept updates r (r.update u) where
  uuid := rfl
  payload := rfl
  names := by
    rw [names_update]
    exact List.prefix_append ..
  value k hk := by
    have hnone : Assoc.get? k u.entries = Option.none := by
      rw [← Option.not_isSome_iff_eq_none, Assoc.isSome_get?_iff]
      exact hk u hu
    rw [get?_update, hnone]
    rfl

theorem of_mem_versions {chain : List Updates} (hchain : chain ⊆ updates) (hx : x ∈ r.versions chain) :
    Kept updates r x := by
  induction chain generalizing r with
  | nil =>
    rw [versions, List.scanl_nil, List.mem_singleton] at hx
    rw [hx]
    exact refl updates r
  | cons u rest ih =>
    rw [versions, List.scanl_cons, List.mem_cons] at hx
    rcases hx with rfl | hrest
    · exact refl updates x
    · exact (update (hchain List.mem_cons_self) r).trans (ih (List.subset_of_cons_subset hchain) hrest)

end Kept

/-- An update after another one is one update, in which the later values count. An update without entries changes
nothing. Along a chain the first record stays what it is, each one keeps the uuid, the payload, the places of all names
and the values under those that are not updated, and the last one is the first with the whole chain as one update. -/
theorem updates_compose (r : Record) :
    (∀ a b : Updates, (r.update a).update b = r.update (a.override b) ∧
      (a.override b).names = a.names ++ b.names.filter (· ∉ a.names) ∧
      ∀ k, Assoc.get? k (a.override b).entries = (Assoc.get? k b.entries).or (Assoc.get? k a.entries)) ∧
    (∀ u : Updates, (r.update u).names = r.names ++ u.names.filter (· ∉ r.names) ∧
      ∀ k, Assoc.get? k (r.update u).attributes =
        ((Assoc.get? k u.entries).map Value.display).or (Assoc.get? k r.attributes)) ∧
    r.update .none = r ∧
    ∀ chain : List Updates,
      (r.versions chain).head? = some r ∧ (r.versions chain).getLast? = some (r.update (.combined chain)) ∧
      (Updates.combined chain).names = (chain.flatMap Updates.names).eraseDups ∧
      ∀ x ∈ r.versions chain, Kept chain r x := by
  refine ⟨fun a b => ?_, fun u => ⟨r.names_update u, r.get?_update u⟩, r.update_none, fun chain => ?_⟩
  · exact ⟨r.update_update a b, a.names_override b, a.get?_override b⟩
  · have hlast : (r.versions chain).getLast? = some (r.update (.combined chain)) := by
      rw [versions, List.getLast?_scanl, foldl_update]
    exact ⟨List.head?_scanl, hlast, Updates.names_combined chain, fun x => Kept.of_mem_versions fun _ h => h⟩

/-- A number is taken by its text, where its name was. -/
example : (({ uuid := "1", attributes := [("a", "1"), ("b", "2")] } : Record).update
    ⟨[("c", .text "x"), ("a", .int 7)], by decide⟩).attributes = [("a", "7"), ("b", "2"), ("c", "x")] := by
  decide +kernel

end Record

end DocFetch

/-! # Association lists in order of first insertion

Putting a key that is there already keeps its place and replaces its value; a new key goes to the end.
-/

namespace DocFetch.Assoc

variable {α β : Type} [BEq α]

def get? (k : α) : List (α × β) → Option β
  | [] => none
  | (k', v) :: rest => if k' == k then some v else get? k rest

def put (k : α) (v : β) : List (α × β) → List (α × β)
  | [] => [(k, v)]
  | (k', v') :: rest => if k' == k then (k', v) :: rest else (k', v') :: put k v rest

def erase (k : α) (l : List (α × β)) : List (α × β) := l.filter fun e => !(e.1 == k)

def contains (k : α) (l : List (α × β)) : Bool := l.any fun e => e.1 == k

/-- The entries of `updates` put one after the other. -/
def merge (l updates : List (α × β)) : List (α × β) := updates.foldl (fun acc e => put e.1 e.2 acc) l

def ofList (l : List (α × β)) : List (α × β) := merge [] l

@[simp] theorem get?_put_self [LawfulBEq α] (k : α) (v : β) (l : List (α × β)) :
    get? k (put k v l) = some v := by
  induction l with
  | nil => simp [put, get?]
  | cons e rest ih =>
    unfold put
    split
    · simp_all [get?]
    · simp_all [get?]

theorem get?_put_of_ne [LawfulBEq α] {k k' : α} (h : k' ≠ k) (v : β) (l : List (α × β)) :
    get? k (put k' v l) = get? k l := by
  induction l with
  | nil => simp [put, get?, h]
  | cons e rest ih =>
    unfold put
    split
    · rename_i he
      have : e.1 = k' := by simpa using he
      simp [get?, this, h]
    · simp [get?, ih]

theorem put_put [LawfulBEq α] (k : α) (v w : β) (l : List (α × β)) : put k w (put k v l) = put k w l := by
  induction l with
  | nil => simp [put]
  | cons e rest ih =>
    by_cases he : e.1 = k
    · simp [put, he]
    · simp [put, he, ih]

theorem put_of_get? [LawfulBEq α] {k : α} {v : β} {l : List (α × β)} (h : get? k l = some v) : put k v l = l := by
  induction l with
  | nil => cases h
  | cons e rest ih =>
    by_cases he : e.1 = k
    · rw [get?, if_pos (by simpa using he), Option.some.injEq] at h
      rw [put, if_pos (by simpa using he), ← h]
    · rw [get?, if_neg (by simpa using he)] at h
      rw [put, if_neg (by simpa using he), ih h]

theorem exists_mem_of_get? {k : α} {v : β} {l : List (α × β)} (h : get? k l = some v) : ∃ e ∈ l, e.2 = v := by
  induction l with
  | nil => cases h
  | cons e rest ih =>
    rw [get?] at h
    split at h
    · exact ⟨e, List.mem_cons_self, Option.some.inj h⟩
    · obtain ⟨e', hmem, hv⟩ := ih h
      exact ⟨e', List.mem_cons_of_mem e hmem, hv⟩

theorem perm_values_put (k : α) (v : β) (l : List (α × β)) :
    ((put k v l).map Prod.snd ++ (get? k l).toList).Perm (v :: l.map Prod.snd) := by
  induction l with
  | nil => exact .refl _
  | cons e rest ih =>
    unfold put get?
    split
    · exact .cons v (List.perm_append_singleton e.2 (rest.map Prod.snd))
    · exact .trans (.cons e.2 ih) (.swap v e.2 (rest.map Prod.snd))

theorem mem_values_put {k : α} {v w : β} {l : List (α × β)} :
    w ∈ (put k v l).map Prod.snd ++ (get? k l).toList ↔ w ∈ l.map Prod.snd ∨ w = v := by
  rw [(perm_values_put k v l).mem_iff, List.mem_cons, or_comm]

theorem keys_put [LawfulBEq α] [DecidableEq α] (k : α) (v : β) (l : List (α × β)) :
    (put k v l).map Prod.fst =
      if k ∈ l.map Prod.fst then l.map Prod.fst else l.map Prod.fst ++ [k] := by
  induction l with
  | nil => rfl
  | cons e rest ih =>
    unfold put
    by_cases he : e.1 = k
    · simp [he]
    · have hk : ¬ k = e.1 := fun h => he h.symm
      rw [if_neg (by simpa using he), List.map_cons, ih]
      by_cases hrest : k ∈ rest.map Prod.fst
      · simp [hrest]
      · simp only [List.map_cons, List.mem_cons, hk, hrest, or_self, if_false, List.cons_append]

theorem nodup_keys_put [LawfulBEq α] [DecidableEq α] {l : List (α × β)} (h : (l.map Prod.fst).Nodup) (k : α)
    (v : β) : ((put k v l).map Prod.fst).Nodup := by
  rw [keys_put]
  split
  · exact h
  · rename_i hk
    refine List.nodup_append.mpr ⟨h, by simp, fun a ha b hb hab => ?_⟩
    rw [List.mem_singleton] at hb
    exact hk (hb ▸ hab ▸ ha)

theorem put_of_notMem [LawfulBEq α] {k : α} {l : List (α × β)} (h : k ∉ l.map Prod.fst) (v : β) :
    put k v l = l ++ [(k, v)] := by
  induction l with
  | nil => rfl
  | cons e rest ih =>
    obtain ⟨hne, hrest⟩ := not_or.mp fun hmem => h (List.mem_cons.mpr hmem)
    have hkey : (e.1 == k) = false := by simpa using Ne.symm hne
    rw [put, hkey, ih hrest]
    rfl

theorem ofList_eq_self [LawfulBEq α] {l : List (α × β)} (h : (l.map Prod.fst).Nodup) : ofList l = l := by
  have hmerge (l updates : List (α × β)) (h : ((l ++ updates).map Prod.fst).Nodup) :
      merge l updates = l ++ updates := by
    induction updates generalizing l with
    | nil => exact (List.append_nil l).symm
    | cons e rest ih =>
      have hnew : e.1 ∉ l.map Prod.fst := fun hmem => by
        rw [List.map_append] at h
        exact (List.nodup_append.mp h).2.2 e.1 hmem e.1 List.mem_cons_self rfl
      have hrest : l ++ e :: rest = l ++ [e] ++ rest := by rw [List.append_assoc, List.singleton_append]
      rw [hrest] at h ⊢
      exact (congrArg (merge · rest) (put_of_notMem hnew e.2)).trans (ih _ h)
  exact hmerge [] l h

theorem isSome_get?_iff [LawfulBEq α] {k : α} {l : List (α × β)} :
    (get? k l).isSome = true ↔ k ∈ l.map Prod.fst := by
  induction l with
  | nil => simp [get?]
  | cons e rest ih =>
    rw [get?, List.map_cons, List.mem_cons, ← ih]
    split
    · simp_all
    · rename_i he
      have hk : k ≠ e.1 := fun h => he (by simp [h])
      simp [hk]

theorem contains_iff [LawfulBEq α] {k : α} {l : List (α × β)} :
    contains k l = true ↔ (get? k l).isSome = true := by
  rw [isSome_get?_iff, contains, List.any_eq_true, List.mem_map]
  simp only [beq_iff_eq]

@[simp] theorem get?_erase_self [LawfulBEq α] (k : α) (l : List (α × β)) : get? k (erase k l) = none := by
  rw [← Option.not_isSome_iff_eq_none, isSome_get?_iff]
  simp [erase]

theorem erase_of_get?_eq_none [LawfulBEq α] {k : α} {l : List (α × β)} (h : get? k l = none) : erase k l = l := by
  refine List.filter_eq_self.mpr fun e he => ?_
  have hk : k ∉ l.map Prod.fst := by
    rw [← isSome_get?_iff, h]
    exact Bool.false_ne_true
  simpa using fun heq : e.1 = k => hk (heq ▸ List.mem_map_of_mem he)

theorem get?_erase_of_ne [LawfulBEq α] {k k' : α} (h : k' ≠ k) (l : List (α × β)) :
    get? k (erase k' l) = get? k l := by
  induction l with
  | nil => rfl
  | cons e rest ih =>
    unfold erase at ih ⊢
    by_cases he : e.1 = k'
    · have hk : (e.1 == k) = false := by simpa [he] using h
      rw [List.filter_cons_of_neg (by simp [he]), ih, get?, hk]
      rfl
    · rw [List.filter_cons_of_pos (by simpa using he), get?, get?, ih]

theorem erase_put_self [LawfulBEq α] (k : α) (v : β) (l : List (α × β)) : erase k (put k v l) = erase k l := by
  induction l with
  | nil => simp [put, erase]
  | cons e rest ih =>
    unfold erase at ih ⊢
    by_cases he : e.1 = k
    · simp [put, he]
    · simp [put, he, ih]

theorem erase_put_of_ne [LawfulBEq α] {k k' : α} (h : k' ≠ k) (v : β) (l : List (α × β)) :
    erase k (put k' v l) = put k' v (erase k l) := by
  induction l with
  | nil => simp [put, erase, h]
  | cons e rest ih =>
    unfold erase at ih ⊢
    by_cases he : e.1 = k'
    · simp [put, he, h]
    · by_cases hk : e.1 = k
      · have hne : ¬ k = k' := fun heq => h heq.symm
        simp [put, hk, hne, ih]
      · simp [put, he, hk, ih]

theorem nodup_keys_erase {l : List (α × β)} (h : (l.map Prod.fst).Nodup) (k : α) :
    ((erase k l).map Prod.fst).Nodup := h.sublist (List.filter_sublist.map _)

theorem perm_values_erase [LawfulBEq α] {l : List (α × β)} (h : (l.map Prod.fst).Nodup) (k : α) :
    ((get? k l).toList ++ (erase k l).map Prod.snd).Perm (l.map Prod.snd) := by
  induction l with
  | nil => exact .refl _
  | cons e rest ih =>
    obtain ⟨hnew, hrest⟩ := List.nodup_cons.mp h
    by_cases he : e.1 = k
    · subst he
      have hnone : get? e.1 rest = none := by
        rw [← Option.not_isSome_iff_eq_none, isSome_get?_iff]
        exact hnew
      have herase : erase e.1 (e :: rest) = rest := by
        rw [erase, List.filter_cons_of_neg (by simp)]
        exact erase_of_get?_eq_none hnone
      rw [herase, get?, if_pos (beq_self_eq_true e.1)]
      exact .refl _
    · have herase : erase k (e :: rest) = e :: erase k rest := by
        rw [erase, List.filter_cons_of_pos (by simpa using he)]
        rfl
      rw [herase, get?, if_neg (by simpa using he)]
      exact List.perm_middle.trans (.cons e.2 (ih hrest))

theorem get?_eq_some_iff [LawfulBEq α] {l : List (α × β)} (h : (l.map Prod.fst).Nodup) {k : α} {v : β} :
    get? k l = some v ↔ (k, v) ∈ l := by
  induction l with
  | nil => simp [get?]
  | cons e rest ih =>
    obtain ⟨hnew, hrest⟩ := List.nodup_cons.mp h
    rw [get?, List.mem_cons]
    by_cases he : e.1 = k
    · subst he
      have hother : (e.1, v) ∉ rest := fun hmem => hnew (List.mem_map.mpr ⟨_, hmem, rfl⟩)
      simp [hother, Prod.ext_iff, eq_comm]
    · have hself : (k, v) ≠ e := fun heq => he (congrArg Prod.fst heq).symm
      simp [he, hself, ih hrest]

/-! ## Updates -/

theorem nodup_keys_merge [LawfulBEq α] [DecidableEq α] {l : List (α × β)} (h : (l.map Prod.fst).Nodup)
    (updates : List (α × β)) : ((merge l updates).map Prod.fst).Nodup := by
  induction updates generalizing l with
  | nil => exact h
  | cons e rest ih => exact ih (nodup_keys_put h e.1 e.2)

theorem keys_merge [LawfulBEq α] [DecidableEq α] (l : List (α × β)) {updates : List (α × β)}
    (h : (updates.map Prod.fst).Nodup) :
    (merge l updates).map Prod.fst = l.map Prod.fst ++ (updates.map Prod.fst).filter (· ∉ l.map Prod.fst) := by
  induction updates generalizing l with
  | nil => exact (List.append_nil _).symm
  | cons e rest ih =>
    obtain ⟨hnew, hrest⟩ := List.nodup_cons.mp h
    change (merge (put e.1 e.2 l) rest).map Prod.fst = _
    rw [ih _ hrest, keys_put, List.map_cons]
    by_cases he : e.1 ∈ l.map Prod.fst
    · rw [if_pos he, List.filter_cons_of_neg (by simpa using he)]
    · rw [if_neg he, List.filter_cons_of_pos (by simpa using he), List.append_assoc, List.singleton_append]
      -- the new key is no other one of the updates
      refine congrArg (fun ks => l.map Prod.fst ++ e.1 :: ks) (List.filter_congr fun k hk => ?_)
      have hne : k ≠ e.1 := fun heq => hnew (heq ▸ hk)
      simp [hne]

theorem get?_merge [LawfulBEq α] [DecidableEq α] (k : α) (l : List (α × β)) {updates : List (α × β)}
    (h : (updates.map Prod.fst).Nodup) : get? k (merge l updates) = (get? k updates).or (get? k l) := by
  induction updates generalizing l with
  | nil => rfl
  | cons e rest ih =>
    obtain ⟨hnew, hrest⟩ := List.nodup_cons.mp h
    change get? k (merge (put e.1 e.2 l) rest) = _
    rw [ih _ hrest, get?]
    by_cases he : e.1 = k
    · have hnone : get? k rest = none := by
        rwa [← Option.not_isSome_iff_eq_none, isSome_get?_iff, ← he]
      simp [he, hnone]
    · rw [get?_put_of_ne he, if_neg (by simpa using he)]

/-- Entries of different keys may be put in any order, where one of the keys has its place. -/
theorem put_comm [LawfulBEq α] {k k' : α} (h : k ≠ k') {l : List (α × β)} (hk : k ∈ l.map Prod.fst) (v w : β) :
    put k v (put k' w l) = put k' w (put k v l) := by
  induction l with
  | nil => cases hk
  | cons e rest ih =>
    by_cases he : e.1 = k
    · have he' : ¬ e.1 = k' := fun heq => h (he.symm.trans heq)
      simp [put, he, h]
    · have hrest : k ∈ rest.map Prod.fst := by
        rcases List.mem_cons.mp hk with heq | hmem
        · exact absurd heq.symm he
        · exact hmem
      by_cases he' : e.1 = k'
      · simp [put, he', Ne.symm h]
      · simp [put, he, he', ih hrest]

theorem put_merge [LawfulBEq α] [DecidableEq α] {k : α} {l updates : List (α × β)} (hk : k ∈ l.map Prod.fst)
    (hnew : k ∉ updates.map Prod.fst) (v : β) : put k v (merge l updates) = merge (put k v l) updates := by
  induction updates generalizing l with
  | nil => rfl
  | cons e rest ih =>
    obtain ⟨hne, hrest⟩ := not_or.mp fun hmem => hnew (List.mem_cons.mpr hmem)
    have hput : k ∈ (put e.1 e.2 l).map Prod.fst := by
      rw [keys_put]
      split
      · exact hk
      · exact List.mem_append_left _ hk
    change put k v (merge (put e.1 e.2 l) rest) = merge (put e.1 e.2 (put k v l)) rest
    rw [ih hput hrest, put_comm hne hk]

theorem merge_put [LawfulBEq α] [DecidableEq α] (l : List (α × β)) {updates : List (α × β)}
    (h : (updates.map Prod.fst).Nodup) (k : α) (v : β) : merge l (put k v updates) = put k v (merge l updates) := by
  induction updates generalizing l with
  | nil => rfl
  | cons e rest ih =>
    obtain ⟨hnew, hrest⟩ := List.nodup_cons.mp h
    by_cases he : e.1 = k
    · subst he
      have hself : put e.1 v (e :: rest) = (e.1, v) :: rest := by simp [put]
      have hmem : e.1 ∈ (put e.1 e.2 l).map Prod.fst := by
        rw [← isSome_get?_iff, get?_put_self]
        rfl
      change _ = put e.1 v (merge (put e.1 e.2 l) rest)
      rw [hself, put_merge hmem hnew, put_put]
      rfl
    · have hnext : put k v (e :: rest) = e :: put k v rest := by simp [put, he]
      rw [hnext]
      exact ih _ hrest

/-- Updates after others are one update with both. -/
theorem merge_merge [LawfulBEq α] [DecidableEq α] (l : List (α × β)) {a : List (α × β)}
    (h : (a.map Prod.fst).Nodup) (b : List (α × β)) : merge l (merge a b) = merge (merge l a) b := by
  induction b generalizing a with
  | nil => rfl
  | cons e rest ih =>
    change merge l (merge (put e.1 e.2 a) rest) = merge (put e.1 e.2 (merge l a)) rest
    rw [ih (nodup_keys_put h e.1 e.2), merge_put l h]

theorem get?_map {γ : Type} (f : β → γ) (k : α) (l : List (α × β)) :
    get? k (l.map (Prod.map id f)) = (get? k l).map f := by
  induction l with
  | nil => rfl
  | cons e rest ih =>
    simp only [List.map_cons, get?, Prod.map_fst, Prod.map_snd, id, ih]
    split <;> rfl

theorem map_put {γ : Type} (f : β → γ) (k : α) (v : β) (l : List (α × β)) :
    (put k v l).map (Prod.map id f) = put k (f v) (l.map (Prod.map id f)) := by
  induction l with
  | nil => rfl
  | cons e rest ih =>
    simp only [List.map_cons, put, Prod.map_fst, id]
    split
    · rfl
    · rw [List.map_cons, ih]
      rfl

theorem map_merge {γ : Type} (f : β → γ) (l updates : List (α × β)) :
    (merge l updates).map (Prod.map id f) = merge (l.map (Prod.map id f)) (updates.map (Prod.map id f)) := by
  induction updates generalizing l with
  | nil => rfl
  | cons e rest ih =>
    change (merge (put e.1 e.2 l) rest).map _ = merge (put e.1 (f e.2) (l.map _)) (rest.map _)
    rw [ih, map_put]

end DocFetch.Assoc

import DocFetch.Proofs.Expression.Rendering

/-! # Expressions one after the other

Reading goes from the left and looks ahead only where a dollar sign stands, so the text of an expression is read in
the same way whatever follows it, and what follows is read as a text of its own. The exception is a text whose last
character is a dollar sign that stands for itself: with the next character it may be read as something else.
-/

namespace DocFetch.Expression

/-! ## Reading in part -/

/-- Reading a text from its start gives some items and comes to `rest`. -/
inductive ReadsTo : List Char → List Item → List Char → Prop
  | done (rest : List Char) : ReadsTo rest [] rest
  | dollar {cs rest : List Char} {items : List Item} : ReadsTo cs items rest →
      ReadsTo ('$' :: '$' :: cs) (.character '$' :: items) rest
  | reference {w cs rest : List Char} {ref : Reference} {items : List Item} : WrittenReference w ref →
      ReadsTo cs items rest → ReadsTo ('$' :: '\x7b' :: (w ++ '\x7d' :: cs)) (.reference ref :: items) rest
  | character {c : Char} {cs rest : List Char} {items : List Item} : ¬ ['$', '$'] <+: c :: cs →
      ¬ ['$', '\x7b'] <+: c :: cs → ReadsTo cs items rest → ReadsTo (c :: cs) (.character c :: items) rest

/-- Whether reading comes to a dollar sign as the last character, which then stands for itself. -/
def EndsInDollar (cs : List Char) : Prop := ∃ items, ReadsTo cs items ['$']

/-- Whether a text starts with a character that means something else behind a dollar sign. -/
def GoesOnDollar (cs : List Char) : Prop := ['$'] <+: cs ∨ ['\x7b'] <+: cs

theorem ReadsTo.finish {cs rest : List Char} {items items' : List Item} (h : ReadsTo cs items rest)
    (hrest : WrittenItems rest items') : WrittenItems cs (items ++ items') := by
  induction h with
  | done => exact hrest
  | dollar _ ih => exact .dollar (ih hrest)
  | reference href _ ih => exact .reference href (ih hrest)
  | character hdollar hbrace _ ih => exact .character hdollar hbrace (ih hrest)

private theorem writtenItems_dollar {cs : List Char} {items : List Item}
    (h : WrittenItems ('$' :: '$' :: cs) items) : ∃ items', WrittenItems cs items' := by
  cases h with
  | dollar h => exact ⟨_, h⟩
  | character hdollar _ _ => exact absurd ⟨cs, rfl⟩ hdollar

private theorem writtenItems_reference {w cs : List Char} {ref : Reference} {items : List Item}
    (hw : WrittenReference w ref) (h : WrittenItems ('$' :: '\x7b' :: (w ++ '\x7d' :: cs)) items) :
    ∃ items', WrittenItems cs items' := by
  generalize he : '$' :: '\x7b' :: (w ++ '\x7d' :: cs) = text at h
  cases h with
  | nil => cases he
  | dollar _ => cases he
  | @reference w' cs' _ items' hw' hrest =>
    -- both references end at the brace at which the search ends
    have hsplit := splitAtBrace_reference hw cs
    rw [(List.cons.inj (List.cons.inj he).2).2, splitAtBrace_reference hw' cs'] at hsplit
    cases hsplit
    exact ⟨items', hrest⟩
  | character _ hbrace _ =>
    rw [← he] at hbrace
    exact absurd ⟨_, rfl⟩ hbrace

private theorem writtenItems_character {c : Char} {cs : List Char} {items : List Item}
    (hdollar : ¬ ['$', '$'] <+: c :: cs) (hbrace : ¬ ['$', '\x7b'] <+: c :: cs)
    (h : WrittenItems (c :: cs) items) : ∃ items', WrittenItems cs items' := by
  cases h with
  | dollar _ => exact absurd ⟨_, rfl⟩ hdollar
  | reference _ _ => exact absurd ⟨_, rfl⟩ hbrace
  | character _ _ h => exact ⟨_, h⟩

/-- A text whose reading comes to `rest` is an expression only if `rest` is one. -/
theorem ReadsTo.rest {cs rest : List Char} {items all : List Item} (h : ReadsTo cs items rest)
    (hall : WrittenItems cs all) : ∃ items', WrittenItems rest items' := by
  induction h generalizing all with
  | done => exact ⟨all, hall⟩
  | dollar _ ih =>
    obtain ⟨items', hitems'⟩ := writtenItems_dollar hall
    exact ih hitems'
  | reference href _ ih =>
    obtain ⟨items', hitems'⟩ := writtenItems_reference href hall
    exact ih hitems'
  | character hdollar hbrace _ ih =>
    obtain ⟨items', hitems'⟩ := writtenItems_character hdollar hbrace hall
    exact ih hitems'

/-- Only the last character can become part of a longer sign by what follows. -/
private theorem pair_prefix_append {a b c : Char} {cs rest : List Char} (h : [a, b] <+: c :: (cs ++ rest))
    (hnot : ¬ [a, b] <+: c :: cs) : c = a ∧ cs = [] ∧ [b] <+: rest := by
  obtain ⟨rfl, htail⟩ := List.cons_prefix_cons.mp h
  cases cs with
  | nil => exact ⟨rfl, rfl, htail⟩
  | cons d cs =>
    obtain ⟨rfl, -⟩ := List.cons_prefix_cons.mp htail
    exact absurd ⟨cs, rfl⟩ hnot

theorem WrittenItems.readsTo {cs rest : List Char} {items : List Item} (h : WrittenItems cs items)
    (hseam : ¬ (EndsInDollar cs ∧ GoesOnDollar rest)) : ReadsTo (cs ++ rest) items rest := by
  induction h with
  | nil => exact .done rest
  | dollar _ ih =>
    exact .dollar (ih fun hboth => hseam ⟨hboth.1.elim fun _ h => ⟨_, .dollar h⟩, hboth.2⟩)
  | reference href _ ih =>
    have hrest := ih fun hboth => hseam ⟨hboth.1.elim fun _ h => ⟨_, .reference href h⟩, hboth.2⟩
    simpa using ReadsTo.reference href hrest
  | character hdollar hbrace _ ih =>
    refine .character ?_ ?_ (ih fun hboth => hseam ⟨hboth.1.elim fun _ h => ⟨_, .character hdollar hbrace h⟩, hboth.2⟩)
    · intro h
      obtain ⟨rfl, rfl, hstarts⟩ := pair_prefix_append h hdollar
      exact hseam ⟨⟨[], .done _⟩, .inl hstarts⟩
    · intro h
      obtain ⟨rfl, rfl, hstarts⟩ := pair_prefix_append h hbrace
      exact hseam ⟨⟨[], .done _⟩, .inr hstarts⟩

/-! ## Segments one after the other -/

/-- Segments followed by others, with the literals that meet joined. -/
def weld : List Segment → List Segment → List Segment
  | [], after => after
  | [.literal text], .literal text' :: after => .literal (text ++ text') :: after
  | s :: before, after => s :: weld before after

@[simp] theorem weld_cons_cons (s t : Segment) (before after : List Segment) :
    weld (s :: t :: before) after = s :: weld (t :: before) after := by
  simp [weld]

@[simp] theorem weld_reference_cons (ref : Reference) (before after : List Segment) :
    weld (.reference ref :: before) after = .reference ref :: weld before after := by
  simp [weld]

theorem addCharacter_weld (c : Char) (before after : List Segment) :
    addCharacter c (weld before after) = weld (addCharacter c before) after := by
  match before, after with
  | [], [] => rfl
  | [], .literal text :: after => simp [weld, addCharacter]
  | [], .reference ref :: after => rfl
  | .reference ref :: before, after => simp [addCharacter]
  | [.literal text], [] => rfl
  | [.literal text], .literal text' :: after => simp [weld, addCharacter, ← String.toList_inj]
  | [.literal text], .reference ref :: after => rfl
  | .literal text :: s :: before, after => simp [addCharacter]

theorem joined_append (items items' : List Item) : joined (items ++ items') = weld (joined items) (joined items') := by
  induction items with
  | nil => rfl
  | cons item items ih =>
    cases item with
    | character c =>
      change addCharacter c (joined (items ++ items')) = _
      rw [ih, addCharacter_weld]
      rfl
    | reference ref =>
      change Segment.reference ref :: joined (items ++ items') = _
      rw [ih, ← weld_reference_cons]
      rfl

theorem references_weld (before after : List Segment) :
    references (weld before after) = references before ++ references after := by
  fun_induction weld before after with
  | case1 => rfl
  | case2 => rfl
  | case3 s before after _ ih =>
    cases s with
    | literal text => exact ih
    | reference ref => exact congrArg (ref.name :: ·) ih

theorem values_weld (attributes : Attributes) (before after : List Segment) :
    String.join ((weld before after).map (Segment.evaluate attributes)) =
      String.join (before.map (Segment.evaluate attributes)) ++
        String.join (after.map (Segment.evaluate attributes)) := by
  fun_induction weld before after with
  | case1 => simp
  | case2 text text' after => simp [Segment.evaluate, String.append_assoc]
  | case3 s before after _ ih => simp [ih, String.append_assoc]

/-! ## Expressions one after the other -/

theorem run_none {e : String} {segments : List Segment} (h : compile e = .ok segments) :
    run e none = if references segments = [] then .ok (String.join (segments.map (Segment.evaluate [])))
      else .error (missingRecordError e (references segments)) := by
  unfold run
  rw [h]
  by_cases hnone : references segments = [] <;> simp [evaluate, hnone]

theorem run_none_error_iff {e : String} {segments : List Segment} (h : compile e = .ok segments) :
    (∃ error, run e none = .error error) ↔ references segments ≠ [] := by
  rw [run_none h]
  split <;> simp_all

theorem compile_append_of_ok {e e' : String} {segments segments' : List Segment} (h : compile e = .ok segments)
    (hseam : ¬ (EndsInDollar e.toList ∧ GoesOnDollar e'.toList)) (h' : compile e' = .ok segments') :
    compile (e ++ e') = .ok (weld segments segments') := by
  obtain ⟨items, hitems, rfl⟩ := compile_eq_ok_iff_written.1 h
  obtain ⟨items', hitems', rfl⟩ := compile_eq_ok_iff_written.1 h'
  rw [compile_eq_ok_iff_written, String.toList_append]
  exact ⟨items ++ items', (hitems.readsTo hseam).finish hitems', joined_append items items'⟩

theorem exists_compile_of_append {e e' : String} {segments all : List Segment} (h : compile e = .ok segments)
    (hseam : ¬ (EndsInDollar e.toList ∧ GoesOnDollar e'.toList)) (hall : compile (e ++ e') = .ok all) :
    ∃ segments', compile e' = .ok segments' := by
  obtain ⟨items, hitems, -⟩ := compile_eq_ok_iff_written.1 h
  obtain ⟨all', hall', -⟩ := compile_eq_ok_iff_written.1 hall
  rw [String.toList_append] at hall'
  obtain ⟨items', hitems'⟩ := (hitems.readsTo hseam).rest hall'
  exact ⟨_, compile_eq_ok_iff_written.2 ⟨items', hitems', rfl⟩⟩

/-- Expressions compose. If the first does not end in a dollar sign that the second goes on, both together
compile just if the second does; then their segments are those of the one and of the other, welded, and so are
the references and the values. -/
theorem compile_append {e e' : String} {segments : List Segment} (h : compile e = .ok segments)
    (hseam : ¬ (EndsInDollar e.toList ∧ GoesOnDollar e'.toList)) :
    ((∃ all, compile (e ++ e') = .ok all) ↔ ∃ segments', compile e' = .ok segments') ∧
    ∀ segments', compile e' = .ok segments' →
      compile (e ++ e') = .ok (weld segments segments') ∧
      references (weld segments segments') = references segments ++ references segments' ∧
      (∀ attributes, ∃ value value', run e (some attributes) = .ok value ∧ run e' (some attributes) = .ok value' ∧
        run (e ++ e') (some attributes) = .ok (value ++ value')) ∧
      ((∃ error, run (e ++ e') none = .error error) ↔
        (∃ error, run e none = .error error) ∨ ∃ error, run e' none = .error error) ∧
      ∀ value value', run e none = .ok value → run e' none = .ok value' →
        run (e ++ e') none = .ok (value ++ value') := by
  refine ⟨⟨?only, ?also⟩, ?_⟩
  case only =>
    rintro ⟨all, hall⟩
    exact exists_compile_of_append h hseam hall
  case also =>
    rintro ⟨segments', h'⟩
    exact ⟨_, compile_append_of_ok h hseam h'⟩
  intro segments' h'
  have hall := compile_append_of_ok h hseam h'
  have hreferences := references_weld segments segments'
  refine ⟨hall, hreferences, ?values, ?fails, ?plain⟩
  case values =>
    intro attributes
    refine ⟨_, _, run_some h attributes, run_some h' attributes, ?_⟩
    rw [run_some hall, values_weld]
  case fails =>
    rw [run_none_error_iff h, run_none_error_iff h', run_none_error_iff hall, hreferences, Ne, List.append_eq_nil_iff]
    exact Decidable.not_and_iff_or_not
  case plain =>
    intro value value' hvalue hvalue'
    rw [run_none h] at hvalue
    rw [run_none h'] at hvalue'
    rw [run_none hall, hreferences, values_weld]
    split at hvalue
    · split at hvalue'
      · cases hvalue
        cases hvalue'
        simp_all
      · cases hvalue'
    · cases hvalue

/-- A dollar sign at the end stands for itself, and still does before a letter. -/
theorem compile_append_dollar_letter :
    compile "a$" = .ok [.literal "a$"] ∧
      compile ("a$" ++ "b$\x7bx\x7d") = .ok [.literal "a$b", .reference ⟨"x", []⟩] := by
  have hfirst : compile "a$" = .ok [.literal "a$"] := compile_eq_ok_iff.2 (by decide +kernel)
  have hsecond : compile "b$\x7bx\x7d" = .ok [.literal "b", .reference ⟨"x", []⟩] :=
    compile_eq_ok_iff.2 (by decide +kernel)
  have hseam : ¬ GoesOnDollar "b$\x7bx\x7d".toList := by
    unfold GoesOnDollar
    decide
  exact ⟨hfirst, ((compile_append hfirst fun hboth => hseam hboth.2).2 _ hsecond).1⟩

-- without the condition the brace starts a reference, and that one has no end
example : (parse "$").toOption = some [.literal "$"] ∧ (parse "\x7b").toOption = some [.literal "\x7b"] ∧
    parse ("$" ++ "\x7b") = .error .unterminatedReference := by decide +kernel

end DocFetch.Expression

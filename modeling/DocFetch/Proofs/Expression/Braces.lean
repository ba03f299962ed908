import DocFetch.Proofs.Expression.Grammar

/-! # Where a reference ends

The first closing brace outside quotes ends a reference. What is written between the braces of a reference
leaves no quote open and holds no closing brace outside quotes, so that the search passes over all of it.
-/

namespace DocFetch.Expression

/-- What stands before the first closing brace outside quotes; the flag tells whether a quote is open at the start. -/
inductive Enclosed : Bool → List Char → Prop
  | nil : Enclosed false []
  | escaped (c : Char) {body : List Char} : Enclosed true body → Enclosed true ('\\' :: c :: body)
  | quote {q : Bool} {body : List Char} : Enclosed (!q) body → Enclosed q ('\'' :: body)
  | plain {q : Bool} {c : Char} {body : List Char} : c ≠ '\'' → (q = true → c ≠ '\\') → (q = false → c ≠ '\x7d') →
      Enclosed q body → Enclosed q (c :: body)

theorem splitAtBrace_cons {c : Char} (hquote : c ≠ '\'') (hbrace : c ≠ '\x7d') (cs : List Char) :
    splitAtBrace false (c :: cs) = (splitAtBrace false cs).map fun (body, rest) => (c :: body, rest) := by
  by_cases hescape : c = '\\'
  · subst c
    cases cs with
    | nil => rfl
    | cons d cs =>
      rw [splitAtBrace]
      rfl
  · rw [splitAtBrace, if_neg hquote]
    · simp [hbrace]
    · exact hescape

private theorem enclosed_of_splitAtBrace {q : Bool} {cs body rest : List Char}
    (h : splitAtBrace q cs = some (body, rest)) : Enclosed q body ∧ cs = body ++ '\x7d' :: rest := by
  fun_induction splitAtBrace q cs generalizing body rest with
  | case1 => cases h
  | case2 => cases h
  | case3 c cs ih =>
    obtain ⟨⟨body', rest'⟩, hsplit, he⟩ := Option.map_eq_some_iff.1 h
    cases he
    obtain ⟨hbody, rfl⟩ := ih hsplit
    exact ⟨.escaped c hbody, rfl⟩
  | case4 q cs hq ih =>
    obtain ⟨⟨body', rest'⟩, hsplit, he⟩ := Option.map_eq_some_iff.1 h
    cases he
    obtain ⟨hbody, rfl⟩ := ih hsplit
    obtain rfl : q = false := by simpa using hq
    exact ⟨.plain (by decide) (by decide) (by decide) hbody, rfl⟩
  | case5 q cs _ ih =>
    obtain ⟨⟨body', rest'⟩, hsplit, he⟩ := Option.map_eq_some_iff.1 h
    cases he
    obtain ⟨hbody, rfl⟩ := ih hsplit
    exact ⟨.quote hbody, rfl⟩
  | case6 q c cs _ _ hbrace =>
    cases h
    obtain ⟨rfl, rfl⟩ : c = '\x7d' ∧ q = false := by simpa using hbrace
    exact ⟨.nil, rfl⟩
  | case7 q c cs hescape hquote hbrace ih =>
    obtain ⟨⟨body', rest'⟩, hsplit, he⟩ := Option.map_eq_some_iff.1 h
    cases he
    obtain ⟨hbody, rfl⟩ := ih hsplit
    refine ⟨.plain hquote (fun _ => hescape) ?_ hbody, rfl⟩
    rintro rfl rfl
    simp at hbrace

private theorem Enclosed.splitAtBrace {q : Bool} {body : List Char} (h : Enclosed q body) (rest : List Char) :
    Expression.splitAtBrace q (body ++ '\x7d' :: rest) = some (body, rest) := by
  induction h with
  | nil => simp [Expression.splitAtBrace]
  | escaped c _ ih => simp [Expression.splitAtBrace, ih]
  | quote _ ih => simp [Expression.splitAtBrace, ih]
  | @plain q c body hquote hescape hbrace _ ih =>
    cases q with
    | false => simp [splitAtBrace_cons hquote (hbrace rfl), ih]
    | true => simp [Expression.splitAtBrace, hquote, hescape rfl, ih]

theorem splitAtBrace_eq_some_iff {q : Bool} {cs body rest : List Char} :
    splitAtBrace q cs = some (body, rest) ↔ Enclosed q body ∧ cs = body ++ '\x7d' :: rest := by
  constructor
  · exact enclosed_of_splitAtBrace
  · rintro ⟨h, rfl⟩
    exact h.splitAtBrace rest

theorem splitAtBrace_eq_some {q : Bool} {cs body rest : List Char} (h : splitAtBrace q cs = some (body, rest)) :
    cs = body ++ '\x7d' :: rest := (splitAtBrace_eq_some_iff.1 h).2

/-- The search for a closing brace passes over a text as a whole. -/
def Passed (w : List Char) : Prop :=
  ∀ cs, splitAtBrace false (w ++ cs) = (splitAtBrace false cs).map fun (body, rest) => (w ++ body, rest)

theorem Passed.nil : Passed [] := by
  intro cs
  cases h : splitAtBrace false cs <;> simp [h]

theorem Passed.append {w v : List Char} (hw : Passed w) (hv : Passed v) : Passed (w ++ v) := by
  intro cs
  rw [List.append_assoc, hw, hv, Option.map_map]
  simp [Function.comp_def]

theorem Passed.of_forall {w : List Char} (h : ∀ c ∈ w, c ≠ '\'' ∧ c ≠ '\x7d') : Passed w := by
  induction w with
  | nil => exact .nil
  | cons c w ih =>
    obtain ⟨hquote, hbrace⟩ := h c List.mem_cons_self
    have hw := ih fun d hd => h d (List.mem_cons_of_mem c hd)
    intro cs
    rw [List.cons_append, splitAtBrace_cons hquote hbrace, hw, Option.map_map]
    rfl

private theorem splitAtBrace_quoted {w d : List Char} (hw : Quoted w d) (cs : List Char) :
    splitAtBrace true (w ++ '\'' :: cs) =
      (splitAtBrace false cs).map fun (body, rest) => (w ++ '\'' :: body, rest) := by
  induction hw with
  | nil => simp [splitAtBrace]
  | escaped c _ ih => simp [splitAtBrace, ih, Function.comp_def]
  | @plain c w d hquote hescape _ ih =>
    rw [List.cons_append, splitAtBrace, if_neg hquote]
    · simp [ih, Function.comp_def]
    · exact hescape

theorem Passed.quoted {w d : List Char} (hw : Quoted w d) : Passed ('\'' :: (w ++ ['\''])) := by
  intro cs
  simp [splitAtBrace, splitAtBrace_quoted hw, Function.comp_def]

theorem Passed.of_class {p : Char → Bool} {w : List Char} (h : ∀ c ∈ w, p c = true)
    (hquote : p '\'' = false) (hbrace : p '\x7d' = false) : Passed w := by
  apply Passed.of_forall
  intro c hc
  have hclass := h c hc
  constructor
  · rintro rfl
    exact Bool.false_ne_true (hquote.symm.trans hclass)
  · rintro rfl
    exact Bool.false_ne_true (hbrace.symm.trans hclass)

theorem Blank.passed {b : List Char} (hb : Blank b) : Passed b :=
  .of_class hb (by decide) (by decide)

private theorem Function.passed_name (f : Function) : Passed f.name.toList :=
  .of_class f.isAlpha_of_mem_name (by decide) (by decide)

theorem WrittenArguments.passed {w : List Char} {args : List String} (hw : WrittenArguments w args) :
    Passed w := by
  induction hw with
  | last hq => exact .quoted hq
  | @cons w d b b' v args hq hb hb' _ ih =>
    have hcomma : Passed [','] := .of_forall (by simp)
    have hall := (Passed.quoted hq).append (hb.passed.append (hcomma.append (hb'.passed.append ih)))
    simpa using hall

theorem WrittenCall.passed {w : List Char} {call : Call} (hw : WrittenCall w call) : Passed w := by
  obtain @⟨f, w, args, hw, -⟩ := hw
  have hcolon : Passed [':'] := .of_forall (by simp)
  have hopen : Passed ['('] := .of_forall (by simp)
  have hclose : Passed [')'] := .of_forall (by simp)
  have hbrackets : Passed w := by
    cases hw with
    | empty hb => exact hb.passed.append hclose
    | arguments hb hv hb' =>
      exact hb.passed.append (hv.passed.append (hb'.passed.append hclose))
  exact hcolon.append (f.passed_name.append (hopen.append hbrackets))

theorem WrittenCalls.passed {w : List Char} {calls : List Call} (hw : WrittenCalls w calls) :
    Passed w := by
  induction hw with
  | nil => exact .nil
  | cons hcall _ ih => exact hcall.passed.append ih

theorem WrittenReference.passed {w : List Char} {ref : Reference} (hw : WrittenReference w ref) :
    Passed w := by
  obtain ⟨hb, -, hname, hcalls, hb'⟩ := hw
  have hpassed : Passed _ :=
    .of_class (fun c hc => (isNameChar_iff c).2 (hname c hc)) (by decide) (by decide)
  exact hb.passed.append ((hpassed.append hcalls.passed).append hb'.passed)

/-- The search ends at the brace that closes the reference, whatever follows. -/
theorem splitAtBrace_reference {w : List Char} {ref : Reference} (hw : WrittenReference w ref)
    (rest : List Char) : splitAtBrace false (w ++ '\x7d' :: rest) = some (w, rest) := by
  rw [hw.passed]
  simp [splitAtBrace]

end DocFetch.Expression

import DocFetch.Proofs.Expression.Composing
import Mathlib.Logic.Relation

/-! # Two readings of quotes

Quotes are followed twice: by the search for the brace that ends a reference, over the whole rest of the
expression, and by the reading of arguments, over what stands between the braces with the blanks around it taken
off. Both find the same quotes. What the reading has behind it when it comes to an argument leaves no quote open, so
the search is there with none open either, and from there on both go over the same text by the same rule.
-/

namespace DocFetch.Expression

/-! ## The search step by step -/

/-- One step of the search for a closing brace, from whether a quote is open and the text ahead. -/
def searchStep : Bool × List Char → Option (Bool × List Char)
  | (_, []) => none
  | (true, c :: rest) => if c = '\\' then some (true, rest.tail) else some (c != '\'', rest)
  | (false, c :: rest) => if c = '\x7d' then none else some (c == '\'', rest)

/-- The search comes from one place to another. -/
def Search : Bool × List Char → Bool × List Char → Prop :=
  Relation.ReflTransGen fun s t => searchStep s = some t

/-- The search comes from one place to another with a quote open all the way. -/
def SearchQuoted : List Char → List Char → Prop :=
  Relation.ReflTransGen fun cs rest => searchStep (true, cs) = some (true, rest)

theorem Search.step {s t u : Bool × List Char} (h : searchStep s = some t) (hrest : Search t u) : Search s u :=
  .head h hrest

theorem Enclosed.search {q : Bool} {body : List Char} (h : Enclosed q body) (rest : List Char) :
    Search (q, body ++ rest) (false, rest) := by
  induction h with
  | nil => exact .refl
  | escaped c _ ih => exact .step rfl ih
  | @quote q _ _ ih =>
    refine .step ?_ ih
    cases q <;> rfl
  | @plain q c _ hquote hescape hbrace _ ih =>
    refine .step ?_ ih
    cases q <;> simp_all [searchStep]

private theorem exists_enclosed_of_step {s t : Bool × List Char} {after : List Char} (h : searchStep s = some t)
    (ht : ∃ body, Enclosed t.1 body ∧ t.2 = body ++ '\x7d' :: after) :
    ∃ body, Enclosed s.1 body ∧ s.2 = body ++ '\x7d' :: after := by
  obtain ⟨body, hbody, hrest⟩ := ht
  fun_cases searchStep s with
  | case1 => cases h
  | case2 rest =>
    cases h
    cases rest with
    | nil => simp at hrest
    | cons c rest => exact ⟨'\\' :: c :: body, .escaped c hbody, by simpa using hrest⟩
  | case3 c rest hescape =>
    obtain rfl : (c != '\'', rest) = t := by simpa [searchStep, hescape] using h
    refine ⟨c :: body, ?_, congrArg (c :: ·) hrest⟩
    by_cases hquote : c = '\''
    · subst c
      exact .quote hbody
    · rw [bne_iff_ne.2 hquote] at hbody
      exact .plain hquote (fun _ => hescape) nofun hbody
  | case4 => cases h
  | case5 c rest hbrace =>
    obtain rfl : (c == '\'', rest) = t := by simpa [searchStep, hbrace] using h
    refine ⟨c :: body, ?_, congrArg (c :: ·) hrest⟩
    by_cases hquote : c = '\''
    · subst c
      exact .quote hbody
    · rw [beq_eq_false_iff_ne.2 hquote] at hbody
      exact .plain hquote nofun (fun _ => hbrace) hbody

private theorem exists_enclosed_of_search {s : Bool × List Char} {after : List Char}
    (h : Search s (false, '\x7d' :: after)) : ∃ body, Enclosed s.1 body ∧ s.2 = body ++ '\x7d' :: after := by
  induction h using Relation.ReflTransGen.head_induction_on with
  | refl => exact ⟨[], .nil, rfl⟩
  | head hstep _ ih => exact exists_enclosed_of_step hstep ih

/-- The search ends at a closing brace just if its steps lead there. -/
theorem splitAtBrace_iff_search {q : Bool} {cs after : List Char} :
    (∃ body, splitAtBrace q cs = some (body, after)) ↔ Search (q, cs) (false, '\x7d' :: after) := by
  constructor
  · rintro ⟨body, h⟩
    obtain ⟨hbody, rfl⟩ := splitAtBrace_eq_some_iff.1 h
    exact hbody.search _
  · intro h
    obtain ⟨body, hbody, hcs⟩ := exists_enclosed_of_search h
    exact ⟨body, splitAtBrace_eq_some_iff.2 ⟨hbody, hcs⟩⟩

theorem Search.ends {s t : Bool × List Char} {after : List Char} (h : Search s t)
    (hends : Search s (false, '\x7d' :: after)) : Search t (false, '\x7d' :: after) := by
  have hunique : Relator.RightUnique fun s t => searchStep s = some t :=
    fun s t t' ht ht' => Option.some.inj (ht.symm.trans ht')
  rcases Relation.ReflTransGen.total_of_right_unique hunique h hends with h | h
  · exact h
  · -- there is no step on from the brace
    rcases h.cases_head with rfl | ⟨u, hstep, -⟩
    · exact .refl
    · cases hstep

theorem Passed.search {w : List Char} (hw : Passed w) (rest : List Char) : Search (false, w ++ rest) (false, rest) := by
  have hsplit : splitAtBrace false (w ++ ['\x7d']) = some (w, []) := by
    rw [hw]
    simp [splitAtBrace]
  exact (splitAtBrace_eq_some_iff.1 hsplit).1.search rest

theorem Quoted.searchQuoted {w d : List Char} (hw : Quoted w d) (rest : List Char) : SearchQuoted (w ++ rest) rest := by
  induction hw with
  | nil => exact .refl
  | escaped c _ ih => exact .head rfl ih
  | plain hquote hescape _ ih => exact .head (by simp [searchStep, hquote, hescape]) ih

theorem Enclosed.exists_quoted {body : List Char} (h : Enclosed true body) :
    ∃ w d rest, Quoted w d ∧ body = w ++ '\'' :: rest := by
  generalize hq : true = q at h
  induction h with
  | nil => cases hq
  | escaped c _ ih =>
    obtain ⟨w, d, rest, hw, rfl⟩ := ih rfl
    exact ⟨_, _, rest, .escaped c hw, rfl⟩
  | @quote q body _ _ => exact ⟨[], [], body, .nil, rfl⟩
  | @plain q c body hquote hescape _ _ ih =>
    obtain ⟨w, d, rest, hw, rfl⟩ := ih hq
    exact ⟨_, _, rest, .plain hquote (hescape hq.symm) hw, rfl⟩

/-! ## The arguments that are read

Each relation goes with the reader of its name and tells the texts at which that one reads a quoted argument, whether
there is a closing quote or not: an argument is read where all that stands before it was read well. -/

inductive ArgumentsRead : List Char → List Char → Prop
  | first (start : List Char) : ArgumentsRead ('\'' :: start) start
  | next {start arg rest rest' later : List Char} : readArgument start = some (arg, rest) →
      Text.dropBlanks rest = ',' :: rest' → ArgumentsRead (Text.dropBlanks rest') later →
      ArgumentsRead ('\'' :: start) later

inductive CallReads : List Char → List Char → Prop
  | mk {body others args start : List Char} {first : Char} {f : Function} :
      body.takeWhile Char.isAlpha = first :: others → body.dropWhile Char.isAlpha = '(' :: args →
      Function.ofName? (String.ofList (first :: others)) = some f → ArgumentsRead (Text.dropBlanks args) start →
      CallReads (':' :: body) start

inductive CallsRead : List Char → List Char → Prop
  | first {cs start : List Char} : CallReads cs start → CallsRead cs start
  | next {cs rest start : List Char} {call : Call} : readCall cs = .ok (call, rest) → CallsRead rest start →
      CallsRead cs start

structure ReferenceReads (body start : List Char) : Prop where
  named : body.takeWhile isNameChar ≠ []
  calls : CallsRead (body.dropWhile isNameChar) start

example : ReferenceReads ['a', ':', 't', 'r', 'i', 'm', '(', '\'', '\x7d', '\'', ')'] ['\x7d', '\'', ')'] :=
  ⟨by decide, .first (.mk (f := .trim) rfl rfl (by decide) (.first _))⟩

/-- What stands before `rest` is passed over by the search as a whole. -/
def PassedTo (cs rest : List Char) : Prop := ∃ w, Passed w ∧ cs = w ++ rest

theorem PassedTo.refl (cs : List Char) : PassedTo cs cs := ⟨[], .nil, rfl⟩

theorem PassedTo.trans {cs rest rest' : List Char} (h : PassedTo cs rest) (h' : PassedTo rest rest') :
    PassedTo cs rest' := by
  obtain ⟨w, hw, rfl⟩ := h
  obtain ⟨v, hv, rfl⟩ := h'
  exact ⟨w ++ v, hw.append hv, (List.append_assoc _ _ _).symm⟩

theorem PassedTo.cons {c : Char} {cs rest : List Char} (hquote : c ≠ '\'') (hbrace : c ≠ '\x7d')
    (h : PassedTo cs rest) : PassedTo (c :: cs) rest :=
  .trans ⟨[c], .of_forall (by simp [hquote, hbrace]), rfl⟩ h

theorem PassedTo.dropWhile {p : Char → Bool} (hquote : p '\'' = false) (hbrace : p '\x7d' = false)
    (cs : List Char) : PassedTo cs (cs.dropWhile p) :=
  ⟨cs.takeWhile p, .of_class (List.all_eq_true.1 List.all_takeWhile) hquote hbrace,
    List.takeWhile_append_dropWhile.symm⟩

theorem PassedTo.dropBlanks (cs : List Char) : PassedTo cs (Text.dropBlanks cs) :=
  .dropWhile (by decide) (by decide) cs

theorem PassedTo.argument {start arg rest : List Char} (h : readArgument start = some (arg, rest)) :
    PassedTo ('\'' :: start) rest := by
  obtain ⟨w, hw, rfl⟩ := readArgument_sound h
  exact ⟨_, .quoted hw, by simp⟩

theorem ArgumentsRead.passedTo {cs start : List Char} (h : ArgumentsRead cs start) :
    PassedTo cs ('\'' :: start) := by
  induction h with
  | first start => exact .refl _
  | @next start arg rest rest' later hread hrest _ ih =>
    have hblanks := PassedTo.dropBlanks rest
    rw [hrest] at hblanks
    have hcomma : PassedTo (',' :: rest') ('\'' :: later) :=
      .cons (by decide) (by decide) ((PassedTo.dropBlanks rest').trans ih)
    exact (PassedTo.argument hread).trans (hblanks.trans hcomma)

theorem CallReads.passedTo {cs start : List Char} (h : CallReads cs start) : PassedTo cs ('\'' :: start) := by
  obtain ⟨-, hargs, -, hread⟩ := h
  refine .cons (by decide) (by decide) (.trans (.dropWhile (p := Char.isAlpha) (by decide) (by decide) _) ?_)
  rw [hargs]
  exact .cons (by decide) (by decide) ((PassedTo.dropBlanks _).trans hread.passedTo)

theorem CallsRead.passedTo {cs start : List Char} (h : CallsRead cs start) : PassedTo cs ('\'' :: start) := by
  induction h with
  | first hcall => exact hcall.passedTo
  | next hcall _ ih =>
    obtain ⟨w, hw, rfl⟩ := readCall_sound hcall
    exact .trans ⟨w, hw.passed, rfl⟩ ih

theorem ReferenceReads.passedTo {body start : List Char} (h : ReferenceReads body start) :
    PassedTo body ('\'' :: start) :=
  (PassedTo.dropWhile (by decide) (by decide) body).trans h.calls.passedTo

/-! ## Where an argument is not closed -/

theorem readArguments_unterminated_iff {cs : List Char} :
    readArguments cs = .error .unterminatedArgument ↔ ∃ start, ArgumentsRead cs start ∧ readArgument start = none := by
  constructor
  · intro h
    fun_induction readArguments cs with
    | case1 start hread => exact ⟨start, .first start, hread⟩
    | case2 => cases h
    | case3 => cases h
    | case4 start arg rest hread rest' hrest e hlater ih =>
      cases h
      obtain ⟨later, hlater, hnone⟩ := ih hlater
      exact ⟨later, .next hread hrest hlater, hnone⟩
    | case5 => cases h
    | case6 => cases h
  · rintro ⟨start, h, hnone⟩
    induction h with
    | first start =>
      rw [readArguments]
      split <;> simp_all
    | @next start arg rest rest' later hread hrest _ ih =>
      rw [readArguments]
      split
      · simp_all
      · next arg' after h =>
        obtain ⟨rfl, rfl⟩ : arg' = arg ∧ after = rest := by simpa [hread, eq_comm] using h
        split
        · simp_all
        · next rest'' hrest' =>
          obtain rfl : rest'' = rest' := by simpa [hrest, eq_comm] using hrest'
          rw [ih hnone]
        · simp_all

theorem readCallArguments_unterminated_iff {cs : List Char} : readCallArguments cs = .error .unterminatedArgument ↔
    ∃ start, ArgumentsRead (Text.dropBlanks cs) start ∧ readArgument start = none := by
  unfold readCallArguments
  split
  · next rest hrest =>
    rw [hrest]
    constructor
    · nofun
    · rintro ⟨start, h, -⟩
      cases h
  · exact readArguments_unterminated_iff

theorem readCall_unterminated_iff {cs : List Char} :
    readCall cs = .error .unterminatedArgument ↔ ∃ start, CallReads cs start ∧ readArgument start = none := by
  constructor
  · intro h
    unfold readCall at h
    split at h
    · split at h
      · next hname hargs =>
        split at h
        · cases h
        · next hf =>
          split at h
          · next hread =>
            cases h
            obtain ⟨start, hstart, hnone⟩ := readCallArguments_unterminated_iff.1 hread
            exact ⟨start, .mk hname hargs hf hstart, hnone⟩
          · split at h <;> cases h
      · cases h
    · cases h
  · rintro ⟨start, ⟨hname, hargs, hf, hread⟩, hnone⟩
    have hfails := readCallArguments_unterminated_iff.2 ⟨start, hread, hnone⟩
    simp only [readCall, hname, hargs, hf, hfails]

theorem readCalls_unterminated_iff {cs : List Char} :
    readCalls cs = .error .unterminatedArgument ↔ ∃ start, CallsRead cs start ∧ readArgument start = none := by
  constructor
  · intro h
    fun_induction readCalls cs with
    | case1 => cases h
    | case2 c cs e hcall =>
      cases h
      obtain ⟨start, hstart, hnone⟩ := readCall_unterminated_iff.1 hcall
      exact ⟨start, .first hstart, hnone⟩
    | case3 c cs call rest hcall e hrest ih =>
      cases h
      obtain ⟨start, hstart, hnone⟩ := ih hrest
      exact ⟨start, .next hcall hstart, hnone⟩
    | case4 => cases h
  · rintro ⟨start, h, hnone⟩
    induction h with
    | first hcall =>
      have hfails := readCall_unterminated_iff.2 ⟨_, hcall, hnone⟩
      cases hcall
      rw [readCalls]
      split <;> simp_all
    | @next cs rest start call hcall _ ih =>
      obtain ⟨w, hw, rfl⟩ := readCall_sound hcall
      obtain ⟨u, rfl⟩ := hw.exists_colon
      rw [List.cons_append] at hcall ⊢
      rw [readCalls]
      split <;> simp_all

/-- Reading a reference fails for the want of a closing quote just if it comes to an argument without one. -/
theorem readReference_unterminated_iff {body : List Char} :
    readReference body = .error .unterminatedArgument ↔
      ∃ start, ReferenceReads body start ∧ readArgument start = none := by
  unfold readReference
  dsimp only
  constructor
  · intro h
    split at h
    · cases h
    · next hne =>
      split at h
      · next hcalls =>
        cases h
        obtain ⟨start, hstart, hnone⟩ := readCalls_unterminated_iff.1 hcalls
        exact ⟨start, ⟨by simpa using hne, hstart⟩, hnone⟩
      · cases h
  · rintro ⟨start, ⟨hne, hstart⟩, hnone⟩
    have hfails := readCalls_unterminated_iff.2 ⟨start, hstart, hnone⟩
    simp [hne, hfails]

/-! ## Both readings -/

private theorem exists_quoted_start {start blanks body after : List Char} (hblanks : Blank blanks)
    (h : splitAtBrace true (start ++ (blanks ++ '\x7d' :: after)) = some (body, after)) :
    ∃ w arg rest, Quoted w arg ∧ start = w ++ '\'' :: rest := by
  obtain ⟨hbody, hwhole⟩ := splitAtBrace_eq_some_iff.1 h
  obtain ⟨w, arg, rest, hw, rfl⟩ := hbody.exists_quoted
  rw [← List.append_assoc, List.append_left_inj] at hwhole
  have hquote : '\'' ∉ blanks := fun hmem => absurd (hblanks _ hmem) (by decide)
  rcases List.append_eq_append_iff.1 hwhole with ⟨v, rfl, hv⟩ | ⟨v, rfl, hv⟩
  · rw [hv] at hquote
    simp at hquote
  · cases v with
    | nil =>
      rw [← show _ = blanks from hv] at hquote
      simp at hquote
    | cons c v =>
      obtain ⟨rfl, -⟩ := List.cons.inj hv
      exact ⟨w, arg, v, hw, rfl⟩

/-- The argument that is read from `start` on, with `tail` behind what may be read, ends at the quote at which the
search from `cs` goes on without a quote open; then the search comes to the closing brace. -/
structure ReadAsSearched (cs start tail after arg rest : List Char) : Prop where
  reads : readArgument start = some (arg, rest)
  opens : Search (false, cs) (false, '\'' :: (start ++ tail))
  quoted : SearchQuoted (start ++ tail) ('\'' :: (rest ++ tail))
  ends : Search (false, rest ++ tail) (false, '\x7d' :: after)

theorem ReferenceReads.asSearched {cs body after blanks blanks' core start tail : List Char}
    (hreads : ReferenceReads core start) (hsplit : splitAtBrace false cs = some (body, after))
    (hbody : body = blanks ++ (core ++ blanks')) (hblanks : Blank blanks) (hblanks' : Blank blanks')
    (htail : tail = blanks' ++ '\x7d' :: after) : ∃ arg rest, ReadAsSearched cs start tail after arg rest := by
  have hends := splitAtBrace_iff_search.1 ⟨body, hsplit⟩
  have hopens : Search (false, cs) (false, '\'' :: (start ++ tail)) := by
    obtain ⟨v, hv, rfl⟩ := hreads.passedTo
    have hsearch := (hblanks.passed.append hv).search ('\'' :: (start ++ tail))
    rw [splitAtBrace_eq_some hsplit, hbody]
    simpa [htail] using hsearch
  have hopened : Search (false, cs) (true, start ++ tail) := hopens.tail rfl
  obtain ⟨body', hsplit'⟩ := splitAtBrace_iff_search.2 (hopened.ends hends)
  obtain ⟨w, arg, rest, hw, rfl⟩ := exists_quoted_start hblanks' (htail ▸ hsplit')
  have hquoted := hw.searchQuoted ('\'' :: (rest ++ tail))
  have hclosed := (Passed.quoted hw).search (rest ++ tail)
  refine ⟨arg, rest, readArgument_complete hw rest, hopens, by simpa using hquoted, ?_⟩
  exact Search.ends (by simpa using hclosed) (hopens.ends hends)

theorem readReference_terminated {cs body after : List Char} (h : splitAtBrace false cs = some (body, after)) :
    readReference (Text.trimChars body) ≠ .error .unterminatedArgument := by
  intro hfails
  obtain ⟨start, hreads, hnone⟩ := readReference_unterminated_iff.1 hfails
  obtain ⟨b, b', hb, hb', hbody⟩ := Text.exists_strip Text.isBlank body
  obtain ⟨arg, rest, hread⟩ := hreads.asSearched h hbody hb hb' rfl
  exact nomatch hnone.symm.trans hread.reads

theorem readSegments_terminated (literal cs : List Char) : readSegments literal cs ≠ .error .unterminatedArgument := by
  intro h
  fun_induction readSegments literal cs with
  | case1 => cases h
  | case2 _ _ ih => exact ih h
  | case3 => cases h
  | case4 literal rest body after hsplit fault href =>
    cases h
    exact readReference_terminated hsplit href
  | case5 literal rest body after hsplit ref href fault hrest ih =>
    cases h
    exact ih hrest
  | case6 => cases h
  | case7 _ _ _ _ _ ih => exact ih h

theorem ReadsTo.error {cs rest : List Char} {items : List Item} {fault : Fault} (h : ReadsTo cs items rest)
    (hrest : ∀ literal, readSegments literal rest = .error fault) (literal : List Char) :
    readSegments literal cs = .error fault := by
  induction h generalizing literal with
  | done => exact hrest literal
  | dollar _ ih =>
    rw [readSegments]
    exact ih hrest _
  | @reference w cs rest ref items href _ ih =>
    have hfails := ih hrest []
    rw [readSegments]
    split
    · simp_all [splitAtBrace_reference href]
    · next body after h =>
      obtain ⟨rfl, rfl⟩ : w = body ∧ cs = after := by simpa [splitAtBrace_reference href] using h
      rw [readReference_complete href]
      simp [hfails]
  | @character c cs rest items hdollar hbrace _ ih =>
    rw [readSegments]
    · exact ih hrest _
    · rintro rest rfl rfl
      exact hdollar ⟨rest, rfl⟩
    · rintro rest rfl rfl
      exact hbrace ⟨rest, rfl⟩

/-- A quote that is open for the search and has no closing one leaves the reference without an end. -/
theorem readSegments_of_open_quote {cs start : List Char} (hsearch : Search (false, cs) (false, '\'' :: start))
    (hopen : ¬ ∃ w d rest, Quoted w d ∧ start = w ++ '\'' :: rest) (literal : List Char) :
    readSegments literal ('$' :: '\x7b' :: cs) = .error .unterminatedReference := by
  rw [readSegments]
  split
  · rfl
  · next body after hsplit =>
    have hopened : Search (false, cs) (true, start) := hsearch.tail rfl
    obtain ⟨body', hsplit'⟩ := splitAtBrace_iff_search.2 (hopened.ends (splitAtBrace_iff_search.1 ⟨body, hsplit⟩))
    obtain ⟨hbody, rfl⟩ := splitAtBrace_eq_some_iff.1 hsplit'
    obtain ⟨w, d, rest, hw, rfl⟩ := hbody.exists_quoted
    exact absurd ⟨w, d, rest ++ '\x7d' :: after, hw, by simp⟩ hopen

private theorem not_prefix_append {p a : List Char} (h : ¬ p <+: a) (h' : ¬ a <+: p) (b : List Char) : ¬ p <+: a ++ b :=
  fun hp => (List.prefix_or_prefix_of_prefix hp (List.prefix_append a b)).elim h h'

theorem message_starts_iff {source : String} {fault : Fault} :
    "Unterminated string literal".toList <+: (fault.message source).toList ↔ fault = .unterminatedArgument := by
  constructor
  · contrapose
    intro hne
    unfold Fault.message
    cases fault with
    | unterminatedArgument => exact absurd rfl hne
    | _ =>
      dsimp only
      simp only [String.toList_append, List.append_assoc]
      exact not_prefix_append (by decide) (by decide) _
  · rintro rfl
    unfold Fault.message
    dsimp only
    simp only [String.toList_append, List.append_assoc]
    exact List.prefix_append _ _

/-- Where a reference has a closing brace, every argument read between the braces ends at the quote at which the
search for that brace leaves its quotes, so an argument reaches neither the brace nor anything behind it. An error
never is about an argument without closing quote: such a quote is reported as a reference without end. -/
theorem quotes_agree (e : String) :
    (∀ before cs body after, e.toList = before ++ '$' :: '\x7b' :: cs → splitAtBrace false cs = some (body, after) →
      ∃ blanks blanks', Blank blanks ∧ Blank blanks' ∧ body = blanks ++ (Text.trimChars body ++ blanks') ∧
        ∀ start, ReferenceReads (Text.trimChars body) start →
          ∃ arg rest, ReadAsSearched cs start (blanks' ++ '\x7d' :: after) after arg rest) ∧
    (∀ error, compile e = .error error → ¬ "Unterminated string literal".toList <+: error.message.toList) ∧
    ∀ items cs start, ReadsTo e.toList items ('$' :: '\x7b' :: cs) → Search (false, cs) (false, '\'' :: start) →
      (¬ ∃ w d rest, Quoted w d ∧ start = w ++ '\'' :: rest) →
      compile e = .error (Fault.unterminatedReference.toError e) := by
  refine ⟨?agree, ?never, ?always⟩
  case agree =>
    intro before cs body after _ hsplit
    obtain ⟨blanks, blanks', hblanks, hblanks', hbody⟩ := Text.exists_strip Text.isBlank body
    exact ⟨blanks, blanks', hblanks, hblanks', hbody, fun start h => h.asSearched hsplit hbody hblanks hblanks' rfl⟩
  case never =>
    intro error herror hstarts
    unfold compile at herror
    cases hparse : parse e with
    | ok segments =>
      rw [hparse] at herror
      cases herror
    | error fault =>
      rw [hparse] at herror
      cases herror
      have hfault : fault = .unterminatedArgument := message_starts_iff.1 hstarts
      exact readSegments_terminated [] e.toList (hfault ▸ hparse)
  case always =>
    intro items cs start hreads hsearch hopen
    have hparse : parse e = .error .unterminatedReference :=
      hreads.error (readSegments_of_open_quote hsearch hopen) []
    unfold compile
    rw [hparse]
    rfl

example : parse "$\x7ba:append('\x7d" = .error .unterminatedReference := by decide +kernel

end DocFetch.Expression

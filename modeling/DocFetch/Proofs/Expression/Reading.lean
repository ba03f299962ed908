import DocFetch.Proofs.Expression.Braces

/-! # Reading follows the grammar

Each reader accepts exactly the texts of its part of the grammar and gives what they denote: a sound half,
by the recursion of the reader, and a complete half, by the derivation. The search for the closing brace
agrees with the grammar because no part of a reference leaves a quote open or holds a brace outside of one.
-/

namespace DocFetch.Expression

theorem readArgument_sound {cs d rest : List Char} (h : readArgument cs = some (d, rest)) :
    ∃ w, Quoted w d ∧ cs = w ++ '\'' :: rest := by
  fun_induction readArgument cs generalizing d rest with
  | case1 => simp at h
  | case2 c cs ih =>
    obtain ⟨⟨d', rest'⟩, hread, he⟩ := Option.map_eq_some_iff.1 h
    cases he
    obtain ⟨w, hw, rfl⟩ := ih hread
    exact ⟨'\\' :: c :: w, .escaped c hw, rfl⟩
  | case3 cs _ =>
    cases h
    exact ⟨[], .nil, rfl⟩
  | case4 c cs hescape hquote ih =>
    obtain ⟨⟨d', rest'⟩, hread, he⟩ := Option.map_eq_some_iff.1 h
    cases he
    obtain ⟨w, hw, rfl⟩ := ih hread
    refine ⟨c :: w, .plain hquote ?_ hw, rfl⟩
    -- a backslash that is not the last character is an escape
    rintro rfl
    cases w with
    | nil => exact hescape '\'' rest rfl rfl
    | cons c' w => exact hescape c' (w ++ '\'' :: rest) rfl rfl

theorem readArgument_complete {w d : List Char} (hw : Quoted w d) (rest : List Char) :
    readArgument (w ++ '\'' :: rest) = some (d, rest) := by
  induction hw with
  | nil => simp [readArgument]
  | escaped c _ ih => simp [readArgument, ih]
  | plain hquote hescape _ ih => simp [readArgument, hquote, hescape, ih]

private theorem readArguments_sound {cs rest : List Char} {args : List String}
    (h : readArguments cs = .ok (args, rest)) :
    ∃ w b, WrittenArguments w args ∧ Blank b ∧ cs = w ++ (b ++ ')' :: rest) := by
  fun_induction readArguments cs generalizing args rest with
  | case1 => simp at h
  | case2 start arg after hread rest' hd =>
    cases h
    obtain ⟨w, hw, rfl⟩ := readArgument_sound hread
    obtain ⟨b, hb, he⟩ := Text.exists_blanks after
    refine ⟨_, b, .last hw, hb, ?_⟩
    rw [hd] at he
    simp [he]
  | case3 start arg after hread rest' hd args' rest'' hrest ih =>
    cases h
    obtain ⟨w, hw, rfl⟩ := readArgument_sound hread
    obtain ⟨b, hb, he⟩ := Text.exists_blanks after
    obtain ⟨b', hb', he'⟩ := Text.exists_blanks rest'
    obtain ⟨v, b'', hv, hb'', hve⟩ := ih hrest
    refine ⟨_, b'', .cons hw hb hb' hv, hb'', ?_⟩
    rw [hd] at he
    rw [hve] at he'
    simp [he, he']
  | case4 => cases h
  | case5 => cases h
  | case6 => cases h

private theorem readArguments_last {start arg after rest : List Char}
    (hread : readArgument start = some (arg, after)) (hd : Text.dropBlanks after = ')' :: rest) :
    readArguments ('\'' :: start) = .ok ([String.ofList arg], rest) := by
  rw [readArguments]
  split
  · simp_all
  · next arg' after' h =>
    obtain ⟨rfl, rfl⟩ : arg' = arg ∧ after' = after := by simpa [hread, eq_comm] using h
    split <;> simp_all

private theorem readArguments_next {start arg after rest' rest : List Char} {args : List String}
    (hread : readArgument start = some (arg, after)) (hd : Text.dropBlanks after = ',' :: rest')
    (hrest : readArguments (Text.dropBlanks rest') = .ok (args, rest)) :
    readArguments ('\'' :: start) = .ok (String.ofList arg :: args, rest) := by
  rw [readArguments]
  split
  · simp_all
  · next arg' after' h =>
    obtain ⟨rfl, rfl⟩ : arg' = arg ∧ after' = after := by simpa [hread, eq_comm] using h
    split <;> simp_all

private theorem WrittenArguments.exists_quote {w : List Char} {args : List String}
    (hw : WrittenArguments w args) : ∃ v, w = '\'' :: v := by
  cases hw with
  | last => exact ⟨_, rfl⟩
  | cons => exact ⟨_, rfl⟩

private theorem dropBlanks_arguments {b w : List Char} {args : List String} (hb : Blank b)
    (hw : WrittenArguments w args) (cs : List Char) : Text.dropBlanks (b ++ (w ++ cs)) = w ++ cs := by
  obtain ⟨v, rfl⟩ := hw.exists_quote
  rw [Text.dropBlanks_blanks hb, List.cons_append, Text.dropBlanks_cons (by decide)]

private theorem readArguments_complete {w : List Char} {args : List String}
    (hw : WrittenArguments w args) {b : List Char} (hb : Blank b) (rest : List Char) :
    readArguments (w ++ (b ++ ')' :: rest)) = .ok (args, rest) := by
  induction hw with
  | last hq =>
    simp only [List.cons_append, List.append_assoc, List.nil_append]
    apply readArguments_last (readArgument_complete hq _)
    rw [Text.dropBlanks_blanks hb, Text.dropBlanks_cons (by decide)]
  | cons hq hb' hb'' hw ih =>
    simp only [List.cons_append, List.append_assoc]
    apply readArguments_next (readArgument_complete hq _)
    · rw [Text.dropBlanks_blanks hb', Text.dropBlanks_cons (by decide)]
    · rw [dropBlanks_arguments hb'' hw, ih]

private theorem readCallArguments_sound {cs rest : List Char} {args : List String}
    (h : readCallArguments cs = .ok (args, rest)) : ∃ w, WrittenBrackets w args ∧ cs = w ++ rest := by
  obtain ⟨b, hb, he⟩ := Text.exists_blanks cs
  unfold readCallArguments at h
  split at h
  · next hd =>
    cases h
    rw [hd] at he
    exact ⟨_, .empty hb, by simp [he]⟩
  · obtain ⟨w, b', hw, hb', hd⟩ := readArguments_sound h
    rw [hd] at he
    exact ⟨_, .arguments hb hw hb', by simp [he]⟩

private theorem readCallArguments_complete {w : List Char} {args : List String}
    (hw : WrittenBrackets w args) (rest : List Char) :
    readCallArguments (w ++ rest) = .ok (args, rest) := by
  unfold readCallArguments
  cases hw with
  | empty hb =>
    rw [List.append_assoc, Text.dropBlanks_blanks hb, List.singleton_append,
      Text.dropBlanks_cons (by decide)]
    rfl
  | arguments hb hv hb' =>
    simp only [List.append_assoc, List.singleton_append]
    rw [dropBlanks_arguments hb hv]
    have hread := readArguments_complete hv hb' rest
    obtain ⟨u, rfl⟩ := hv.exists_quote
    exact hread

theorem readCall_sound {cs rest : List Char} {call : Call}
    (h : readCall cs = .ok (call, rest)) : ∃ w, WrittenCall w call ∧ cs = w ++ rest := by
  unfold readCall at h
  split at h
  · next body =>
    split at h
    · next first others args hname hargs =>
      split at h
      · cases h
      · next f hf =>
        split at h
        · cases h
        · next args' rest' hread =>
          split at h
          · next harity =>
            cases h
            obtain ⟨w, hw, rfl⟩ := readCallArguments_sound hread
            have hbody : body = f.name.toList ++ '(' :: (w ++ rest) := by
              rw [← List.takeWhile_append_dropWhile (p := Char.isAlpha) (l := body), hname, hargs,
                ← Function.ofName?_eq_some_iff.1 hf, String.toList_ofList]
            exact ⟨_, .mk hw harity, by simp [hbody]⟩
          · cases h
    · cases h
  · cases h

private theorem readCall_complete {w : List Char} {call : Call} (hw : WrittenCall w call)
    (rest : List Char) : readCall (w ++ rest) = .ok (call, rest) := by
  cases hw with
  | @mk f v args hv harity =>
    obtain ⟨first, others, hname⟩ := List.exists_cons_of_ne_nil f.name_ne_nil
    have htake : (f.name.toList ++ '(' :: (v ++ rest)).takeWhile Char.isAlpha = first :: others := by
      rw [List.takeWhile_append_of_pos f.isAlpha_of_mem_name, hname]
      exact List.append_nil _
    have hdrop : (f.name.toList ++ '(' :: (v ++ rest)).dropWhile Char.isAlpha = '(' :: (v ++ rest) := by
      rw [List.dropWhile_append_of_pos f.isAlpha_of_mem_name]
      rfl
    have hfunction : Function.ofName? (String.ofList (first :: others)) = some f := by
      rw [← hname, String.ofList_toList, Function.ofName?_eq_some_iff]
    have hread := readCallArguments_complete hv rest
    simp only [List.cons_append, List.append_assoc]
    unfold readCall
    simp only [htake, hdrop, hfunction, hread, if_pos harity]

private theorem readCalls_sound {cs : List Char} {calls : List Call} (h : readCalls cs = .ok calls) :
    WrittenCalls cs calls := by
  fun_induction readCalls cs generalizing calls with
  | case1 =>
    cases h
    exact .nil
  | case2 => cases h
  | case3 => cases h
  | case4 c cs call rest hcall calls' hrest ih =>
    cases h
    obtain ⟨w, hw, he⟩ := readCall_sound hcall
    rw [he]
    exact .cons hw (ih hrest)

theorem WrittenCall.exists_colon {w : List Char} {call : Call} (hw : WrittenCall w call) :
    ∃ v, w = ':' :: v := by
  cases hw
  exact ⟨_, rfl⟩

private theorem readCalls_complete {w : List Char} {calls : List Call} (hw : WrittenCalls w calls) :
    readCalls w = .ok calls := by
  induction hw with
  | nil => rw [readCalls]
  | @cons w v call calls hcall _ ih =>
    have hread := readCall_complete hcall v
    obtain ⟨u, rfl⟩ := hcall.exists_colon
    rw [List.cons_append] at hread ⊢
    rw [readCalls]
    split <;> simp_all

private theorem NameChar.not_blank {c : Char} (hc : NameChar c) : Text.isBlank c = false := by
  have hrange : 45 ≤ c.toNat ∧ c.toNat ≤ 122 := by
    rcases hc with h | h | h | rfl | rfl | rfl
    · exact ⟨Nat.le_trans (by decide) h.1, Nat.le_trans h.2 (by decide)⟩
    · exact ⟨Nat.le_trans (by decide) h.1, Nat.le_trans h.2 (by decide)⟩
    · exact ⟨Nat.le_trans (by decide) h.1, Nat.le_trans h.2 (by decide)⟩
    · decide
    · decide
    · decide
  simp only [Text.isBlank, Text.blankRanges, Text.inRanges]
  grind

private theorem WrittenCalls.eq_nil_or_colon {w : List Char} {calls : List Call}
    (hw : WrittenCalls w calls) : w = [] ∨ ∃ v, w = ':' :: v := by
  cases hw with
  | nil => exact .inl rfl
  | cons hcall _ =>
    obtain ⟨u, rfl⟩ := hcall.exists_colon
    exact .inr ⟨_, rfl⟩

private theorem WrittenCall.exists_bracket {w : List Char} {call : Call} (hw : WrittenCall w call) :
    ∃ v, w = v ++ [')'] := by
  obtain @⟨f, w, args, hw, -⟩ := hw
  cases hw with
  | @empty b => exact ⟨':' :: (f.name.toList ++ '(' :: b), by simp⟩
  | @arguments b v b' => exact ⟨':' :: (f.name.toList ++ '(' :: (b ++ (v ++ b'))), by simp⟩

private theorem WrittenCalls.eq_nil_or_bracket {w : List Char} {calls : List Call}
    (hw : WrittenCalls w calls) : w = [] ∨ ∃ v, w = v ++ [')'] := by
  induction hw with
  | nil => exact .inl rfl
  | @cons w v _ _ hcall _ ih =>
    right
    rcases ih with rfl | ⟨u, rfl⟩
    · simpa using hcall.exists_bracket
    · exact ⟨w ++ u, (List.append_assoc _ _ _).symm⟩

private theorem trimChars_reference {b name w b' : List Char} {calls : List Call} (hb : Blank b)
    (hne : name ≠ []) (hname : ∀ c ∈ name, NameChar c) (hw : WrittenCalls w calls) (hb' : Blank b') :
    Text.trimChars (b ++ (name ++ w ++ b')) = name ++ w := by
  apply Text.stripWhile_append hb hb'
  · intro c hc
    obtain ⟨first, others, rfl⟩ := List.exists_cons_of_ne_nil hne
    cases hc
    exact (hname _ List.mem_cons_self).not_blank
  · intro c hc
    rcases hw.eq_nil_or_bracket with rfl | ⟨v, rfl⟩
    · rw [List.append_nil] at hc
      exact (hname c (List.mem_of_getLast? hc)).not_blank
    · rw [← List.append_assoc, List.getLast?_concat] at hc
      cases hc
      decide

private theorem readReference_sound {body : List Char} {ref : Reference}
    (h : readReference (Text.trimChars body) = .ok ref) : WrittenReference body ref := by
  obtain ⟨b, b', hb, hb', he⟩ := Text.exists_strip Text.isBlank body
  change body = b ++ (Text.trimChars body ++ b') at he
  generalize Text.trimChars body = core at h he
  unfold readReference at h
  dsimp only at h
  split at h
  · cases h
  · next hne =>
    split at h
    · cases h
    · next calls hcalls =>
      cases h
      have hname : ∀ c ∈ core.takeWhile isNameChar, NameChar c := fun c hc =>
        (isNameChar_iff c).1 (List.all_eq_true.1 List.all_takeWhile c hc)
      have hwritten := WrittenReference.mk hb (by simpa using hne) hname (readCalls_sound hcalls) hb'
      rwa [List.takeWhile_append_dropWhile, ← he] at hwritten

theorem readReference_complete {body : List Char} {ref : Reference}
    (hbody : WrittenReference body ref) : readReference (Text.trimChars body) = .ok ref := by
  obtain @⟨b, name, w, b', calls, hb, hne, hname, hw, hb'⟩ := hbody
  have hchars : ∀ c ∈ name, isNameChar c = true := fun c hc => (isNameChar_iff c).2 (hname c hc)
  have hstop : w.takeWhile isNameChar = [] ∧ w.dropWhile isNameChar = w := by
    rcases hw.eq_nil_or_colon with rfl | ⟨v, rfl⟩
    · exact ⟨rfl, rfl⟩
    · exact ⟨rfl, rfl⟩
  have htake : (name ++ w).takeWhile isNameChar = name := by
    rw [List.takeWhile_append_of_pos hchars, hstop.1, List.append_nil]
  have hdrop : (name ++ w).dropWhile isNameChar = w := by
    rw [List.dropWhile_append_of_pos hchars, hstop.2]
  rw [trimChars_reference hb hne hname hw hb']
  unfold readReference
  simp [htake, hdrop, hne, readCalls_complete hw]

private theorem flush_reverse_cons (c : Char) (cs : List Char) (segments : List Segment) :
    flush (c :: cs).reverse segments = .literal (String.ofList (c :: cs)) :: segments := by
  simp [flush]

theorem joined_characters (cs : List Char) {items : List Item}
    (h : ∀ text segments, joined items ≠ .literal text :: segments) :
    joined (cs.map .character ++ items) = flush cs.reverse (joined items) := by
  induction cs with
  | nil => rfl
  | cons c cs ih =>
    change addCharacter c (joined (cs.map .character ++ items)) = _
    rw [ih, flush_reverse_cons]
    cases cs with
    | nil =>
      change addCharacter c (joined items) = _
      unfold addCharacter
      split
      · next text segments he => exact absurd he (h text segments)
      · rfl
    | cons d cs =>
      rw [flush_reverse_cons]
      simp [addCharacter]

private theorem joined_literal (literal : List Char) :
    joined (literal.reverse.map .character ++ []) = flush literal [] := by
  rw [joined_characters _ (by simp [joined]), List.reverse_reverse]
  rfl

private theorem joined_literal_reference (literal : List Char) (ref : Reference) (items : List Item) :
    joined (literal.reverse.map .character ++ .reference ref :: items) =
      flush literal (.reference ref :: joined items) := by
  rw [joined_characters _ (by simp [joined]), List.reverse_reverse]
  rfl

private theorem readSegments_reference {literal cs body rest : List Char} {ref : Reference}
    {segments : List Segment} (hsplit : splitAtBrace false cs = some (body, rest))
    (href : readReference (Text.trimChars body) = .ok ref) (hrest : readSegments [] rest = .ok segments) :
    readSegments literal ('$' :: '\x7b' :: cs) = .ok (flush literal (.reference ref :: segments)) := by
  rw [readSegments]
  split
  · simp_all
  · next body' rest' h =>
    obtain ⟨rfl, rfl⟩ : body' = body ∧ rest' = rest := by simpa [hsplit, eq_comm] using h
    simp [href, hrest]

private theorem readSegments_sound {literal cs : List Char} {segments : List Segment}
    (h : readSegments literal cs = .ok segments) :
    ∃ items, WrittenItems cs items ∧ segments = joined (literal.reverse.map .character ++ items) := by
  fun_induction readSegments literal cs generalizing segments with
  | case1 literal =>
    cases h
    exact ⟨[], .nil, (joined_literal literal).symm⟩
  | case2 literal cs ih =>
    obtain ⟨items, hitems, rfl⟩ := ih h
    exact ⟨_, .dollar hitems, by simp⟩
  | case3 => cases h
  | case4 => cases h
  | case5 => cases h
  | case6 literal cs body rest hsplit ref href segments' hrest ih =>
    cases h
    obtain ⟨items, hitems, rfl⟩ := ih hrest
    refine ⟨.reference ref :: items, ?_, (joined_literal_reference literal ref items).symm⟩
    rw [splitAtBrace_eq_some hsplit]
    exact .reference (readReference_sound href) hitems
  | case7 literal c cs hdollar hbrace ih =>
    obtain ⟨items, hitems, rfl⟩ := ih h
    refine ⟨_, .character ?_ ?_ hitems, by simp⟩
    · rintro ⟨t, ht⟩
      cases ht
      exact hdollar t rfl rfl
    · rintro ⟨t, ht⟩
      cases ht
      exact hbrace t rfl rfl

private theorem readSegments_complete {cs : List Char} {items : List Item} (h : WrittenItems cs items)
    (literal : List Char) :
    readSegments literal cs = .ok (joined (literal.reverse.map .character ++ items)) := by
  induction h generalizing literal with
  | nil => rw [readSegments, joined_literal]
  | dollar _ ih =>
    rw [readSegments, ih]
    simp
  | reference href _ ih =>
    rw [readSegments_reference (splitAtBrace_reference href _) (readReference_complete href) (ih []),
      joined_literal_reference]
    rfl
  | @character c cs items hdollar hbrace _ ih =>
    rw [readSegments, ih]
    · simp
    · rintro rest rfl rfl
      exact hdollar ⟨rest, rfl⟩
    · rintro rest rfl rfl
      exact hbrace ⟨rest, rfl⟩

/-- An expression compiles to what its items denote. -/
theorem compile_eq_ok_iff_written {e : String} {segments : List Segment} :
    compile e = .ok segments ↔ ∃ items, WrittenItems e.toList items ∧ joined items = segments := by
  rw [compile_eq_ok_iff]
  constructor
  · intro h
    obtain ⟨items, hitems, rfl⟩ := readSegments_sound h
    exact ⟨items, hitems, rfl⟩
  · rintro ⟨items, hitems, rfl⟩
    exact readSegments_complete hitems []

/-- Expressions are the texts of the grammar and mean what it says; every other text is refused as a
malformed expression. -/
theorem compile_grammar (e : String) :
    (∀ segments, compile e = .ok segments ↔
      ∃ items, WrittenItems e.toList items ∧ joined items = segments) ∧
    ((∃ error, compile e = .error error ∧ error.family = .expression) ↔
      ¬ ∃ items, WrittenItems e.toList items) := by
  refine ⟨fun segments => compile_eq_ok_iff_written, ?_, ?_⟩
  · rintro ⟨error, herror, -⟩ ⟨items, hitems⟩
    have hok := compile_eq_ok_iff_written.2 ⟨items, hitems, rfl⟩
    rw [herror] at hok
    cases hok
  · intro hnone
    cases h : compile e with
    | ok segments =>
      obtain ⟨items, hitems, -⟩ := compile_eq_ok_iff_written.1 h
      exact absurd ⟨items, hitems⟩ hnone
    | error error => exact ⟨error, rfl, family_of_compile h⟩

end DocFetch.Expression

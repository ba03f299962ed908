import DocFetch.Proofs.Expression.Reading
import Mathlib.Data.List.Chain

/-! # Writing expressions

Segments in normal form have a text that compiles to them again, and what compiles is in normal form. So the
text written for an expression is another expression for the same segments.
-/

namespace DocFetch.Expression

/-! ## Normal form -/

structure Reference.Valid (ref : Reference) : Prop where
  name_ne : ref.name ≠ ""
  nameChar : ∀ c ∈ ref.name.toList, NameChar c
  arity : ∀ call ∈ ref.calls, call.args.length = call.function.arity

def Segment.IsLiteral : Segment → Prop
  | literal _ => True
  | reference _ => False

def Segment.Valid : Segment → Prop
  | literal text => text ≠ ""
  | reference ref => ref.Valid

/-- Valid segments without two literals next to each other. -/
structure Normal (segments : List Segment) : Prop where
  valid : ∀ s ∈ segments, s.Valid
  apart : segments.IsChain fun s t => ¬ (s.IsLiteral ∧ t.IsLiteral)

theorem Normal.nil : Normal [] := ⟨by simp, .nil⟩

theorem Normal.tail {s : Segment} {segments : List Segment} (h : Normal (s :: segments)) :
    Normal segments :=
  ⟨fun t ht => h.valid t (List.mem_cons_of_mem s ht), List.isChain_of_isChain_cons h.apart⟩

theorem Normal.cons_reference {ref : Reference} {segments : List Segment} (href : ref.Valid)
    (h : Normal segments) : Normal (.reference ref :: segments) := by
  refine ⟨?_, ?_⟩
  · intro s hs
    rcases List.mem_cons.1 hs with rfl | hs
    · exact href
    · exact h.valid s hs
  · cases segments with
    | nil => exact .singleton _
    | cons s segments => exact .cons_cons (fun hboth => hboth.1) h.apart

theorem Normal.addCharacter (c : Char) {segments : List Segment} (h : Normal segments) :
    Normal (addCharacter c segments) := by
  have hne (cs : List Char) : (Segment.literal (String.ofList (c :: cs))).Valid := by
    simp [Segment.Valid, ← String.toList_inj]
  cases segments with
  | nil => exact ⟨by simpa [Expression.addCharacter] using hne [], .singleton _⟩
  | cons s segments =>
    cases s with
    | literal text =>
      refine ⟨?_, ?_⟩
      · intro s hs
        rcases List.mem_cons.1 hs with rfl | hs
        · exact hne _
        · exact h.valid s (List.mem_cons_of_mem _ hs)
      · cases segments with
        | nil => exact .singleton _
        | cons t segments =>
          obtain ⟨hapart, hrest⟩ := List.isChain_cons_cons.1 h.apart
          exact .cons_cons (fun hboth => hapart ⟨trivial, hboth.2⟩) hrest
    | reference ref =>
      refine ⟨?_, .cons_cons (fun hboth => hboth.2) h.apart⟩
      intro s hs
      rcases List.mem_cons.1 hs with rfl | hs
      · exact hne []
      · exact h.valid s hs

private theorem WrittenCalls.arity {w : List Char} {calls : List Call} (hw : WrittenCalls w calls) :
    ∀ call ∈ calls, call.args.length = call.function.arity := by
  induction hw with
  | nil => simp
  | cons hcall _ ih =>
    obtain ⟨-, harity⟩ := hcall
    intro call hmem
    rcases List.mem_cons.1 hmem with rfl | hmem
    · exact harity
    · exact ih call hmem

private theorem WrittenReference.valid {w : List Char} {ref : Reference} (hw : WrittenReference w ref) :
    ref.Valid := by
  obtain ⟨-, hne, hname, hcalls, -⟩ := hw
  exact ⟨by simpa [← String.toList_inj] using hne, by simpa using hname, hcalls.arity⟩

private theorem WrittenItems.normal {cs : List Char} {items : List Item} (h : WrittenItems cs items) :
    Normal (joined items) := by
  induction h with
  | nil => exact .nil
  | dollar _ ih => exact ih.addCharacter '$'
  | reference href _ ih => exact .cons_reference href.valid ih
  | character _ _ _ ih => exact ih.addCharacter _

theorem normal_of_compile {e : String} {segments : List Segment} (h : compile e = .ok segments) :
    Normal segments := by
  obtain ⟨items, hitems, rfl⟩ := compile_eq_ok_iff_written.1 h
  exact hitems.normal

/-! ## The text of segments -/

/-- A character of an argument; the two that mean something between quotes get a backslash. -/
def quoteChar (c : Char) : List Char := if c = '\\' ∨ c = '\'' then ['\\', c] else [c]

def writeArgument (arg : String) : List Char := '\'' :: (arg.toList.flatMap quoteChar ++ ['\''])

def writeArguments : List String → List Char
  | [] => []
  | [arg] => writeArgument arg
  | arg :: args => writeArgument arg ++ ',' :: writeArguments args

def Call.write (call : Call) : List Char :=
  ':' :: (call.function.name.toList ++ '(' :: (writeArguments call.args ++ [')']))

/-- What stands between the braces. -/
def Reference.write (ref : Reference) : List Char := ref.name.toList ++ ref.calls.flatMap Call.write

def dollarChar (c : Char) : List Char := if c = '$' then ['$', '$'] else [c]

def Segment.write : Segment → List Char
  | literal text => text.toList.flatMap dollarChar
  | reference ref => '$' :: '\x7b' :: (ref.write ++ ['\x7d'])

/-- The expression written for segments. -/
def render (segments : List Segment) : String := String.ofList (segments.flatMap Segment.write)

private theorem quoted_write (cs : List Char) : Quoted (cs.flatMap quoteChar) cs := by
  induction cs with
  | nil => exact .nil
  | cons c cs ih =>
    rw [List.flatMap_cons, quoteChar]
    split
    · exact .escaped c ih
    · next hplain =>
      rw [not_or] at hplain
      exact .plain hplain.2 hplain.1 ih

private theorem blank_nil : Blank [] := by
  intro c hc
  cases hc

private theorem writtenArguments_write {args : List String} (hne : args ≠ []) :
    WrittenArguments (writeArguments args) args := by
  fun_induction writeArguments args with
  | case1 => exact absurd rfl hne
  | case2 arg =>
    have hlast := WrittenArguments.last (quoted_write arg.toList)
    rwa [String.ofList_toList] at hlast
  | case3 arg args hargs ih =>
    have hcons := WrittenArguments.cons (quoted_write arg.toList) blank_nil blank_nil (ih hargs)
    rw [String.ofList_toList] at hcons
    simpa [writeArgument] using hcons

private theorem Call.written {call : Call} (harity : call.args.length = call.function.arity) :
    WrittenCall call.write call := by
  refine .mk ?_ harity
  by_cases hne : call.args = []
  · rw [hne]
    exact .empty blank_nil
  · exact .arguments blank_nil (writtenArguments_write hne) blank_nil

private theorem writtenCalls_write {calls : List Call}
    (harity : ∀ call ∈ calls, call.args.length = call.function.arity) :
    WrittenCalls (calls.flatMap Call.write) calls := by
  induction calls with
  | nil => exact .nil
  | cons call calls ih =>
    rw [List.flatMap_cons]
    exact .cons (Call.written (harity call List.mem_cons_self))
      (ih fun c hc => harity c (List.mem_cons_of_mem call hc))

private theorem Reference.written {ref : Reference} (h : ref.Valid) : WrittenReference ref.write ref := by
  have hne : ref.name.toList ≠ [] := by simpa using h.name_ne
  have hwritten := WrittenReference.mk blank_nil hne h.nameChar (writtenCalls_write h.arity) blank_nil
  rwa [String.ofList_toList, List.append_nil] at hwritten

def Segment.items : Segment → List Item
  | literal text => text.toList.map .character
  | reference ref => [.reference ref]

private theorem writtenItems_literal (cs : List Char) {rest : List Char} {items : List Item}
    (h : WrittenItems rest items) :
    WrittenItems (cs.flatMap dollarChar ++ rest) (cs.map .character ++ items) := by
  induction cs with
  | nil => exact h
  | cons c cs ih =>
    rw [List.flatMap_cons, List.append_assoc, dollarChar]
    split
    · next hc =>
      subst c
      exact .dollar ih
    · next hc =>
      have hfirst (d : Char) : ¬ ['$', d] <+: c :: (cs.flatMap dollarChar ++ rest) := by
        rintro ⟨t, ht⟩
        exact hc (List.cons.inj ht).1.symm
      exact .character (hfirst '$') (hfirst '\x7b') ih

private theorem writtenItems_write {segments : List Segment} (h : ∀ s ∈ segments, s.Valid) :
    WrittenItems (segments.flatMap Segment.write) (segments.flatMap Segment.items) := by
  induction segments with
  | nil => exact .nil
  | cons s segments ih =>
    have hrest := ih fun t ht => h t (List.mem_cons_of_mem s ht)
    rw [List.flatMap_cons, List.flatMap_cons]
    cases s with
    | literal text => exact writtenItems_literal text.toList hrest
    | reference ref =>
      have href : ref.Valid := h _ List.mem_cons_self
      simpa [Segment.write, Segment.items] using WrittenItems.reference (Reference.written href) hrest

/-- Segments in normal form are what their own items join to. -/
private theorem joined_items {segments : List Segment} (h : Normal segments) :
    joined (segments.flatMap Segment.items) = segments := by
  induction segments with
  | nil => rfl
  | cons s segments ih =>
    have hrest := ih h.tail
    cases s with
    | literal text =>
      have hne : text ≠ "" := h.valid _ List.mem_cons_self
      rw [List.flatMap_cons, Segment.items, joined_characters, hrest]
      · simp [flush, hne]
      · intro text' segments' he
        rw [hrest] at he
        subst segments
        exact (List.isChain_cons_cons.1 h.apart).1 ⟨trivial, trivial⟩
    | reference ref =>
      change Segment.reference ref :: joined (segments.flatMap Segment.items) = _
      rw [hrest]

theorem compile_render_of_normal {segments : List Segment} (h : Normal segments) :
    compile (render segments) = .ok segments := by
  rw [compile_eq_ok_iff_written, render, String.toList_ofList]
  exact ⟨_, writtenItems_write h.valid, joined_items h⟩

theorem run_some {e : String} {segments : List Segment} (h : compile e = .ok segments)
    (attributes : Attributes) :
    run e (some attributes) = .ok (String.join (segments.map (Segment.evaluate attributes))) := by
  unfold run
  rw [h]
  rfl

/-- Writing undoes reading: segments in normal form compile from their text, whatever compiles is in normal
form, and the text written for it compiles to the same segments and so has the same values. -/
theorem compile_render :
    (∀ segments, Normal segments → compile (render segments) = .ok segments) ∧
    ∀ e segments, compile e = .ok segments →
      Normal segments ∧ compile (render segments) = .ok segments ∧
        ∀ attributes, ∃ value, run e (some attributes) = .ok value ∧
          run (render segments) (some attributes) = .ok value := by
  refine ⟨fun segments h => compile_render_of_normal h, ?_⟩
  intro e segments h
  have hnormal := normal_of_compile h
  have hrender := compile_render_of_normal hnormal
  refine ⟨hnormal, hrender, ?_⟩
  intro attributes
  exact ⟨_, run_some h attributes, run_some hrender attributes⟩

example : render [.literal "$", .reference ⟨"a", [⟨.append, ["\x7d'\\"]⟩]⟩] =
    "$$$\x7ba:append('\x7d\\'\\\\')\x7d" := by decide

end DocFetch.Expression

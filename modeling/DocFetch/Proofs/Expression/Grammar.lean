import DocFetch.Expression.Parser

/-! # The grammar of expressions

Which texts are expressions and which segments they denote, said of whole texts and not of a reader that
goes through them. A text is a sequence of items; an item is one character of literal text or a reference,
and literal text that comes from neighbouring items is one segment.
-/

namespace DocFetch.Expression

/-- The characters of attribute names. -/
def NameChar (c : Char) : Prop :=
  ('A' ≤ c ∧ c ≤ 'Z') ∨ ('a' ≤ c ∧ c ≤ 'z') ∨ ('0' ≤ c ∧ c ≤ '9') ∨ c = '_' ∨ c = '.' ∨ c = '-'

theorem isNameChar_iff (c : Char) : isNameChar c = true ↔ NameChar c := by
  have hupper : c.isUpper = decide ('A' ≤ c ∧ c ≤ 'Z') := rfl
  have hlower : c.isLower = (decide ('a' ≤ c) && decide (c ≤ 'z')) := rfl
  have halpha : c.isAlpha = (c.isUpper || c.isLower) := rfl
  simp only [isNameChar, NameChar, Char.isAlphanum, halpha, hupper, hlower, Char.isDigit, Bool.or_eq_true,
    Bool.and_eq_true, decide_eq_true_eq, ge_iff_le, Char.le_def, or_assoc]

instance (c : Char) : Decidable (NameChar c) := decidable_of_iff _ (isNameChar_iff c)

def Blank (cs : List Char) : Prop := ∀ c ∈ cs, Text.isBlank c = true

/-- A text between single quotes and the characters it denotes. -/
inductive Quoted : List Char → List Char → Prop
  | nil : Quoted [] []
  | escaped (c : Char) {w d : List Char} : Quoted w d → Quoted ('\\' :: c :: w) (c :: d)
  | plain {c : Char} {w d : List Char} : c ≠ '\'' → c ≠ '\\' → Quoted w d → Quoted (c :: w) (c :: d)

/-- Arguments with commas between them, of which there is at least one. -/
inductive WrittenArguments : List Char → List String → Prop
  | last {w d : List Char} : Quoted w d → WrittenArguments ('\'' :: (w ++ ['\''])) [String.ofList d]
  | cons {w d b b' v : List Char} {args : List String} : Quoted w d → Blank b → Blank b' →
      WrittenArguments v args →
      WrittenArguments ('\'' :: (w ++ '\'' :: (b ++ ',' :: (b' ++ v)))) (String.ofList d :: args)

/-- What follows the opening bracket of a call. -/
inductive WrittenBrackets : List Char → List String → Prop
  | empty {b : List Char} : Blank b → WrittenBrackets (b ++ [')']) []
  | arguments {b v b' : List Char} {args : List String} : Blank b → WrittenArguments v args → Blank b' →
      WrittenBrackets (b ++ (v ++ (b' ++ [')']))) args

inductive WrittenCall : List Char → Call → Prop
  | mk {f : Function} {w : List Char} {args : List String} : WrittenBrackets w args →
      args.length = f.arity → WrittenCall (':' :: (f.name.toList ++ '(' :: w)) ⟨f, args⟩

inductive WrittenCalls : List Char → List Call → Prop
  | nil : WrittenCalls [] []
  | cons {w v : List Char} {call : Call} {calls : List Call} : WrittenCall w call → WrittenCalls v calls →
      WrittenCalls (w ++ v) (call :: calls)

/-- What stands between the braces of a reference. -/
inductive WrittenReference : List Char → Reference → Prop
  | mk {b name w b' : List Char} {calls : List Call} : Blank b → name ≠ [] → (∀ c ∈ name, NameChar c) →
      WrittenCalls w calls → Blank b' →
      WrittenReference (b ++ (name ++ w ++ b')) ⟨String.ofList name, calls⟩

/-- What a piece of an expression denotes. -/
inductive Item
  | character (c : Char)
  | reference (ref : Reference)
deriving DecidableEq, Repr

/-- A text from left to right as items. A character stands for itself where neither two dollar signs nor
a reference starts. -/
inductive WrittenItems : List Char → List Item → Prop
  | nil : WrittenItems [] []
  | dollar {cs : List Char} {items : List Item} : WrittenItems cs items →
      WrittenItems ('$' :: '$' :: cs) (.character '$' :: items)
  | reference {w cs : List Char} {ref : Reference} {items : List Item} : WrittenReference w ref →
      WrittenItems cs items → WrittenItems ('$' :: '\x7b' :: (w ++ '\x7d' :: cs)) (.reference ref :: items)
  | character {c : Char} {cs : List Char} {items : List Item} : ¬ ['$', '$'] <+: c :: cs →
      ¬ ['$', '\x7b'] <+: c :: cs → WrittenItems cs items → WrittenItems (c :: cs) (.character c :: items)

/-- Puts a character in front, at the start of the literal text there if there is some. -/
def addCharacter (c : Char) : List Segment → List Segment
  | .literal text :: segments => .literal (String.ofList (c :: text.toList)) :: segments
  | segments => .literal (String.ofList [c]) :: segments

/-- The segments of items, with neighbouring characters joined. -/
def joined : List Item → List Segment
  | [] => []
  | .character c :: items => addCharacter c (joined items)
  | .reference ref :: items => .reference ref :: joined items

end DocFetch.Expression

import DocFetch.Record.Basic
import DocFetch.Text.Blank
import DocFetch.Text.Casing

/-! # Attribute expressions

An expression builds a document id from literal text and references to attributes of a record, each
passed through a chain of functions. An attribute that a record lacks counts as the empty text; without
a record only an expression that references nothing has a value.
-/

namespace DocFetch

/-! ## Replacing a part of a text -/

namespace Text

/-- Replaces the occurrences of a nonempty `old`, from the left and without overlap; `skip` counts the
characters of the occurrence just replaced that are still to be passed over. -/
def replaceFrom (old new : List Char) : Nat → List Char → List Char
  | _, [] => []
  | skip + 1, _ :: rest => replaceFrom old new skip rest
  | 0, c :: rest =>
    if old.isPrefixOf (c :: rest) then new ++ replaceFrom old new (old.length - 1) rest
    else c :: replaceFrom old new 0 rest

/-- An empty `old` occurs before every character and at the end. -/
def replaceChars (old new cs : List Char) : List Char :=
  if old.isEmpty then new ++ cs.flatMap fun c => c :: new else replaceFrom old new 0 cs

def replace (s old new : String) : String :=
  String.ofList (replaceChars old.toList new.toList s.toList)

example : replace "aaa" "aa" "b" = "ba" := by decide +kernel
example : replace "ab" "" "-" = "-a-b-" := by decide +kernel

end Text

/-! ## Expressions and their values -/

namespace Expression

inductive Function
  | trim
  | toUpper
  | toLower
  | append
  | prepend
  | replace
deriving DecidableEq, Repr

namespace Function

def name : Function → String
  | trim => "trim"
  | toUpper => "toUpper"
  | toLower => "toLower"
  | append => "append"
  | prepend => "prepend"
  | replace => "replace"

def arity : Function → Nat
  | trim | toUpper | toLower => 0
  | append | prepend => 1
  | replace => 2

def all : List Function := [trim, toUpper, toLower, append, prepend, replace]

def ofName? (name : String) : Option Function := all.find? fun f => f.name == name

theorem ofName?_eq_some_iff {n : String} {f : Function} : ofName? n = some f ↔ n = f.name := by
  constructor
  · intro h
    have hname := List.find?_some h
    rw [beq_iff_eq] at hname
    exact hname.symm
  · rintro rfl
    cases f <;> decide

theorem name_ne_nil (f : Function) : f.name.toList ≠ [] := by
  cases f <;> decide

theorem isAlpha_of_mem_name (f : Function) : ∀ c ∈ f.name.toList, c.isAlpha = true := by
  rw [← List.all_eq_true]
  cases f <;> decide

/-- The function at a value; arguments beyond the arity are not looked at. -/
def apply : Function → List String → String → String
  | trim, _, v => Text.trim v
  | toUpper, _, v => Text.toUpper v
  | toLower, _, v => Text.toLower v
  | append, [s], v => v ++ s
  | prepend, [s], v => s ++ v
  | replace, [old, new], v => Text.replace v old new
  | _, _, v => v

end Function

structure Call where
  function : Function
  args : List String := []
deriving DecidableEq, Repr

structure Reference where
  name : String
  calls : List Call := []
deriving DecidableEq, Repr

inductive Segment
  | literal (text : String)
  | reference (ref : Reference)
deriving DecidableEq, Repr

def Call.apply (call : Call) (value : String) : String := call.function.apply call.args value

def Reference.evaluate (ref : Reference) (attributes : Attributes) : String :=
  ref.calls.foldl (fun v call => call.apply v) ((Assoc.get? ref.name attributes).getD "")

def Segment.evaluate (attributes : Attributes) : Segment → String
  | .literal text => text
  | .reference ref => ref.evaluate attributes

/-- The attributes referenced, in order and with repeats. -/
def references (segments : List Segment) : List String :=
  segments.filterMap fun
    | .literal _ => none
    | .reference ref => some ref.name

/-- The value of an expression, or the attributes it needs where there is no record. -/
def evaluate (segments : List Segment) (attributes : Option Attributes) : Except (List String) String :=
  match attributes with
  | some a => .ok (String.join (segments.map (Segment.evaluate a)))
  | none =>
    if (references segments).isEmpty then .ok (String.join (segments.map (Segment.evaluate [])))
    else .error (references segments)

end Expression

end DocFetch

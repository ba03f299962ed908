import DocFetch.Text.Lines
import DocFetch.Value.Basic
import DocFetch.Yaml.Node
import DocFetch.Yaml.Scalar

/-! # Reading YAML

Version 1.1 of the language with its plain data types. Entries that are merged into a mapping come first
and give way to its own. Sets, and sequences of pairs, are read as sequences.
-/

namespace DocFetch.Yaml

def standardTag (name : String) : String := "tag:yaml.org,2002:" ++ name

/-- What a scalar stands for by its tag, or without one by its form. -/
def scalarKind (tag : Option String) (text : String) (plain : Bool) : Except Failure ScalarKind :=
  match tag with
  | none => .ok (if plain then kindOf text else .text)
  | some tag =>
    if tag = "!" then .ok (kindOf text)
    else if tag = standardTag "str" then .ok .text
    else if tag = standardTag "null" then .ok .null
    else if tag = standardTag "bool" then .ok .bool
    else if tag = standardTag "int" then .ok .int
    else if tag = standardTag "float" then .ok .float
    else if tag = standardTag "timestamp" then .ok .timestamp
    else if tag = standardTag "binary" then .ok .binary
    else malformed

def boolValue (s : String) : Except Failure Value :=
  let word := s.map Char.toLower
  if trueWords.contains word then .ok (.bool true)
  else if falseWords.contains word then .ok (.bool false)
  else .error (.foreign "KeyError" [.text word])

def scalarValue (kind : ScalarKind) (text : String) : Except Failure Value :=
  match kind with
  | .null => .ok .null
  | .bool => boolValue text
  | .int => (intValue text).map .int
  | .float => (floatValue text).map .float
  | .timestamp => stampValue text
  | .binary =>
    match bytesValue? text with
    | some b => .ok (.bytes b)
    | none => malformed
  | .text => .ok (.text text)
  | .merge | .equals => malformed

/-- Whether a tag at a sequence or a mapping is the usual one. -/
def usualTag (tag : Option String) (name : String) : Bool :=
  tag.all fun t => t = "!" || t = standardTag name

/-- Whether a sequence is one of pairs, each a mapping of one entry. -/
def isPairs (tag : Option String) : Bool := tag = standardTag "omap" || tag = standardTag "pairs"

def isMergeKey : Node → Bool
  | .scalar none "<<" true => true
  | _ => false

/-- Whether a key is the equals sign that stands for itself. -/
def isEqualsKey : Node → Bool
  | .scalar none "=" true => true
  | _ => false

def isKey : Value → Bool
  | .list _ | .map _ => false
  | _ => true

/-- The entries of a mapping, of a repeated key the last value; merged entries stand before all others. -/
def combine (merged own : List (Value × Value)) : List (Value × Value) :=
  (merged ++ own).foldl (fun acc e => Value.putEntry e.1 e.2 acc) []

mutual

def valueOf : Node → Except Failure Value
  | .scalar tag text plain => do scalarValue (← scalarKind tag text plain) text
  | .sequence tag items => do
    if isPairs tag then return .list (← pairsOf items)
    if !usualTag tag "seq" then malformed
    return .list (← valuesOf items)
  | .mapping tag entries => do
    if tag = standardTag "set" then
      return .list ((combine (← mergedOf entries) (← ownOf entries)).map Prod.fst)
    if !usualTag tag "map" then malformed
    return .map (combine (← mergedOf entries) (← ownOf entries))

def pairsOf : List Node → Except Failure (List Value)
  | [] => .ok []
  | .mapping _ [(k, v)] :: rest => do
    let k ← valueOf k
    let v ← valueOf v
    return .list [k, v] :: (← pairsOf rest)
  | _ => malformed

def valuesOf : List Node → Except Failure (List Value)
  | [] => .ok []
  | n :: rest => do return (← valueOf n) :: (← valuesOf rest)

def ownOf : List (Node × Node) → Except Failure (List (Value × Value))
  | [] => .ok []
  | (k, v) :: rest => do
    if isMergeKey k then ownOf rest
    else
      let key ← if isEqualsKey k then pure (.text "=") else valueOf k
      if !isKey key then malformed
      let v ← valueOf v
      return (key, v) :: (← ownOf rest)

def mergedOf : List (Node × Node) → Except Failure (List (Value × Value))
  | [] => .ok []
  | (k, v) :: rest => do
    if isMergeKey k then
      let these ← sourcesOf v
      return these ++ (← mergedOf rest)
    else mergedOf rest

/-- The entries of a mapping, or of the mappings of a sequence, the last one first. -/
def sourcesOf : Node → Except Failure (List (Value × Value))
  | .mapping _ entries => do return combine (← mergedOf entries) (← ownOf entries)
  | .sequence _ items => allSourcesOf items
  | .scalar .. => malformed

def allSourcesOf : List Node → Except Failure (List (Value × Value))
  | [] => .ok []
  | .mapping _ entries :: rest => do
    let these := combine (← mergedOf entries) (← ownOf entries)
    return (← allSourcesOf rest) ++ these
  | _ => malformed

end

/-- The data of a text; a text without a document holds nothing. -/
def read (s : String) : Except Failure Value := do
  match ← nodeOf (Text.unifyNewlines s.toList) with
  | none => return .null
  | some n => valueOf n

end DocFetch.Yaml

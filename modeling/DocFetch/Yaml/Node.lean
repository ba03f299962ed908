import DocFetch.Yaml.Token

/-! # Nodes

The tree of scalars, sequences and mappings of a text with one document at most. An alias stands for the
node with its anchor.
-/

namespace DocFetch.Yaml

/-- `tag` is the tag that is written at a node, in full. -/
inductive Node
  | scalar (tag : Option String) (text : String) (plain : Bool)
  | sequence (tag : Option String) (items : List Node)
  | mapping (tag : Option String) (entries : List (Node × Node))

/-- The node where a value is left out. -/
def Node.nothing : Node := .scalar none "" true

structure NodeReader where
  tokens : List Token
  anchors : List (String × Node) := []
  /-- What the handles of tags stand for. -/
  handles : List (String × String) := []

abbrev ReadM (α : Type) := StateT NodeReader (Except Failure) α

namespace ReadM

def fail {α : Type} : ReadM α := fun _ => malformed

def peek : ReadM (Option Token) := do return (← get).tokens.head?

def drop : ReadM Unit := modify fun r => { r with tokens := r.tokens.tail }

/-- Takes a token if it is the next one. -/
def accept (t : Token) : ReadM Bool := do
  if (← peek) = some t then
    drop
    return true
  else return false

def expect (t : Token) : ReadM Unit := do
  if !(← accept t) then fail

/-- Whether one of some tokens, or the end, is next. -/
def atOneOf (ts : List Token) : ReadM Bool := do
  match ← peek with
  | some t => return ts.contains t
  | none => return true

def fullTag (handle : Option String) (suffix : String) : ReadM String := do
  match handle with
  | none => return suffix
  | some h =>
    match (← get).handles.lookup h with
    | some start => return start ++ suffix
    | none => fail

/-- The anchor and the tag at a node, in either order. -/
def properties : ReadM (Option String × Option String) := do
  match ← peek with
  | some (.anchor name) =>
    drop
    match ← peek with
    | some (.tag handle suffix) =>
      drop
      return (some name, some (← fullTag handle suffix))
    | _ => return (some name, none)
  | some (.tag handle suffix) =>
    drop
    let tag ← fullTag handle suffix
    match ← peek with
    | some (.anchor name) =>
      drop
      return (some name, some tag)
    | _ => return (none, some tag)
  | _ => return (none, none)

def keep (anchor : Option String) (n : Node) : ReadM Node := do
  if let some name := anchor then
    if ((← get).anchors.lookup name).isSome then fail
    modify fun r => { r with anchors := (name, n) :: r.anchors }
  return n

/-- Where a node stands: in brackets, as an item or document of a block, or as part of an entry of a block,
where the items of a sequence need not be indented. -/
inductive Place
  | flow
  | block
  | entry
deriving DecidableEq

mutual

def node : Nat → Place → ReadM Node
  | 0, _ => fail
  | fuel + 1, place => do
    if let some (.alias name) ← peek then
      drop
      match (← get).anchors.lookup name with
      | some n => return n
      | none => fail
    else
      let (anchor, tag) ← properties
      match ← peek, place with
      | some .entry, .entry => keep anchor (.sequence tag (← looseItems fuel))
      | some (.scalar text plain), _ =>
        drop
        keep anchor (.scalar tag text plain)
      | some .openSequence, _ =>
        drop
        keep anchor (.sequence tag (← flowItems fuel true))
      | some .openMapping, _ =>
        drop
        keep anchor (.mapping tag (← flowEntries fuel true))
      | some .blockSequence, _ =>
        if place = .flow then fail
        drop
        keep anchor (.sequence tag (← blockItems fuel))
      | some .blockMapping, _ =>
        if place = .flow then fail
        drop
        keep anchor (.mapping tag (← blockEntries fuel))
      | _, _ => if anchor.isSome || tag.isSome then keep anchor (.scalar tag "" true) else fail

/-- The items of a block sequence up to its end. -/
def blockItems : Nat → ReadM (List Node)
  | 0 => fail
  | fuel + 1 => do
    if ← accept .entry then
      let n ← if ← atOneOf [.entry, .blockEnd] then pure .nothing else node fuel .block
      return n :: (← blockItems fuel)
    else
      expect .blockEnd
      return []

/-- Items that are not indented inside an entry. -/
def looseItems : Nat → ReadM (List Node)
  | 0 => fail
  | fuel + 1 => do
    if ← accept .entry then
      let n ← if ← atOneOf [.entry, .key, .value, .blockEnd] then pure .nothing else node fuel .block
      return n :: (← looseItems fuel)
    else return []

def blockEntries : Nat → ReadM (List (Node × Node))
  | 0 => fail
  | fuel + 1 => do
    if ← accept .key then
      let k ← if ← atOneOf [.key, .value, .blockEnd] then pure .nothing else node fuel .entry
      let v ← if ← accept .value then
          (if ← atOneOf [.key, .value, .blockEnd] then pure .nothing else node fuel .entry)
        else pure .nothing
      return (k, v) :: (← blockEntries fuel)
    else
      expect .blockEnd
      return []

/-- What follows a colon in brackets, if there is one. -/
def flowValue : Nat → Token → ReadM Node
  | 0, _ => fail
  | fuel + 1, closing => do
    if ← accept .value then
      if ← atOneOf [.comma, closing] then return .nothing else node fuel .flow
    else return .nothing

/-- Items up to the closing bracket; a key makes an item a mapping of one entry. -/
def flowItems : Nat → Bool → ReadM (List Node)
  | 0, _ => fail
  | fuel + 1, first => do
    if ← accept .closeSequence then return []
    if !first then expect .comma
    if ← accept .closeSequence then
      if first then fail else return []
    let n ← if ← accept .key then
        let k ← if ← atOneOf [.value, .comma, .closeSequence] then pure .nothing else node fuel .flow
        pure (.mapping none [(k, ← flowValue fuel .closeSequence)])
      else node fuel .flow
    return n :: (← flowItems fuel false)

def flowEntries : Nat → Bool → ReadM (List (Node × Node))
  | 0, _ => fail
  | fuel + 1, first => do
    if ← accept .closeMapping then return []
    if !first then expect .comma
    if ← accept .closeMapping then
      if first then fail else return []
    let e ← if ← accept .key then
        let k ← if ← atOneOf [.value, .comma, .closeMapping] then pure .nothing else node fuel .flow
        pure (k, ← flowValue fuel .closeMapping)
      else pure (← node fuel .flow, .nothing)
    return e :: (← flowEntries fuel false)

end

def standardHandles : List (String × String) := [("!", "!"), ("!!", "tag:yaml.org,2002:")]

/-- Directives before a document: one version at most, and no handle twice. -/
def directives : Nat → Bool → List (String × String) → ReadM (List (String × String))
  | 0, _, own => return own
  | fuel + 1, versioned, own => do
    match ← peek with
    | some (.directive version tag) =>
      drop
      if version.any (fun v => versioned || v ≠ 1) then fail
      if tag.any (fun t => (own.lookup t.1).isSome) then fail
      directives fuel (versioned || version.isSome) (own ++ tag.toList)
    | _ => return own

/-- Passes over ends of documents. -/
def skipEnds : Nat → ReadM Unit
  | 0 => return ()
  | fuel + 1 => do
    if ← accept .documentEnd then skipEnds fuel

/-- What stands between the marks of a document. -/
def content (fuel : Nat) : ReadM Node := do
  match ← peek with
  | none | some .documentStart | some .documentEnd | some (.directive ..) => return .nothing
  | _ => node fuel .block

/-- The document of a text, if it has one; a second one is refused. -/
def document : ReadM (Option Node) := do
  let fuel := 3 * (← get).tokens.length + 3
  match ← peek with
  | none => return none
  | some .documentStart | some (.directive ..) =>
    let own ← directives fuel false []
    modify fun r => { r with handles := own ++ r.handles }
    expect .documentStart
    let n ← content fuel
    skipEnds fuel
    if (← peek).isSome then fail
    return some n
  | _ =>
    let n ← node fuel .block
    skipEnds fuel
    if (← peek).isSome then fail
    return some n

end ReadM

/-- The tree of a text in which line feeds end lines. -/
def nodeOf (cs : List Char) : Except Failure (Option Node) := do
  let tokens ← tokensOf cs
  return (← ReadM.document.run { tokens, handles := ReadM.standardHandles }).1

end DocFetch.Yaml

import DocFetch.Expression.Basic
import DocFetch.Text.Quoted

/-! # Reading expressions

Two dollar signs stand for one. A dollar sign and an opening brace start a reference, which reaches to
the first closing brace outside quotes: a name, then calls `:function('argument', …)`. A backslash in an
argument takes the next character as it is. Everything else is literal text.
-/

namespace DocFetch.Expression

/-- What is wrong with the text of an expression. -/
inductive Fault
  | unterminatedReference
  | unterminatedArgument
  | unquotedArgument
  | unseparatedArgument
  | invalidName
  | unexpected (rest : String)
  | unknownFunction (name : String)
  | wrongArity (function : Function) (count : Nat)
deriving DecidableEq, Repr

def Fault.message (source : String) (fault : Fault) : String :=
  let what := match fault with
    | unterminatedReference => "Unterminated '$\x7b'"
    | unterminatedArgument => "Unterminated string literal"
    | unquotedArgument => "Function arguments must be quoted strings"
    | unseparatedArgument => "Expected ',' or ')'"
    | invalidName => "Empty or invalid attribute reference"
    | unexpected rest => "Unexpected " ++ Text.quoted rest
    | unknownFunction name => "Unknown function " ++ Text.quoted name
    | wrongArity function count =>
      "Function " ++ Text.quoted function.name ++ " expects " ++ toString function.arity ++
        " argument(s), got " ++ toString count
  what ++ " in " ++ Text.quoted source

def isNameChar (c : Char) : Bool := c.isAlphanum || c = '_' || c = '.' || c = '-'

/-- The text before the first closing brace outside quotes and the text after it. -/
def splitAtBrace (inQuote : Bool) : List Char → Option (List Char × List Char)
  | [] => none
  | '\\' :: rest =>
    if inQuote then
      match rest with
      | [] => none
      | d :: rest => (splitAtBrace true rest).map fun (body, rest) => ('\\' :: d :: body, rest)
    else (splitAtBrace false rest).map fun (body, rest) => ('\\' :: body, rest)
  | c :: rest =>
    if c = '\'' then (splitAtBrace (!inQuote) rest).map fun (body, rest) => (c :: body, rest)
    else if c = '\x7d' && !inQuote then some ([], rest)
    else (splitAtBrace inQuote rest).map fun (body, rest) => (c :: body, rest)

/-- The characters of an argument after its opening quote and the text after the closing one. -/
def readArgument : List Char → Option (List Char × List Char)
  | [] => none
  | '\\' :: c :: rest => (readArgument rest).map fun (arg, rest) => (c :: arg, rest)
  | c :: rest =>
    if c = '\'' then some ([], rest)
    else (readArgument rest).map fun (arg, rest) => (c :: arg, rest)

theorem readArgument_length {cs arg rest : List Char} (h : readArgument cs = some (arg, rest)) :
    rest.length < cs.length := by
  fun_induction readArgument cs generalizing arg rest with
  | case1 => simp at h
  | case2 c r ih =>
    obtain ⟨⟨a, t⟩, hp, he⟩ := Option.map_eq_some_iff.1 h
    cases he
    have := ih hp
    simp only [List.length_cons]
    omega
  | case3 => simp_all
  | case4 c r _ _ ih =>
    obtain ⟨⟨a, t⟩, hp, he⟩ := Option.map_eq_some_iff.1 h
    cases he
    have := ih hp
    simp only [List.length_cons]
    omega

theorem dropBlanks_length (cs : List Char) : (Text.dropBlanks cs).length ≤ cs.length :=
  (List.dropWhile_sublist _).length_le

/-- Reads arguments, of which there is at least one, up to the closing bracket. -/
def readArguments (cs : List Char) : Except Fault (List String × List Char) :=
  match cs with
  | '\'' :: start =>
    match _h : readArgument start with
    | none => .error .unterminatedArgument
    | some (arg, rest) =>
      match _h' : Text.dropBlanks rest with
      | ')' :: rest => .ok ([String.ofList arg], rest)
      | ',' :: rest' =>
        match readArguments (Text.dropBlanks rest') with
        | .ok (args, rest) => .ok (String.ofList arg :: args, rest)
        | .error e => .error e
      | _ => .error .unseparatedArgument
  | _ => .error .unquotedArgument
termination_by cs.length
decreasing_by
  have h1 := readArgument_length _h
  have h2 := dropBlanks_length rest
  have h3 := dropBlanks_length rest'
  rw [_h'] at h2
  simp only [List.length_cons] at *
  omega

/-- The bracketed arguments of a call, after the opening bracket. -/
def readCallArguments (cs : List Char) : Except Fault (List String × List Char) :=
  match Text.dropBlanks cs with
  | ')' :: rest => .ok ([], rest)
  | cs => readArguments cs

/-- Reads one call at the start: a colon, a name and bracketed arguments. -/
def readCall (cs : List Char) : Except Fault (Call × List Char) :=
  match cs with
  | ':' :: rest =>
    match rest.takeWhile Char.isAlpha, rest.dropWhile Char.isAlpha with
    | first :: others, '(' :: args =>
      match Function.ofName? (String.ofList (first :: others)) with
      | none => .error (.unknownFunction (String.ofList (first :: others)))
      | some function =>
        match readCallArguments args with
        | .error e => .error e
        | .ok (args, rest) =>
          if args.length = function.arity then .ok (⟨function, args⟩, rest)
          else .error (.wrongArity function args.length)
    | _, _ => .error (.unexpected (String.ofList cs))
  | _ => .error (.unexpected (String.ofList cs))

theorem readArguments_length {cs rest : List Char} {args : List String}
    (h : readArguments cs = .ok (args, rest)) : rest.length < cs.length := by
  fun_induction readArguments cs generalizing args rest with
  | case1 => simp at h
  | case2 start arg r ha rest' hd =>
    simp only [Except.ok.injEq, Prod.mk.injEq] at h
    obtain ⟨-, rfl⟩ := h
    have h1 := readArgument_length ha
    have h2 := dropBlanks_length r
    rw [hd] at h2
    simp only [List.length_cons] at *
    omega
  | case3 start arg r ha rest' hd args' rest'' hr ih =>
    simp only [Except.ok.injEq, Prod.mk.injEq] at h
    obtain ⟨-, rfl⟩ := h
    have h1 := readArgument_length ha
    have h2 := dropBlanks_length r
    have h3 := dropBlanks_length rest'
    have h4 := ih hr
    rw [hd] at h2
    simp only [List.length_cons] at *
    omega
  | case4 => simp_all
  | case5 => simp_all
  | case6 => simp at h

theorem readCallArguments_length {cs rest : List Char} {args : List String}
    (h : readCallArguments cs = .ok (args, rest)) : rest.length < cs.length := by
  unfold readCallArguments at h
  have h1 := dropBlanks_length cs
  split at h
  · rename_i hd
    simp only [Except.ok.injEq, Prod.mk.injEq] at h
    obtain ⟨-, rfl⟩ := h
    rw [hd] at h1
    simp only [List.length_cons] at h1
    omega
  · have := readArguments_length h
    omega

theorem readCall_length {cs rest : List Char} {call : Call} (h : readCall cs = .ok (call, rest)) :
    rest.length < cs.length := by
  unfold readCall at h
  split at h
  · rename_i body
    have hw : (body.dropWhile Char.isAlpha).length ≤ body.length :=
      (List.dropWhile_sublist _).length_le
    split at h
    · rename_i hargs
      split at h
      · cases h
      · split at h
        · cases h
        · rename_i hcall
          have := readCallArguments_length hcall
          split at h
          · cases h
            simp only [hargs, List.length_cons] at *
            omega
          · cases h
    · cases h
  · cases h

def readCalls (cs : List Char) : Except Fault (List Call) :=
  match cs with
  | [] => .ok []
  | c :: cs =>
    match _h : readCall (c :: cs) with
    | .error e => .error e
    | .ok (call, rest) =>
      match readCalls rest with
      | .error e => .error e
      | .ok calls => .ok (call :: calls)
termination_by cs.length
decreasing_by exact readCall_length _h

/-- The reference written between braces, blanks around it already taken off. -/
def readReference (body : List Char) : Except Fault Reference :=
  let name := body.takeWhile isNameChar
  if name.isEmpty then .error .invalidName
  else
    match readCalls (body.dropWhile isNameChar) with
    | .error e => .error e
    | .ok calls => .ok ⟨String.ofList name, calls⟩

def flush (literal : List Char) (segments : List Segment) : List Segment :=
  if literal.isEmpty then segments else .literal (String.ofList literal.reverse) :: segments

theorem splitAtBrace_length {inQuote : Bool} {cs body rest : List Char}
    (h : splitAtBrace inQuote cs = some (body, rest)) : rest.length < cs.length := by
  fun_induction splitAtBrace inQuote cs generalizing body rest with
  | case1 => simp at h
  | case2 => simp at h
  | case3 d r ih =>
    obtain ⟨⟨a, t⟩, hp, he⟩ := Option.map_eq_some_iff.1 h
    cases he
    have := ih hp
    simp only [List.length_cons]
    omega
  | case4 q r _ ih =>
    obtain ⟨⟨a, t⟩, hp, he⟩ := Option.map_eq_some_iff.1 h
    cases he
    have := ih hp
    simp only [List.length_cons]
    omega
  | case5 q r _ ih =>
    obtain ⟨⟨a, t⟩, hp, he⟩ := Option.map_eq_some_iff.1 h
    cases he
    have := ih hp
    simp only [List.length_cons]
    omega
  | case6 => simp_all
  | case7 q c r _ _ _ ih =>
    obtain ⟨⟨a, t⟩, hp, he⟩ := Option.map_eq_some_iff.1 h
    cases he
    have := ih hp
    simp only [List.length_cons]
    omega

/-- Reads segments; `literal` is the literal text so far, last character first. -/
def readSegments (literal : List Char) (cs : List Char) : Except Fault (List Segment) :=
  match cs with
  | [] => .ok (flush literal [])
  | '$' :: '$' :: rest => readSegments ('$' :: literal) rest
  | '$' :: '\x7b' :: rest =>
    match _h : splitAtBrace false rest with
    | none => .error .unterminatedReference
    | some (body, after) =>
      match readReference (Text.trimChars body) with
      | .error e => .error e
      | .ok ref =>
        match readSegments [] after with
        | .error e => .error e
        | .ok segments => .ok (flush literal (.reference ref :: segments))
  | c :: rest => readSegments (c :: literal) rest
termination_by cs.length
decreasing_by
  · simp only [List.length_cons]
    omega
  · have := splitAtBrace_length _h
    simp only [List.length_cons]
    omega
  · simp only [List.length_cons]
    omega

/-- The segments of an expression. -/
def parse (source : String) : Except Fault (List Segment) := readSegments [] source.toList

/-- The fetch error that reports a fault in an expression. -/
def Fault.toError (source : String) (fault : Fault) : FetchError :=
  .say .expression (fault.message source)

def missingRecordError (source : String) (names : List String) : FetchError :=
  .say .expression ("Expression " ++ Text.quoted source ++ " references " ++ ", ".intercalate names ++
    " but no record attributes are available")

/-- The segments of an expression, or the error that tells what is wrong with it. -/
def compile (source : String) : Except FetchError (List Segment) :=
  (parse source).mapError (Fault.toError source)

/-- Reads and evaluates an expression. -/
def run (source : String) (attributes : Option Attributes) : Except FetchError String :=
  match compile source with
  | .error e => .error e
  | .ok segments =>
    match evaluate segments attributes with
    | .error names => .error (missingRecordError source names)
    | .ok value => .ok value

theorem compile_eq_ok_iff {source : String} {segments : List Segment} :
    compile source = .ok segments ↔ parse source = .ok segments := by
  unfold compile
  cases parse source with
  | ok read =>
    change Except.ok read = .ok segments ↔ _
    rw [Except.ok.injEq, Except.ok.injEq]
  | error fault => exact ⟨nofun, nofun⟩

theorem family_of_compile {source : String} {e : FetchError} (h : compile source = .error e) :
    e.family = .expression := by
  unfold compile at h
  cases hparse : parse source with
  | ok segments =>
    rw [hparse] at h
    cases h
  | error fault =>
    rw [hparse] at h
    cases h
    rfl

example : (parse "a$$$\x7b b:append('\x7d') \x7d").toOption =
    some [.literal "a$", .reference ⟨"b", [⟨.append, ["\x7d"]⟩]⟩] := by decide +kernel
example : (parse "$\x7bb").toOption = none := by decide +kernel

end DocFetch.Expression

import DocFetch.Value.Display

/-! # Failures

Every way an operation can fail, one constructor per cause. The errors of a fetch form families, each
below another; what the program refuses by itself carries its text, what the platform refuses is known
by its kind.
-/

namespace DocFetch

/-- Families of fetch errors. A component from outside may define more, each below another; `home` is
where it is defined. -/
inductive ErrorFamily
  | general
  | configuration
  | expression
  | store
  | notFound
  | connection
  | transcoding
  | derived (home name : String) (above : ErrorFamily)
deriving DecidableEq, Repr

namespace ErrorFamily

def name : ErrorFamily → String
  | general => "KeyFetchError"
  | configuration => "ConfigurationFault"
  | expression => "ExpressionError"
  | store => "DocumentStoreError"
  | notFound => "DocumentNotFoundError"
  | connection => "StoreConnectionError"
  | transcoding => "DocumentTranscodingError"
  | derived _ name _ => name

/-- The families of the program itself. -/
def all : List ErrorFamily :=
  [general, configuration, expression, store, notFound, connection, transcoding]

def ofName? (name : String) : Option ErrorFamily := all.find? fun f => f.name == name

/-- The family itself and those above it, the nearest first. -/
def lineage : ErrorFamily → List ErrorFamily
  | general => [general]
  | configuration => [configuration, general]
  | expression => [expression, configuration, general]
  | store => [store, general]
  | notFound => [notFound, store, general]
  | connection => [connection, store, general]
  | transcoding => [transcoding, store, general]
  | derived home name above => derived home name above :: above.lineage

def isKindOf (f above : ErrorFamily) : Bool := f.lineage.contains above

theorem isKindOf_trans {f g h : ErrorFamily} (hfg : f.isKindOf g = true) (hgh : g.isKindOf h = true) :
    f.isKindOf h = true := by
  simp only [isKindOf, List.contains_iff_mem] at hfg hgh ⊢
  induction f with
  | derived home name above ih =>
    rcases List.mem_cons.1 hfg with rfl | hfg
    · exact hgh
    · exact List.mem_cons_of_mem _ (ih hfg)
  | _ =>
    simp only [lineage, List.mem_cons, List.not_mem_nil, or_false] at hfg
    grind [lineage]

def home : ErrorFamily → String
  | derived home _ _ => home
  | _ => "keyfetch.errors"

def qualifiedName (f : ErrorFamily) : String := f.home ++ "." ++ f.name

end ErrorFamily

/-- The text of an error made from `args`: nothing, the one argument, or all of them in brackets. -/
def argsText : List Value → String
  | [] => ""
  | [v] => v.display
  | vs => "(" ++ ", ".intercalate (vs.map Value.shown) ++ ")"

/-- The text that shows an error of a kind with its arguments. -/
def argsShown (kind : String) (args : List Value) : String :=
  kind ++ "(" ++ ", ".intercalate (args.map Value.shown) ++ ")"

/-- An error of a fetch: a missing document names the id and perhaps where it was looked for, any other
carries arguments. -/
inductive FetchError
  | missing (id : Value) (location : Value)
  | other (family : ErrorFamily) (args : List Value)
deriving BEq

namespace FetchError

def family : FetchError → ErrorFamily
  | missing .. => .notFound
  | other family _ => family

def message : FetchError → String
  | missing id location =>
    "Document " ++ id.shown ++ " does not exist" ++
      (if location.isTruthy then " in " ++ location.display else "")
  | other _ args => argsText args

/-- The text that shows the error with its kind. -/
def shown (e : FetchError) : String :=
  match e with
  | missing .. => argsShown e.family.name [.text e.message]
  | other family args => argsShown family.name args

def say (family : ErrorFamily) (message : String) : FetchError := .other family [.text message]

/-- An error of a family made from arguments, as far as the family takes them. -/
def ofArgs? (family : ErrorFamily) (args : List Value) : Option FetchError :=
  match family, args with
  | .notFound, [id] => some (.missing id .null)
  | .notFound, [id, location] => some (.missing id location)
  | .notFound, _ => none
  | family, args => some (.other family args)

end FetchError

/-- What the program itself refuses outside fetching. -/
inductive Refusal
  | casOutOfRange (shown : String)
  | expiryOutOfRange (shown : String)
  | notAMapping (path : String)
  | unknownBackend (name : String)
  | unknownFormat (name : String)
  | invalidTableName (name : String)
  | unknownScheduleType (name : String)
  | poolsClosing
  | poolsClosed
  | noExporter (channel : String)
  | jobNotFound (identifier : String)
  | malformedAttribute (pair : String)
deriving DecidableEq, Repr

namespace Refusal

def kind : Refusal → String
  | poolsClosing | poolsClosed => "RuntimeError"
  | noExporter _ => "KeyError"
  | jobNotFound _ => "FileNotFoundError"
  | malformedAttribute _ => "BadParameter"
  | _ => "ValueError"

def message : Refusal → String
  | casOutOfRange shown => "CAS out of range: " ++ shown
  | expiryOutOfRange shown => "Expiry out of range: " ++ shown
  | notAMapping path => "Configuration file must contain a mapping: " ++ path
  | unknownBackend name => "Unknown store backend: " ++ name
  | unknownFormat name => "Unsupported output format: " ++ name
  | invalidTableName name => "Invalid table name: " ++ Text.quoted name
  | unknownScheduleType name => "Unknown schedule type: " ++ name
  | poolsClosing => "Thread pools are closing"
  | poolsClosed => "Thread pools are closed"
  | noExporter channel => "No exporter configured for channel " ++ channel
  | jobNotFound identifier => "Job configuration not found: " ++ identifier
  | malformedAttribute pair => "Expected KEY=VALUE, got " ++ Text.quoted pair

end Refusal

/-- What the platform below refuses. -/
inductive PlatformFault
  | wrongType
  | badValue
  | noSuchMember
  | undecodable
  | overflow
  | malformedJson
  | malformedYaml
  | sqlOperation
  | sqlUsage
  | sqlConstraint
  | sqlFile
  | frozenField
  | noSuchFile
  | isDirectory
  | notDirectory
  | fileExists
  | system
  | poolShutDown
deriving DecidableEq, Repr

namespace PlatformFault

def kind : PlatformFault → String
  | wrongType => "TypeError"
  | badValue => "ValueError"
  | noSuchMember => "AttributeError"
  | undecodable => "UnicodeDecodeError"
  | overflow => "OverflowError"
  | malformedJson => "JSONDecodeError"
  | malformedYaml => "YAMLError"
  | sqlOperation => "OperationalError"
  | sqlUsage => "ProgrammingError"
  | sqlConstraint => "IntegrityError"
  | sqlFile => "DatabaseError"
  | frozenField => "FrozenInstanceError"
  | noSuchFile => "FileNotFoundError"
  | isDirectory => "IsADirectoryError"
  | notDirectory => "NotADirectoryError"
  | fileExists => "FileExistsError"
  | system => "OSError"
  | poolShutDown => "RuntimeError"

/-- Whether a database reports the fault. -/
def isSql : PlatformFault → Bool
  | sqlOperation | sqlUsage | sqlConstraint | sqlFile => true
  | _ => false

/-- Where a kind is at home. -/
def home : PlatformFault → String
  | malformedJson => "json.decoder"
  | malformedYaml => "yaml.error"
  | sqlOperation | sqlUsage | sqlConstraint | sqlFile => "sqlite3"
  | frozenField => "dataclasses"
  | _ => "builtins"

end PlatformFault

/-- One thing wrong with a configuration: where, what kind, and for a rule of the program its text. -/
structure Issue where
  location : List String
  kind : String
  message : Option String := none
deriving DecidableEq, Repr

inductive Failure
  | fetch (error : FetchError)
  | refused (reason : Refusal)
  | invalid (model : String) (issues : List Issue)
  | platform (fault : PlatformFault) (message : String)
  /-- An error that a component from outside raised, known by the name of its kind. -/
  | foreign (kind : String) (args : List Value)
deriving BEq

namespace Failure

def kind : Failure → String
  | fetch e => e.family.name
  | refused r => r.kind
  | invalid .. => "ValidationError"
  | platform fault _ => fault.kind
  | foreign kind _ => kind

def issueText (i : Issue) : String :=
  let place := if i.location.isEmpty then "" else ".".intercalate i.location ++ "\n"
  place ++ "  " ++ i.message.getD i.kind ++ " [type=" ++ i.kind ++ "]"

/-- The text of the failure; an error of kind `KeyError` shows its argument quoted. -/
def message : Failure → String
  | fetch e => e.message
  | refused (.noExporter channel) => Text.quoted (Refusal.message (.noExporter channel))
  | refused r => r.message
  | invalid model issues =>
    let count := toString issues.length ++ " validation error" ++ (if issues.length = 1 then "" else "s")
    "\n".intercalate ((count ++ " for " ++ model) :: issues.map issueText)
  | platform _ message => message
  | foreign kind args =>
    match kind, args with
    | "KeyError", [v] => v.shown
    | _, args => argsText args

def qualifiedName : Failure → String
  | fetch e => e.family.qualifiedName
  | refused (.malformedAttribute _) => "click.exceptions.BadParameter"
  | refused r => "builtins." ++ r.kind
  | invalid .. => "pydantic_core._pydantic_core.ValidationError"
  | platform fault _ => fault.home ++ "." ++ fault.kind
  | foreign kind _ => "builtins." ++ kind

def fault (f : PlatformFault) : Failure := .platform f ""

/-- Whether a file or the configuration of a job is missing. -/
def isMissingFile : Failure → Bool
  | refused (.jobNotFound _) => true
  | platform fault _ => fault = .noSuchFile
  | foreign kind _ => kind = PlatformFault.noSuchFile.kind
  | _ => false

/-- Whether the failure is a fetch error of a family or one below it. -/
def isKindOf (f : Failure) (above : ErrorFamily) : Bool :=
  match f with
  | fetch e => e.family.isKindOf above
  | _ => false

end Failure

end DocFetch

import DocFetch.Value.Basic

/-! # Log entries -/

namespace DocFetch.Log

inductive Level
  | debug
  | info
  | warning
  | error
  | critical
deriving DecidableEq, Repr

namespace Level

def name : Level → String
  | debug => "debug"
  | info => "info"
  | warning => "warning"
  | error => "error"
  | critical => "critical"

def all : List Level := [debug, info, warning, error, critical]

def ofName? (name : String) : Option Level := all.find? fun l => l.name == name

def rank : Level → Nat
  | debug => 10
  | info => 20
  | warning => 30
  | error => 40
  | critical => 50

end Level

/-- An event with its fields in order. -/
structure Entry where
  level : Level
  event : String
  fields : List (String × Value) := []
deriving BEq

end DocFetch.Log

import DocFetch.Record.Basic

/-! # Channels and transfers -/

namespace DocFetch

/-- The output channels of a fetch. -/
inductive Channel
  | success
  | original
  | retry
  | failure
deriving DecidableEq, Repr

namespace Channel

def name : Channel → String
  | success => "success"
  | original => "original"
  | retry => "retry"
  | failure => "failure"

/-- All channels in the order in which they are set up and counted. -/
def all : List Channel := [success, original, retry, failure]

def ofName? (name : String) : Option Channel := all.find? fun c => c.name == name

theorem mem_all (c : Channel) : c ∈ all := by cases c <;> decide

theorem name_injective {a b : Channel} (h : a.name = b.name) : a = b := by
  cases a <;> cases b <;> first | rfl | (exact absurd h (by decide))

end Channel

/-- A record handed to one channel. -/
structure Transfer where
  channel : Channel
  record : Record
deriving DecidableEq

def recordsFor (transfers : List Transfer) (channel : Channel) : List Record :=
  (transfers.filter fun t => t.channel = channel).map Transfer.record

end DocFetch

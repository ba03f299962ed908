import DocFetch.Action
import DocFetch.Channel

/-! # Routing records to exporters

A router owns one exporter per channel and counts what each of them took. What the exporters share is
released by the last part of closing, once.
-/

namespace DocFetch

structure Exporter (σ : Type) where
  write : Record → Action σ Unit
  flush : Action σ Unit
  close : Action σ Unit

/-- The exporter seen from a larger state. -/
def Exporter.zoom {σ τ : Type} (get : σ → τ) (set : σ → τ → σ) (e : Exporter τ) : Exporter σ where
  write r := (e.write r).zoom get set
  flush := e.flush.zoom get set
  close := e.close.zoom get set

structure Router (σ : Type) where
  exporters : List (Channel × Exporter σ)
  release : List (Action σ Unit) := []
  counts : Channel → Nat := fun _ => 0

namespace Router

variable {σ α : Type}

/-- The router seen from a larger state. -/
def zoom {τ : Type} (get : σ → τ) (set : σ → τ → σ) (r : Router τ) : Router σ where
  exporters := r.exporters.map fun e => (e.1, e.2.zoom get set)
  release := r.release.map fun a => a.zoom get set
  counts := r.counts

/-- An action on the state beside the router. -/
def beside (a : Action σ α) : Action (Router σ × σ) α := a.zoom Prod.snd fun s t => (s.1, t)

def countOne (channel : Channel) (r : Router σ) : Router σ :=
  { r with counts := fun c => if c = channel then r.counts c + 1 else r.counts c }

/-- Hands one record over and counts it. -/
def deliver (t : Transfer) : Action (Router σ × σ) Unit := do
  match Assoc.get? t.channel (← get).1.exporters with
  | none => Action.fail (.refused (.noExporter t.channel.name))
  | some e =>
    beside (e.write t.record)
    modify fun (r, s) => (r.countOne t.channel, s)

/-- Hands records over in order up to the first failure. -/
def route (transfers : List Transfer) : Action (Router σ × σ) Unit := transfers.forM deliver

def flush : Action (Router σ × σ) Unit := do
  (← get).1.exporters.forM fun e => beside e.2.flush

/-- Closes every exporter and then releases what they share; a failure ends the closing. -/
def close : Action (Router σ × σ) Unit := do
  let r := (← get).1
  r.exporters.forM fun e => do
    beside e.2.flush
    beside e.2.close
  r.release.forM beside
  modify fun (r, s) => ({ r with release := [] }, s)

end Router

end DocFetch

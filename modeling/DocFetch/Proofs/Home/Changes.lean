import DocFetch.Home.Basic
import DocFetch.Proofs.World.Actions

/-! # What changes at home

Logging writes at the end of logs and nothing else that can be seen. The layout, the clock and the source of
uuids stay.
-/

namespace DocFetch

/-- The bytes of logs. -/
def Resource.logs : Set Resource := { r | ∃ p, p.isLog = true ∧ r = .text p }

theorem Path.isLog_resolve {p : Path} (h : p.isLog = true) : p.resolve.isLog = true := by
  have hlog : ".log".toList <:+ p.name.toList := by simpa [isLog] using h
  rcases hparts : p.parts.eq_nil_or_concat with hnil | ⟨init, last, hlast⟩
  · simp [name, hnil] at hlog
  have hname : p.name = last := by simp [name, hlast]
  have hdots : last ≠ ".." := by
    rintro rfl
    rw [hname] at hlog
    exact absurd hlog.length_le (by decide)
  rw [isLog, List.isSuffixOf_iff_suffix, resolve, name, hlast, List.concat_eq_append,
    follow_append_singleton hdots, List.getLastD_concat, ← hname]
  exact hlog

namespace Home

variable {α : Type} {scope scope' : Set Resource}

structure Changes (scope : Set Resource) (h h' : Home) : Prop where
  world : h.world.Changes scope h'.world
  layout : h'.layout = h.layout
  now : h'.now = h.now
  uuid : h'.uuid = h.uuid

namespace Changes

variable {h h' k : Home}

theorem refl (scope : Set Resource) (h : Home) : h.Changes scope h := ⟨.refl scope h.world, rfl, rfl, rfl⟩

theorem trans (hc : h.Changes scope h') (hc' : h'.Changes scope k) : h.Changes scope k :=
  ⟨hc.world.trans hc'.world, hc'.layout.trans hc.layout, hc'.now.trans hc.now, hc'.uuid.trans hc.uuid⟩

theorem mono (hc : h.Changes scope h') (hscope : scope ⊆ scope') : h.Changes scope' h' :=
  ⟨hc.world.mono hscope, hc.layout, hc.now, hc.uuid⟩

theorem of_world {world : World} (hc : h.world.Changes scope world) : h.Changes scope { h with world } :=
  ⟨hc, rfl, rfl, rfl⟩

theorem of_journal (scope : Set Resource) (h : Home) (journal : Journal) :
    h.Changes scope { h with journal } := ⟨.refl scope h.world, rfl, rfl, rfl⟩

instance : Std.Refl (Changes scope) := ⟨.refl scope⟩

instance : IsTrans Home (Changes scope) := ⟨fun _ _ _ => trans⟩

end Changes

theorem lens_world : Action.Lens Home.world fun h world => { h with world } :=
  ⟨fun _ _ => rfl, fun _ => rfl, fun _ _ _ => rfl⟩

theorem moves_onWorld {a : Action World α} (h : a.Moves (World.Changes scope)) :
    (onWorld a).Moves (Changes scope) :=
  h.zoom fun _ _ => .of_world

theorem changes_draw (h : Home) : h.Changes {.drawn} (draw.run h).2 := .of_world (World.changes_draw h.uuid h.world)

/-! ## Logs -/

theorem moves_openLog (p : Path) : (openLog p).Moves (Changes {.directories}) :=
  moves_onWorld (World.moves_changeFiles fun _ _ h => (FileTree.Changes.of_append_empty h).mono (Set.empty_subset _))

theorem moves_openLogs : openLogs.Moves (Changes {.directories}) := by
  unfold openLogs
  refine .bind .get fun h => .bind .get fun _ => ?_
  split
  · refine .bind (moves_onWorld (World.moves_changeFiles fun _ _ => .of_makeDirectories)) fun _ => ?_
    refine .bind (.modify fun s => .of_journal _ s _) fun _ => ?_
    refine .bind (.attempt (.bind (moves_openLog _) fun _ => moves_openLog _)) fun r => ?_
    cases r with
    | ok _ => exact .modify fun s => .of_journal _ s _
    | error e => exact .fail _
  · exact .pure _

theorem moves_jobLogger (job : String) : (jobLogger job).Moves (Changes {.directories}) := by
  unfold jobLogger
  refine .bind moves_openLogs fun _ => .bind .get fun _ => ?_
  split
  · refine .bind .get fun _ => .bind (.attempt (moves_openLog _)) fun r => ?_
    cases r with
    | ok _ => exact .bind (.modify fun s => .of_journal _ s _) fun _ => .pure _
    | error e => exact .bind (.fail _) fun _ => .pure _
  · exact .pure _

theorem changes_writeLog (line : ByteArray) (p : LogPath) (h : Home) :
    h.Changes Resource.logs ((writeLog line p).run h).2 := by
  have hmoves : (onWorld (World.changeFiles (·.append p line))).Moves (Changes Resource.logs) := by
    refine moves_onWorld (World.moves_changeFiles fun t t' happend => ?_)
    refine (FileTree.Changes.of_append happend).mono ?_
    rintro r rfl
    exact ⟨_, Path.isLog_resolve p.2, rfl⟩
  exact hmoves h

theorem changes_log (l : Log.Logger) (e : Log.Entry) (h : Home) :
    h.Changes Resource.logs ((log l e).run h).2 := by
  have hlines (line : ByteArray) (ps : List LogPath) (s : Home) :
      s.Changes Resource.logs ((ps.forM (writeLog line)).run s).2 := by
    induction ps generalizing s with
    | nil => exact .refl _ s
    | cons p rest ih =>
      change s.Changes _ ((writeLog line p >>= fun _ => rest.forM (writeLog line)).run s).2
      rw [StateT.run_bind]
      exact (changes_writeLog line p s).trans (ih _)
  unfold log
  rw [StateT.run_bind]
  exact hlines (Text.encodeUtf8 (e.line l h.now)) (logsOf h.journal l e.level) h

end Home

end DocFetch

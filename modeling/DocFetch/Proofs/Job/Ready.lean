import DocFetch.Proofs.Job.Reports

/-! # Runners between runs

A runner is made with its database of events connected, and the runs that return leave it so. It can report as long as
no other program holds that file.
-/

namespace DocFetch

namespace Repository

theorem moves_loadGlobal (r : Repository) : r.loadGlobal.Moves (World.Changes Set.univ) := by
  unfold loadGlobal
  split
  · exact .pure _
  refine .get_bind fun w => Action.leads_ofExcept_bind fun found hfound => ?_
  cases found with
  | true => exact Action.leads_ofExcept_bind fun c _ => .refl _ w
  | false =>
    -- A file that is new takes no database away.
    have hwrite (entries : List (Value × Value)) :
        w.Changes Set.univ ((ConfigFile.write r.layout.globalConfig (.map entries)).exec w).2 := by
      rw [ConfigFile.write, Action.exec_bind_ofExcept, World.exec_changeFiles, FileTree.write_eq_append hfound]
      rcases happend : w.files.append r.layout.globalConfig _ with e | files
      · exact .refl _ w
      · exact .of_storage (.of_files ((FileTree.Changes.of_append happend).mono (Set.subset_univ _)))
    rw [if_neg Bool.false_ne_true, Action.exec_bind_pure, saveGlobal, Action.exec_bind_pure]
    exact hwrite _

end Repository

namespace Runner

variable {name : String} {records : Option (List Record)} {x y : Runner × Home} {summary : Summary}

/-- A runner as it is between runs: connections lead to databases with their tables, and a database of events is
connected, while no other program holds its file. -/
structure Ready (x : Runner × Home) : Prop where
  sound : x.2.world.storage.Sound
  serves : ∀ path, x.1.provenance = .database path → x.2.world.storage.Serves path

/-- A runner is ready when it is made, where no other program holds a file. -/
theorem ready_openFor {r r' : Repository} {workers : Int} {stores : List (String × DocumentStore Home)}
    {h h' : Home} {runner : Runner} (hsound : h.world.storage.Sound) (hholds : h.world.storage.holds = [])
    (hopen : (openFor r workers stores).exec h = (.ok (runner, r'), h')) : Ready (runner, h') := by
  unfold openFor at hopen
  obtain ⟨_, h₁, hlogs, hopen⟩ := Action.exec_bind_eq_ok hopen
  obtain ⟨⟨settings, r₂⟩, h₂, hsettings, hopen⟩ := Action.exec_bind_eq_ok hopen
  obtain ⟨provenance, h₃, hprovenance, hopen⟩ := Action.exec_bind_eq_ok hopen
  cases hopen
  have hlogged := (Home.moves_openLogs.of_exec hlogs).world.storage
  have hloaded := ((Home.moves_onWorld r.moves_loadGlobal).of_exec hsettings).world.storage
  have hsound := hloaded.sound (hlogged.sound hsound)
  have hfree : h₂.world.storage.holds = [] := by rw [hloaded.holds, hlogged.holds, hholds]
  obtain ⟨world, hworld, rfl⟩ := Action.exec_zoom_eq_ok hprovenance
  unfold openProvenance at hworld
  split at hworld
  · cases hworld
    exact ⟨hsound, nofun⟩
  · obtain ⟨_, w, hconnect, hworld⟩ := Action.exec_bind_eq_ok hworld
    cases hworld
    obtain ⟨n, hconnect⟩ := Action.exec_discard_eq_ok hconnect
    obtain ⟨storage, hstorage, rfl⟩ := Action.exec_zoom_eq_ok hconnect
    have hchanges := (Storage.moves_connect _).of_exec hstorage
    refine ⟨hchanges.sound hsound, fun path hpath => ?_⟩
    cases hpath
    refine ⟨Storage.connected_of_connect hsound hstorage, ?_⟩
    rw [hchanges.holds, hfree]
    rfl

theorem ready_sample : Ready (sampleRunner, sampleHome) := by
  have hsound : sampleHome.world.storage.Sound := by
    have hnone (files : FileTree) : Storage.Sound { files } := fun p hp => by cases hp.1
    change Storage.Sound ((modify _ >>= fun _ => discard (Storage.connect _) : Action Storage Unit).exec {}).2
    rw [Action.exec_bind_ok (Action.exec_modify _ _)]
    exact ((Storage.moves_connect _).discard _).sound (hnone _)
  have hholds : sampleHome.world.storage.holds = [] := by
    change ((modify _ >>= fun _ => discard (Storage.connect _) : Action Storage Unit).exec {}).2.holds = []
    rw [Action.exec_bind_ok (Action.exec_modify _ _)]
    exact ((Storage.moves_connect _).discard _).holds
  refine ⟨hsound, fun path hpath => ?_⟩
  cases hpath
  have hhas : sampleHome.world.storage.connections.Has (Path.resolve ⟨"/", ["h", "provenance.db"]⟩) :=
    ⟨by decide +kernel, by decide +kernel⟩
  refine ⟨⟨hhas, hsound _ hhas⟩, ?_⟩
  rw [hholds]
  rfl

/-- A runner is ready after a run that returned, where a shared store leaves outputs and events alone. -/
theorem Ready.run (hready : Ready x) (h : (Runner.run name records).exec x = (.ok summary, y))
    (hshared : ∀ n s, Assoc.get? n x.1.stores = some s →
      s.Reads (Home.Changes (Resource.outputs ∪ Resource.provenance)ᶜ)) : Ready y := by
  obtain ⟨p⟩ := run_eq_ok_iff.mp h
  obtain ⟨opened⟩ := openRun_eq_ok p.opening
  have hchanges := (p.told fun s hs => hshared _ s hs).changes.world.storage
  refine ⟨hchanges.sound hready.sound, fun path hpath => hchanges.serves (hready.serves path ?_)⟩
  rwa [p.finished, opened.same] at hpath

end Runner

end DocFetch

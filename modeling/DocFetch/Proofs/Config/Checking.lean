import DocFetch.Config.Validate
import DocFetch.Proofs.Files.Paths
import DocFetch.Proofs.Value.Plain

/-! # Checked configurations

A configuration that came out of its check passes it again in its dumped form, whether or not the fields that
hold nothing are left out: each check gives back what was dumped, and the default of a field that was left out
is nothing.
-/

namespace DocFetch

variable {α : Type} {name : String} {default : Option α} {check : Value → Verdict α}

/-! ## Fields -/

section Fields

variable {fields : List (String × Value)} {v : Value} {a : α}

/-- The entries of a mapping of fields. -/
def dumped (compact : Bool) (fields : List (String × Value)) : List (Value × Value) :=
  (if compact then fields.filter fun f => f.2 != .null else fields).map fun (k, v) => (.text k, v)

theorem field?_eq_none (h : name ∉ fields.map Prod.fst) :
    Value.field? name (fields.map fun (k, v) => (.text k, v)) = none := by
  induction fields with
  | nil => rfl
  | cons f rest ih =>
    obtain ⟨hne, hrest⟩ := not_or.mp fun hmem => h (List.mem_cons.mpr hmem)
    rw [List.map_cons, Value.field?, if_neg (Ne.symm hne), ih hrest]

theorem field?_of_mem (hkeys : (fields.map Prod.fst).Nodup) (hmem : (name, v) ∈ fields) :
    Value.field? name (fields.map fun (k, v) => (.text k, v)) = some v := by
  induction fields with
  | nil => cases hmem
  | cons f rest ih =>
    rw [List.map_cons, List.nodup_cons] at hkeys
    rw [List.map_cons, Value.field?]
    rcases List.mem_cons.mp hmem with rfl | hrest
    · rw [if_pos rfl]
    · have hne : f.1 ≠ name := fun heq => hkeys.1 (heq ▸ List.mem_map_of_mem hrest)
      rw [if_neg hne, ih hkeys.2 hrest]

theorem field?_dumped (hkeys : (fields.map Prod.fst).Nodup) (hmem : (name, v) ∈ fields) (compact : Bool) :
    Value.field? name (dumped compact fields) = if compact && v == .null then none else some v := by
  unfold dumped
  cases compact with
  | false => exact field?_of_mem hkeys hmem
  | true =>
    have hkept : ((fields.filter fun f => f.2 != .null).map Prod.fst).Nodup :=
      hkeys.sublist (List.filter_sublist.map Prod.fst)
    by_cases hv : v = .null
    · rw [hv, Bool.true_and, beq_self_eq_true, if_pos rfl, if_pos rfl]
      apply field?_eq_none
      intro hname
      obtain ⟨f, hf, hfname⟩ := List.mem_map.mp hname
      have hkeep := List.mem_filter.mp hf
      have hsame : f.2 = v := Option.some.inj ((field?_of_mem hkeys hkeep.1).symm.trans
        (hfname ▸ field?_of_mem hkeys hmem))
      simp [hsame, hv] at hkeep
    · rw [if_pos rfl, if_neg (by simpa using hv)]
      exact field?_of_mem hkept (List.mem_filter.mpr ⟨hmem, by simpa using hv⟩)

theorem fieldVerdict_eq_good {entries : List (Value × Value)} :
    fieldVerdict name default check entries = .good a ↔
      (∃ v, Value.field? name entries = some v ∧ check v = .good a) ∨
        Value.field? name entries = none ∧ default = some a := by
  unfold fieldVerdict
  rw [Verdict.within_eq_good]
  cases Value.field? name entries with
  | some v => simp
  | none => cases default <;> simp [Verdict.issue]

/-- A dumped field is checked as it is, or was left out and takes its default. -/
theorem fieldVerdict_dumped (v : Value) (hkeys : (fields.map Prod.fst).Nodup) (hmem : (name, v) ∈ fields)
    (hcheck : check v = .good a) (hnull : v = .null → default = some a) (compact : Bool) :
    fieldVerdict name default check (dumped compact fields) = .good a := by
  rw [fieldVerdict_eq_good, field?_dumped hkeys hmem]
  by_cases hout : (compact && v == .null) = true
  · have hv : v = .null := by simpa using (Bool.and_eq_true_iff.mp hout).2
    rw [if_pos hout]
    exact .inr ⟨rfl, hnull hv⟩
  · rw [if_neg hout]
    exact .inl ⟨v, rfl, hcheck⟩

theorem checkFields_eq_good {check : List (Value × Value) → Verdict α} :
    checkFields check v = .good a ↔ ∃ entries, v = .map entries ∧ check entries = .good a := by
  cases v <;> simp [checkFields, Verdict.issue]

end Fields

/-! ## Values -/

theorem checkText_text (s : String) : checkText (.text s) = .good s := rfl

theorem checkInteger_int (n : Int) : checkInteger (.int n) = .good n := rfl

theorem checkExpression_text (s : String) : checkExpression (.text s) = .good s := rfl

theorem checkOneOf_name {all : List α} {name : α → String} {a : α}
    (h : (all.find? fun b => name b == name a) = some a) (kind : String) :
    checkOneOf all name kind (.text (name a)) = .good a := by
  simp [checkOneOf, h]

theorem checkDocumentType_name (t : DocumentType) : checkDocumentType (.text t.name) = .good t := by
  have h : (DocumentType.all.find? fun u => Text.toLower u.name == Text.toLower (Text.trim t.name)) = some t := by
    cases t <;> decide +kernel
  unfold checkDocumentType
  dsimp only
  rw [h]

theorem checkOptional_dumped {dump : α → Value} {o : Option α}
    (h : ∀ a ∈ o, dump a ≠ .null ∧ check (dump a) = .good a) :
    checkOptional check ((o.map dump).getD .null) = .good o := by
  cases o with
  | none => rfl
  | some a =>
    obtain ⟨hnull, hgood⟩ := h a rfl
    rw [Option.map_some, Option.getD_some]
    unfold checkOptional
    split
    · exact absurd (by assumption) hnull
    · rw [hgood]
      rfl

theorem default_of_dumped_null {dump : α → Value} (hdump : ∀ a, dump a ≠ .null) {o : Option α}
    (h : (o.map dump).getD .null = .null) : some none = some o := by
  cases o with
  | none => rfl
  | some a => exact absurd h (hdump a)

theorem checkOptional_eq_good {v : Value} {o : Option α} (h : checkOptional check v = .good o) :
    ∀ a ∈ o, check v = .good a := by
  unfold checkOptional at h
  split at h
  · cases h
    simp
  · obtain ⟨b, hb, rfl⟩ := Verdict.map_eq_good.mp h
    intro a ha
    cases ha
    exact hb

namespace Path

/-- A path that came from a text. -/
def IsWritten (p : Path) : Prop := ∃ s, p = ofText s

theorem checkPath_eq_good {v : Value} {p : Path} (h : checkPath v = .good p) : p.IsWritten := by
  cases v <;> cases h
  exact ⟨_, rfl⟩

theorem checkOptionalPath_eq_good {v : Value} {o : Option Path} (h : checkOptionalPath v = .good o) :
    ∀ p ∈ o, p.IsWritten := by
  unfold checkOptionalPath at h
  split at h
  · cases h
    simp
  · split at h
    · cases h
      simp
    · cases h
      intro p hp
      cases hp
      exact ⟨_, rfl⟩
  · cases h

theorem IsWritten.checkPath {p : Path} (h : p.IsWritten) : checkPath (.text p.text) = .good p := by
  obtain ⟨s, rfl⟩ := h
  rw [DocFetch.checkPath, ofText_text_ofText]

theorem checkOptionalPath_dumped {o : Option Path} (h : ∀ p ∈ o, p.IsWritten) :
    checkOptionalPath (optionalPath o) = .good o := by
  cases o with
  | none => rfl
  | some p =>
    obtain ⟨s, rfl⟩ := h p rfl
    have hempty : (ofText s).text.isEmpty = false := by simpa using text_ofText_ne_empty s
    simp [optionalPath, checkOptionalPath, hempty, ofText_text_ofText]

end Path

theorem checkText_optional (o : Option String) : checkOptional checkText (optionalText o) = .good o :=
  checkOptional_dumped fun s _ => ⟨nofun, checkText_text s⟩

/-! ## Configurations -/

section Configurations

open Verdict

namespace ScheduleConfig

variable {v : Value} {c : ScheduleConfig}

theorem complaint?_of_check (h : ScheduleConfig.check v = .good c) : c.complaint? = none := by
  obtain ⟨entries, -, hentries⟩ := checkFields_eq_good.mp h
  exact (check_eq_good.mp hentries).2

theorem check_toValue (h : c.complaint? = none) (hplain : c.value.IsPlain) (compact : Bool) :
    ScheduleConfig.check (c.toValue compact) = .good c := by
  have htype : checkEnum ScheduleType.all ScheduleType.name (.text c.type.name) = .good c.type :=
    checkOneOf_name (by cases c.type <;> rfl) "enum"
  rw [toValue, hplain.plain_eq]
  refine check_eq_good.mpr ⟨map_eq_good.mpr ⟨(c.type, c.value), both_eq_good.mpr ⟨?_, ?_⟩, rfl⟩, h⟩
  · exact fieldVerdict_dumped (.text c.type.name) (by simp) (by simp) htype nofun compact
  · exact fieldVerdict_dumped c.value (by simp) (by simp) rfl (fun hnull => congrArg some hnull.symm) compact

end ScheduleConfig

namespace FetchConfig

variable {v : Value} {c : FetchConfig}

theorem complaint?_of_check (h : FetchConfig.check v = .good c) : c.complaint? = none := by
  obtain ⟨entries, -, hentries⟩ := checkFields_eq_good.mp h
  exact (check_eq_good.mp hentries).2

theorem check_toValue (h : c.complaint? = none) (compact : Bool) :
    FetchConfig.check (c.toValue compact) = .good c := by
  refine check_eq_good.mpr ⟨map_eq_good.mpr ⟨(c.clusterService, c.bucketName, c.documentType, c.idExpression),
    both_eq_good.mpr ⟨?_, both_eq_good.mpr ⟨?_, both_eq_good.mpr ⟨?_, ?_⟩⟩⟩, rfl⟩, h⟩
  · exact fieldVerdict_dumped (.text c.clusterService) (by simp) (by simp) (checkText_text c.clusterService) nofun
      compact
  · exact fieldVerdict_dumped (.text c.bucketName) (by simp) (by simp) (checkText_text c.bucketName) nofun compact
  · exact fieldVerdict_dumped (.text c.documentType.name) (by simp) (by simp)
      (checkDocumentType_name c.documentType) nofun compact
  · exact fieldVerdict_dumped (.text c.idExpression) (by simp) (by simp)
      (checkExpression_text c.idExpression) nofun compact

end FetchConfig

namespace StoreConfig

variable {v : Value} {c : StoreConfig}

structure Valid (c : StoreConfig) : Prop where
  complaint : c.complaint? = none
  path : ∀ p ∈ c.path, p.IsWritten

theorem valid_of_check (h : StoreConfig.check v = .good c) : c.Valid := by
  obtain ⟨entries, -, hentries⟩ := checkFields_eq_good.mp h
  obtain ⟨hfields, hcomplaint⟩ := check_eq_good.mp hentries
  obtain ⟨⟨backend, uri, database, path⟩, hall, rfl⟩ := map_eq_good.mp hfields
  have hpath := (both_eq_good.mp (both_eq_good.mp (both_eq_good.mp hall).2).2).2
  refine ⟨hcomplaint, ?_⟩
  rcases fieldVerdict_eq_good.mp hpath with ⟨v, -, hv⟩ | ⟨-, hdefault⟩
  · exact Path.checkOptionalPath_eq_good hv
  · cases hdefault
    simp

theorem check_toValue (h : c.Valid) (compact : Bool) : StoreConfig.check (c.toValue compact) = .good c := by
  have hbackend : checkEnum Backend.all Backend.name (.text c.backend.name) = .good c.backend :=
    checkOneOf_name (by cases c.backend <;> rfl) "enum"
  refine check_eq_good.mpr ⟨map_eq_good.mpr ⟨(c.backend, c.uri, c.database, c.path),
    both_eq_good.mpr ⟨?_, both_eq_good.mpr ⟨?_, both_eq_good.mpr ⟨?_, ?_⟩⟩⟩, rfl⟩, h.complaint⟩
  · exact fieldVerdict_dumped (.text c.backend.name) (by simp) (by simp) hbackend nofun compact
  · exact fieldVerdict_dumped (optionalText c.uri) (by simp) (by simp) (checkText_optional c.uri)
      (default_of_dumped_null nofun) compact
  · exact fieldVerdict_dumped (.text c.database) (by simp) (by simp) (checkText_text c.database) nofun compact
  · exact fieldVerdict_dumped (optionalPath c.path) (by simp) (by simp) (Path.checkOptionalPath_dumped h.path)
      (default_of_dumped_null nofun) compact

end StoreConfig

namespace OutputConfig

variable {v : Value} {c : OutputConfig}

theorem complaint?_of_check (h : OutputConfig.check v = .good c) : c.complaint? = none := by
  obtain ⟨entries, -, hentries⟩ := checkFields_eq_good.mp h
  exact (check_eq_good.mp hentries).2

theorem check_toValue (h : c.complaint? = none) (compact : Bool) :
    OutputConfig.check (c.toValue compact) = .good c := by
  have hformat : checkOneOf OutputFormat.all OutputFormat.name "literal_error" (.text c.format.name) =
      .good c.format := checkOneOf_name (by cases c.format <;> rfl) "literal_error"
  refine check_eq_good.mpr ⟨map_eq_good.mpr ⟨(c.format, c.uri, c.database),
    both_eq_good.mpr ⟨?_, both_eq_good.mpr ⟨?_, ?_⟩⟩, rfl⟩, h⟩
  · exact fieldVerdict_dumped (.text c.format.name) (by simp) (by simp) hformat nofun compact
  · exact fieldVerdict_dumped (optionalText c.uri) (by simp) (by simp) (checkText_optional c.uri)
      (default_of_dumped_null nofun) compact
  · exact fieldVerdict_dumped (.text c.database) (by simp) (by simp) (checkText_text c.database) nofun compact

end OutputConfig

namespace JobConfig

variable {v : Value} {c : JobConfig}

structure Valid (c : JobConfig) : Prop where
  complaint : c.complaint? = none
  fetch : c.fetch.complaint? = none
  store : c.store.Valid
  output : c.output.complaint? = none
  schedule : ∀ s ∈ c.schedule, s.complaint? = none

theorem valid_of_check (h : JobConfig.check v = .good c) : c.Valid := by
  obtain ⟨entries, -, hentries⟩ := checkFields_eq_good.mp h
  obtain ⟨hfields, hcomplaint⟩ := check_eq_good.mp hentries
  obtain ⟨⟨name, fetch, store, output, schedule, workers⟩, hall, rfl⟩ := map_eq_good.mp hfields
  obtain ⟨-, hall⟩ := both_eq_good.mp hall
  obtain ⟨hfetch, hall⟩ := both_eq_good.mp hall
  obtain ⟨hstore, hall⟩ := both_eq_good.mp hall
  obtain ⟨houtput, hall⟩ := both_eq_good.mp hall
  obtain ⟨hschedule, -⟩ := both_eq_good.mp hall
  refine ⟨hcomplaint, ?_, ?_, ?_, ?_⟩
  · rcases fieldVerdict_eq_good.mp hfetch with ⟨v, -, hv⟩ | ⟨-, hdefault⟩
    · exact FetchConfig.complaint?_of_check hv
    · cases hdefault
  · rcases fieldVerdict_eq_good.mp hstore with ⟨v, -, hv⟩ | ⟨-, hdefault⟩
    · exact StoreConfig.valid_of_check hv
    · cases hdefault
      exact ⟨rfl, by simp⟩
  · rcases fieldVerdict_eq_good.mp houtput with ⟨v, -, hv⟩ | ⟨-, hdefault⟩
    · exact OutputConfig.complaint?_of_check hv
    · cases hdefault
      rfl
  · rcases fieldVerdict_eq_good.mp hschedule with ⟨v, -, hv⟩ | ⟨-, hdefault⟩
    · exact fun s hs => ScheduleConfig.complaint?_of_check (checkOptional_eq_good hv s hs)
    · cases hdefault
      simp

theorem check_toValue (h : c.Valid) (hplain : ∀ s ∈ c.schedule, s.value.IsPlain) (compact : Bool) :
    JobConfig.check (c.toValue compact) = .good c := by
  have hschedule : checkOptional ScheduleConfig.check
      ((c.schedule.map (·.toValue compact)).getD .null) = .good c.schedule :=
    checkOptional_dumped fun s hs => ⟨nofun, ScheduleConfig.check_toValue (h.schedule s hs) (hplain s hs) compact⟩
  have hworkers : checkOptional checkInteger ((c.maxWorkers.map Value.int).getD .null) = .good c.maxWorkers :=
    checkOptional_dumped fun _ _ => ⟨nofun, rfl⟩
  refine check_eq_good.mpr ⟨map_eq_good.mpr
    ⟨(c.jobName, c.fetch, c.store, c.output, c.schedule, c.maxWorkers), both_eq_good.mpr ⟨?_,
      both_eq_good.mpr ⟨?_, both_eq_good.mpr ⟨?_, both_eq_good.mpr ⟨?_, both_eq_good.mpr ⟨?_, ?_⟩⟩⟩⟩⟩, rfl⟩,
    h.complaint⟩
  · exact fieldVerdict_dumped (.text c.jobName) (by simp) (by simp) (checkText_text c.jobName) nofun compact
  · exact fieldVerdict_dumped (c.fetch.toValue compact) (by simp) (by simp) (FetchConfig.check_toValue h.fetch compact)
      nofun compact
  · exact fieldVerdict_dumped (c.store.toValue compact) (by simp) (by simp) (StoreConfig.check_toValue h.store compact)
      nofun compact
  · exact fieldVerdict_dumped (c.output.toValue compact) (by simp) (by simp)
      (OutputConfig.check_toValue h.output compact) nofun compact
  · exact fieldVerdict_dumped ((c.schedule.map (·.toValue compact)).getD .null) (by simp) (by simp) hschedule
      (default_of_dumped_null nofun) compact
  · exact fieldVerdict_dumped ((c.maxWorkers.map Value.int).getD .null) (by simp) (by simp) hworkers
      (default_of_dumped_null nofun) compact

end JobConfig

namespace GlobalConfig

variable {v : Value} {c : GlobalConfig}

structure Valid (c : GlobalConfig) : Prop where
  complaint : c.complaint? = none
  outputs : c.outputsDir.IsWritten
  jobs : c.jobsDir.IsWritten
  provenance : ∀ p ∈ c.provenanceDb, p.IsWritten

theorem valid_of_check (h : GlobalConfig.check v = .good c) : c.Valid := by
  obtain ⟨entries, -, hentries⟩ := checkFields_eq_good.mp h
  obtain ⟨hfields, hcomplaint⟩ := check_eq_good.mp hentries
  obtain ⟨⟨workers, outputs, jobs, provenance⟩, hall, rfl⟩ := map_eq_good.mp hfields
  obtain ⟨-, hall⟩ := both_eq_good.mp hall
  obtain ⟨houtputs, hall⟩ := both_eq_good.mp hall
  obtain ⟨hjobs, hprovenance⟩ := both_eq_good.mp hall
  refine ⟨hcomplaint, ?_, ?_, ?_⟩
  · rcases fieldVerdict_eq_good.mp houtputs with ⟨v, -, hv⟩ | ⟨-, hdefault⟩
    · exact Path.checkPath_eq_good hv
    · exact ⟨_, (Option.some.inj hdefault).symm⟩
  · rcases fieldVerdict_eq_good.mp hjobs with ⟨v, -, hv⟩ | ⟨-, hdefault⟩
    · exact Path.checkPath_eq_good hv
    · exact ⟨_, (Option.some.inj hdefault).symm⟩
  · rcases fieldVerdict_eq_good.mp hprovenance with ⟨v, -, hv⟩ | ⟨-, hdefault⟩
    · exact Path.checkOptionalPath_eq_good hv
    · intro p hp
      rw [← Option.some.inj hdefault] at hp
      exact ⟨_, (Option.some.inj hp).symm⟩

/-- With every field dumped, nothing stays nothing whatever the default is. -/
theorem check_toValue (h : c.Valid) : GlobalConfig.check (c.toValue false) = .good c := by
  refine check_eq_good.mpr ⟨map_eq_good.mpr ⟨(c.workers, c.outputsDir, c.jobsDir, c.provenanceDb),
    both_eq_good.mpr ⟨?_, both_eq_good.mpr ⟨?_, both_eq_good.mpr ⟨?_, ?_⟩⟩⟩, rfl⟩, h.complaint⟩
  · exact fieldVerdict_dumped (.int c.workers) (by simp) (by simp) (checkInteger_int c.workers) nofun false
  · exact fieldVerdict_dumped (.text c.outputsDir.text) (by simp) (by simp) h.outputs.checkPath nofun false
  · exact fieldVerdict_dumped (.text c.jobsDir.text) (by simp) (by simp) h.jobs.checkPath nofun false
  · rw [fieldVerdict_eq_good]
    exact .inl ⟨optionalPath c.provenanceDb, field?_dumped (by simp) (by simp) false,
      Path.checkOptionalPath_dumped h.provenance⟩

end GlobalConfig

end Configurations

end DocFetch

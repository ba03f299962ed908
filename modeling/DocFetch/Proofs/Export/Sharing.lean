import DocFetch.Proofs.Config.Listing
import DocFetch.Proofs.Export.Lines
import Mathlib.Data.List.Basic

/-! # Files of lines that jobs share

A file of lines is named by the channel, the run and what is kept of the name of the job. In the same run two jobs
write to the same file just if the same is kept of their names. What is kept of a simple name tells its slug, so that
jobs with simple names share a file only if they share their configuration; other names lose more here than in slugs.
-/

namespace DocFetch

namespace Text

theorem isAlphanumeric_of_isBlank {c : Char} (h : isBlank c = true) : isAlphanumeric c = false := by
  have hnone : ∀ r ∈ blankRanges, ∀ n ∈ List.range' r.1 (r.2 + 1 - r.1), inRanges alphanumericRanges n = false := by
    decide +kernel
  obtain ⟨r, hr, hfirst, hlast⟩ := exists_mem_of_inRanges h
  refine hnone r hr c.toNat (List.mem_range'_1.mpr ?_)
  omega

end Text

namespace FileExport

variable {directory : Path} {job job' tag : String} {ch ch' : Channel}

/-! ## Names of files -/

theorem append_hyphen_inj {s s' t t' : List Char} (ht : '-' ∉ t) (ht' : '-' ∉ t') :
    s ++ '-' :: t = s' ++ '-' :: t' ↔ s = s' ∧ t = t' := by
  constructor
  · intro h
    rcases List.append_eq_append_iff.mp h with ⟨as, rfl, hrest⟩ | ⟨bs, rfl, hrest⟩
    · cases as with
      | nil => exact ⟨(List.append_nil s).symm, (List.cons.inj hrest).2⟩
      | cons a as =>
        rw [List.cons_append, List.cons.injEq] at hrest
        exact absurd (hrest.2 ▸ List.mem_append_right as List.mem_cons_self) ht
    · cases bs with
      | nil => exact ⟨List.append_nil s', (List.cons.inj hrest).2.symm⟩
      | cons b bs =>
        rw [List.cons_append, List.cons.injEq] at hrest
        exact absurd (hrest.2 ▸ List.mem_append_right bs List.mem_cons_self) ht'
  · rintro ⟨rfl, rfl⟩
    rfl

theorem hyphen_notMem_name (ch : Channel) : '-' ∉ ch.name.toList := by
  cases ch <;> decide

theorem fileName_inj :
    fileName job ch.name tag = fileName job' ch'.name tag ↔ ch = ch' ∧ jobPart job = jobPart job' := by
  have hsplit (job : String) (ch : Channel) :
      (jobPart job ++ "-" ++ ch.name).toList = (jobPart job).toList ++ '-' :: ch.name.toList := by
    rw [String.toList_append, String.toList_append, List.append_assoc]
    rfl
  rw [fileName, fileName, String.append_left_inj, String.append_left_inj, String.append_left_inj, ← String.toList_inj,
    hsplit, hsplit, append_hyphen_inj (hyphen_notMem_name ch) (hyphen_notMem_name ch'), String.toList_inj,
    String.toList_inj, and_comm]
  exact and_congr_left' ⟨Channel.name_injective, fun h => h ▸ rfl⟩

theorem resolve_place_inj : (place directory job tag ch).resolve = (place directory job' tag ch').resolve ↔
    ch = ch' ∧ jobPart job = jobPart job' := by
  rw [resolve_place, resolve_place, Path.mk.injEq, List.append_cancel_left_eq, List.singleton_inj, fileName_inj]
  exact and_iff_right rfl

/-! ## Simple names -/

/-- A name, not a blank one, in which all letters and digits are ASCII and no two characters that are not kept stand
side by side. -/
structure Simple (job : String) : Prop where
  ascii : ∀ c ∈ job.toList, Text.isAlphanumeric c = true → c.isAlphanum = true
  apart : (Text.trimChars job.toList).IsChain fun c d => keeps c = true ∨ keeps d = true
  named : Text.trimChars job.toList ≠ []

instance (job : String) : Decidable (Simple job) :=
  decidable_of_iff ((job.toList.all fun c => !Text.isAlphanumeric c || c.isAlphanum) = true ∧
      (Text.trimChars job.toList).IsChain (fun c d => keeps c = true ∨ keeps d = true) ∧
      Text.trimChars job.toList ≠ []) <| by
    have hall : (job.toList.all fun c => !Text.isAlphanumeric c || c.isAlphanum) = true ↔
        ∀ c ∈ job.toList, Text.isAlphanumeric c = true → c.isAlphanum = true := by
      rw [List.all_eq_true]
      refine forall₂_congr fun c _ => ?_
      cases Text.isAlphanumeric c <;> simp
    rw [hall]
    exact ⟨fun ⟨hascii, hapart, hnamed⟩ => ⟨hascii, hapart, hnamed⟩, fun h => ⟨h.ascii, h.apart, h.named⟩⟩

/-- What a character becomes by itself. -/
def mark (c : Char) : Char := if keeps c then c else '_'

theorem sanitize_eq_map {afterOther : Bool} {cs : List Char}
    (hfirst : afterOther = true → ∀ c ∈ cs.head?, keeps c = true)
    (hapart : cs.IsChain fun c d => keeps c = true ∨ keeps d = true) : sanitize afterOther cs = cs.map mark := by
  induction cs generalizing afterOther with
  | nil => rfl
  | cons c rest ih =>
    have hrest : rest.IsChain fun c d => keeps c = true ∨ keeps d = true := by
      cases rest with
      | nil => exact .nil
      | cons d rest => exact (List.isChain_cons_cons.mp hapart).2
    rw [sanitize, List.map_cons, mark]
    by_cases hc : keeps c = true
    · rw [if_pos hc, if_pos hc, ih (fun hfalse => absurd hfalse Bool.false_ne_true) hrest]
    · have hother : ¬ afterOther = true := fun hafter => hc (hfirst hafter c rfl)
      rw [if_neg hc, if_neg hc, if_neg hother, ih (fun _ d hd => ?_) hrest]
      cases rest with
      | nil => cases hd
      | cons e rest =>
        cases hd
        exact (List.isChain_cons_cons.mp hapart).1.resolve_left hc

/-- A character leaves the same in a slug as what it becomes in the names of files. -/
theorem slugChar_mark {c : Char} (hascii : Text.isAlphanumeric c = true → c.isAlphanum = true) :
    slugChar (mark c) = slugChar c := by
  unfold mark
  split
  · rfl
  · rename_i hc
    have hother : ¬ Text.isAlphanumeric c = true := by
      intro halpha
      exact hc (by simp [keeps, hascii halpha])
    rw [slugChar, slugChar, if_neg hother]
    rfl

theorem slugChars_trimChars (cs : List Char) : slugChars (Text.trimChars cs) = slugChars cs := by
  obtain ⟨b, b', hb, hb', hcs⟩ := Text.exists_strip Text.isBlank cs
  -- blanks leave hyphens at the ends, which are taken off in any case
  have hhyphens {b : List Char} (hb : ∀ c ∈ b, Text.isBlank c = true) :
      ∀ d ∈ b.flatMap slugChar, decide (d = '-') = true := by
    intro d hd
    obtain ⟨c, hc, hdc⟩ := List.mem_flatMap.mp hd
    rw [slugChar, Text.isAlphanumeric_of_isBlank (hb c hc)] at hdc
    exact decide_eq_true (List.mem_singleton.mp hdc)
  conv_rhs => rw [hcs]
  rw [slugChars, slugChars, List.flatMap_append, List.flatMap_append,
    Text.stripWhile_surrounded (hhyphens hb) (hhyphens hb')]
  rfl

/-- What is kept of a simple name tells its slug. -/
theorem slug_jobPart (h : Simple job) : slug (jobPart job) = slug job := by
  have hmap : sanitize false (Text.trimChars job.toList) = (Text.trimChars job.toList).map mark :=
    sanitize_eq_map (fun hfalse => absurd hfalse Bool.false_ne_true) h.apart
  have hsome : ¬ ((Text.trimChars job.toList).map mark).isEmpty = true := by simpa using h.named
  have hsame :
      ((Text.trimChars job.toList).map mark).flatMap slugChar = (Text.trimChars job.toList).flatMap slugChar := by
    obtain ⟨b, b', -, -, hjob⟩ := Text.exists_strip Text.isBlank job.toList
    rw [List.flatMap_map]
    refine List.flatMap_congr fun c hc => slugChar_mark (h.ascii c ?_)
    rw [hjob]
    exact List.mem_append_right b (List.mem_append_left b' hc)
  rw [jobPart, hmap, if_neg hsome, slug, String.toList_ofList, slugChars, hsame]
  exact congrArg String.ofList (slugChars_trimChars job.toList)

/-! ## Files of two jobs -/

/-- Whether the exporter of a channel writes to a file. -/
def WritesTo (rt : Router World) (w : World) (ch : Channel) (p : Path) : Prop :=
  ∃ n s, Assoc.get? ch rt.exporters = some (exporterOf n) ∧ w.streams[n]? = some s ∧ s.path.resolve = p

variable {w w' v v' : World} {rt rt' : Router World}

theorem Opened.writesTo (h : Opened directory job tag w rt w') (ch : Channel) :
    WritesTo rt w' ch (place directory job tag ch).resolve :=
  ⟨_, _, h.get?_exporters ch, h.stream ch, rfl⟩

/-- Two routers that were opened for files of lines, with one directory and one run, write to the same file just from
the same channel and where the same is kept of the names of their jobs. Two jobs with simple names whose configurations
are in different files share none. -/
theorem shared_iff {c c' : OutputConfig} (hjson : c.format = .json) (hjson' : c'.format = .json)
    (hopen : (c.openRouter job directory tag).exec w = (.ok rt, w'))
    (hopen' : (c'.openRouter job' directory tag).exec v = (.ok rt', v')) (ch ch' : Channel) :
    ∃ p p', WritesTo rt w' ch p ∧ WritesTo rt' v' ch' p' ∧ (p = p' ↔ ch = ch' ∧ jobPart job = jobPart job') ∧
      (Simple job → Simple job' → ∀ l : Layout, l.jobFile job ≠ l.jobFile job' → p ≠ p') := by
  refine ⟨_, _, (openRouter_eq_ok hjson hopen).writesTo ch, (openRouter_eq_ok hjson' hopen').writesTo ch',
    resolve_place_inj, fun hsimple hsimple' l hne hshared => hne ?_⟩
  obtain ⟨-, hpart⟩ := resolve_place_inj.mp hshared
  rw [Layout.jobFile, Layout.jobFile, jobFileName, jobFileName, ← slug_jobPart hsimple, ← slug_jobPart hsimple', hpart]

/-- Routers of two jobs in the same run. -/
def openBoth (job job' : String) : Action World (Router World × Router World) := do
  let rt ← ({} : OutputConfig).openRouter job Layout.sampleLayout.outputs "t"
  let rt' ← ({} : OutputConfig).openRouter job' Layout.sampleLayout.outputs "t"
  return (rt, rt')

theorem exists_openRouters {job job' : String}
    (hreturns : ((openBoth job job').exec {}).1.toOption.any (fun _ => true) = true) :
    ∃ rt w rt' w', (({} : OutputConfig).openRouter job Layout.sampleLayout.outputs "t").exec {} = (.ok rt, w) ∧
      (({} : OutputConfig).openRouter job' Layout.sampleLayout.outputs "t").exec w = (.ok rt', w') := by
  obtain ⟨_, w', hopens, -⟩ := Action.exec_eq_ok_of_any hreturns
  obtain ⟨rt, w, hopen, hopens⟩ := Action.exec_bind_eq_ok hopens
  obtain ⟨rt', u, hopen', -⟩ := Action.exec_bind_eq_ok hopens
  exact ⟨rt, w, rt', u, hopen, hopen'⟩

/-- Jobs that hold the same letters and digits, but for the ending of one name. -/
theorem shared_iff_simple :
    ∃ rt w rt' w',
      (({} : OutputConfig).openRouter "Daily users" Layout.sampleLayout.outputs "t").exec {} = (.ok rt, w) ∧
      (({} : OutputConfig).openRouter "daily_users-2" Layout.sampleLayout.outputs "t").exec w = (.ok rt', w') ∧
      Simple "Daily users" ∧ Simple "daily_users-2" ∧
      Layout.sampleLayout.jobFile "Daily users" ≠ Layout.sampleLayout.jobFile "daily_users-2" ∧
      ∃ p p', WritesTo rt w .success p ∧ WritesTo rt' w' .success p' ∧ p ≠ p' := by
  have hreturns : ((openBoth "Daily users" "daily_users-2").exec {}).1.toOption.any (fun _ => true) = true := by
    decide +kernel
  obtain ⟨rt, w, rt', w', hopen, hopen'⟩ := exists_openRouters hreturns
  have hsimple : Simple "Daily users" := by decide +kernel
  have hsimple' : Simple "daily_users-2" := by decide +kernel
  have hne : Layout.sampleLayout.jobFile "Daily users" ≠ Layout.sampleLayout.jobFile "daily_users-2" := by
    decide +kernel
  obtain ⟨p, p', hp, hp', -, hapart⟩ := shared_iff rfl rfl hopen hopen' .success .success
  exact ⟨rt, w, rt', w', hopen, hopen', hsimple, hsimple', hne, p, p', hp, hp', hapart hsimple hsimple' _ hne⟩

/-- Two jobs that are named by one letter each, which is not kept: each has a configuration of its own, and in the same
run both write to one file. -/
theorem shared_by_letters :
    ∃ rt w rt' w' p, (({} : OutputConfig).openRouter "é" Layout.sampleLayout.outputs "t").exec {} = (.ok rt, w) ∧
      (({} : OutputConfig).openRouter "è" Layout.sampleLayout.outputs "t").exec w = (.ok rt', w') ∧
      Layout.sampleLayout.jobFile "é" ≠ Layout.sampleLayout.jobFile "è" ∧ WritesTo rt w .success p ∧
      WritesTo rt' w' .success p := by
  have hreturns : ((openBoth "é" "è").exec {}).1.toOption.any (fun _ => true) = true := by decide +kernel
  obtain ⟨rt, w, rt', w', hopen, hopen'⟩ := exists_openRouters hreturns
  have hpart : jobPart "é" = jobPart "è" := by decide +kernel
  have hsame : (place Layout.sampleLayout.outputs "é" "t" .success).resolve =
      (place Layout.sampleLayout.outputs "è" "t" .success).resolve := resolve_place_inj.mpr ⟨rfl, hpart⟩
  have hfirst := (openRouter_eq_ok rfl hopen).writesTo .success
  rw [hsame] at hfirst
  exact ⟨rt, w, rt', w', _, hopen, hopen', by decide +kernel, hfirst, (openRouter_eq_ok rfl hopen').writesTo .success⟩

end FileExport

end DocFetch

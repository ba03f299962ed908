import DocFetch.Text.Alphanumeric
import DocFetch.Text.Blank
import DocFetch.Text.Casing

/-! # Slugs of job names

The configuration file of a job is named by its slug: letters and digits in lower case, a hyphen for
every other character, and no hyphens at the ends.
-/

namespace DocFetch

def slugChar (c : Char) : List Char := if Text.isAlphanumeric c then Text.lowerChar c else ['-']

def slugChars (cs : List Char) : List Char := Text.stripWhile (· = '-') (cs.flatMap slugChar)

def slug (name : String) : String := String.ofList (slugChars name.toList)

def jobFileName (name : String) : String := slug name ++ ".yaml"

theorem exists_mem_of_mem_slug {d : Char} {name : String} (h : d ∈ (slug name).toList) :
    ∃ c ∈ name.toList, d ∈ slugChar c := by
  rw [slug, String.toList_ofList, slugChars] at h
  obtain ⟨before, after, -, -, hstrip⟩ := Text.exists_strip (· = '-') (name.toList.flatMap slugChar)
  rw [← List.mem_flatMap, hstrip]
  exact List.mem_append_right before (List.mem_append_left after h)

theorem notMem_slug {d : Char} (hlow : d.toNat < 65) (hletter : Text.isAlphanumeric d = false) (hhyphen : d ≠ '-')
    (name : String) : d ∉ (slug name).toList := by
  intro hd
  obtain ⟨c, -, hc⟩ := exists_mem_of_mem_slug hd
  unfold slugChar at hc
  split at hc
  · rename_i hc'
    refine Text.notMem_lowerChar hlow ?_ hc
    rintro rfl
    exact absurd hc' (by simp [hletter])
  · exact absurd (List.mem_singleton.mp hc) hhyphen

theorem nul_notMem_slug (name : String) : '\x00' ∉ (slug name).toList :=
  notMem_slug (by decide) (by decide +kernel) (by decide) name

theorem slash_notMem_slug (name : String) : '/' ∉ (slug name).toList :=
  notMem_slug (by decide) (by decide +kernel) (by decide) name

example : slug "-My Job!" = "my-job" := by decide +kernel

end DocFetch

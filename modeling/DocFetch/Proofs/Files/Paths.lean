import DocFetch.Files.Path
import Mathlib.Data.List.TakeWhile

/-! # Written forms of paths

A path that came from a text is written with the names that it holds, so reading what was written gives it
back. A text with an ending leads to a file in the directory that the text up to its last slash leads to.
-/

namespace DocFetch

namespace Path

theorem splitSlashes_slash (cs : List Char) : splitSlashes ('/' :: cs) = [] :: splitSlashes cs := by
  rw [splitSlashes, List.splitOn_cons_eq_if_modifyHead]
  rfl

theorem slash_notMem_of_mem {cs l : List Char} (h : l ∈ splitSlashes cs) : '/' ∉ l := by
  induction cs generalizing l with
  | nil =>
    rw [splitSlashes, List.splitOn_nil, List.mem_singleton] at h
    simp [h]
  | cons c cs ih =>
    by_cases hc : c = '/'
    · rw [hc, splitSlashes_slash, List.mem_cons] at h
      rcases h with rfl | h
      · exact List.not_mem_nil
      · exact ih h
    · have hne : (c == '/') = false := by simpa using hc
      rw [splitSlashes, List.splitOn_cons_eq_if_modifyHead, hne, if_neg Bool.false_ne_true] at h
      cases hcs : cs.splitOn '/' with
      | nil => exact absurd hcs (List.splitOn_ne_nil _ _)
      | cons first rest =>
        have hfirst : '/' ∉ first := ih (by rw [splitSlashes, hcs]; exact List.mem_cons_self)
        rw [hcs, List.modifyHead_cons, List.mem_cons] at h
        rcases h with rfl | h
        · simp [Ne.symm hc, hfirst]
        · exact ih (by rw [splitSlashes, hcs]; exact List.mem_cons_of_mem first h)

/-- A name that a written form keeps. -/
def Keeps (name : String) : Prop := name ≠ "" ∧ name ≠ "." ∧ '/' ∉ name.toList

theorem keeps_of_mem_ofText {s n : String} (h : n ∈ (ofText s).parts) : Keeps n := by
  have hn := List.mem_filter.mp h
  have hne : n ≠ "" ∧ n ≠ "." := of_decide_eq_true hn.2
  obtain ⟨cs, hcs, rfl⟩ := List.mem_map.mp hn.1
  refine ⟨hne.1, hne.2, ?_⟩
  rw [String.toList_ofList]
  exact slash_notMem_of_mem hcs

theorem rootOf_eq (cs : List Char) : ∃ k ≤ 2, rootOf cs = String.ofList (List.replicate k '/') := by
  unfold rootOf
  dsimp only
  split
  · exact ⟨0, by omega, rfl⟩
  split
  · exact ⟨2, by omega, rfl⟩
  · exact ⟨1, by omega, rfl⟩

variable {k : Nat} {names : List String}

theorem toList_slashes (k : Nat) (names : List String) :
    (String.ofList (List.replicate k '/') ++ "/".intercalate names).toList =
      List.replicate k '/' ++ ['/'].intercalate (names.map String.toList) := by
  rw [String.toList_append, String.toList_intercalate, String.toList_ofList]
  rfl

theorem splitSlashes_slashes (hempty : names ≠ []) (hnames : ∀ n ∈ names, Keeps n) (k : Nat) :
    splitSlashes (List.replicate k '/' ++ ['/'].intercalate (names.map String.toList)) =
      List.replicate k [] ++ names.map String.toList := by
  induction k with
  | zero =>
    apply List.splitOn_intercalate
    · intro l hl
      obtain ⟨n, hn, rfl⟩ := List.mem_map.mp hl
      exact (hnames n hn).2.2
    · simpa using hempty
  | succ k ih =>
    rw [List.replicate_succ, List.cons_append, splitSlashes_slash, ih]
    rfl

theorem rootOf_slashes (hk : k ≤ 2) (hnames : ∀ n ∈ names, Keeps n) :
    rootOf (List.replicate k '/' ++ ['/'].intercalate (names.map String.toList)) =
      String.ofList (List.replicate k '/') := by
  have hhead : (['/'].intercalate (names.map String.toList)).takeWhile (· = '/') = [] := by
    cases names with
    | nil => rfl
    | cons n rest =>
      have hn := hnames n List.mem_cons_self
      cases hcs : n.toList with
      | nil => exact absurd (String.toList_eq_nil_iff.mp hcs) hn.1
      | cons c cs =>
        have hc : c ≠ '/' := by
          rintro rfl
          exact hn.2.2 (hcs ▸ List.mem_cons_self)
        cases rest <;> simp [hcs, hc]
  have hlength : ((List.replicate k '/' ++ ['/'].intercalate (names.map String.toList)).takeWhile
      (· = '/')).length = k := by
    rw [List.takeWhile_append_of_pos (by simp +contextual), hhead, List.append_nil, List.length_replicate]
  rw [rootOf, hlength]
  have hcases : k = 0 ∨ k = 1 ∨ k = 2 := by omega
  rcases hcases with rfl | rfl | rfl <;> rfl

/-- Writing a path and reading it again keeps it. -/
theorem ofText_text_ofText (s : String) : ofText (ofText s).text = ofText s := by
  have hnames : ∀ n ∈ (ofText s).parts, Keeps n := fun n => keeps_of_mem_ofText
  obtain ⟨k, hk, hroot⟩ : ∃ k ≤ 2, (ofText s).root = String.ofList (List.replicate k '/') :=
    rootOf_eq s.toList
  generalize ofText s = p at hnames hroot
  obtain ⟨root, parts⟩ := p
  dsimp only at hnames hroot
  subst hroot
  cases parts with
  | nil =>
    have hcases : k = 0 ∨ k = 1 ∨ k = 2 := by omega
    rcases hcases with rfl | rfl | rfl <;> rfl
  | cons n rest =>
    have hkept : (n :: rest).filter (fun n => n ≠ "" ∧ n ≠ ".") = n :: rest := by
      rw [List.filter_eq_self]
      intro m hm
      simp [(hnames m hm).1, (hnames m hm).2.1]
    have hback : ((n :: rest).map String.toList).map String.ofList = n :: rest := by simp
    have hdropped : (List.replicate k "").filter (fun n => n ≠ "" ∧ n ≠ ".") = [] := by simp
    have htext : text ⟨String.ofList (List.replicate k '/'), n :: rest⟩ =
        String.ofList (List.replicate k '/') ++ "/".intercalate (n :: rest) := by simp [text]
    rw [htext, ofText, toList_slashes, rootOf_slashes hk hnames, splitSlashes_slashes (by simp) hnames,
      List.map_append, hback, List.map_replicate, List.filter_append, hkept]
    rw [show String.ofList [] = "" from rfl, hdropped, List.nil_append]

theorem ofText_of_notMem {s : String} (h : '/' ∉ s.toList) (hne : s ≠ "" ∧ s ≠ ".") : ofText s = { parts := [s] } := by
  have hsplit : splitSlashes s.toList = [s.toList] := List.splitOn_eq_singleton h
  have hroot : rootOf s.toList = "" := by
    have htake : s.toList.takeWhile (· = '/') = [] := by
      cases hcs : s.toList with
      | nil => rfl
      | cons c cs =>
        have hc : c ≠ '/' := by
          rintro rfl
          exact h (hcs ▸ List.mem_cons_self)
        simp [hc]
    rw [rootOf, htake]
    rfl
  have hkept : [s].filter (fun n => n ≠ "" ∧ n ≠ ".") = [s] := by simp [hne]
  rw [ofText, hsplit, hroot, List.map_singleton, String.ofList_toList, hkept]

theorem text_ofText_ne_empty (s : String) : (ofText s).text ≠ "" := by
  intro h
  have hback := ofText_text_ofText s
  rw [h] at hback
  rw [← hback] at h
  exact absurd h (by decide)

/-! ## Names below a directory -/

/-- A text up to its last slash. -/
def folder (s : String) : String := String.ofList (s.toList.reverse.dropWhile (· ≠ '/')).reverse

/-- What follows the last slash of a text. -/
def leaf (s : String) : String := String.ofList (s.toList.reverse.takeWhile (· ≠ '/')).reverse

theorem folder_append_leaf (s : String) : folder s ++ leaf s = s := by
  rw [folder, leaf, ← String.ofList_append, ← List.reverse_append, List.takeWhile_append_dropWhile,
    List.reverse_reverse, String.ofList_toList]

theorem slash_notMem_leaf (s : String) : '/' ∉ (leaf s).toList := by
  rw [leaf, String.toList_ofList, List.mem_reverse]
  intro h
  have hne := List.all_eq_true.mp List.all_takeWhile _ h
  simp at hne

theorem folder_of_notMem {s : String} (h : '/' ∉ s.toList) : folder s = "" := by
  have hall : ∀ c ∈ s.toList.reverse, decide (c ≠ '/') = true := by
    intro c hc
    rw [decide_eq_true_eq]
    rintro rfl
    exact h (List.mem_reverse.mp hc)
  rw [folder, List.dropWhile_eq_nil_iff.mpr hall]
  rfl

theorem folder_eq (s : String) : folder s = "" ∨ ∃ cs, folder s = String.ofList (cs ++ ['/']) := by
  unfold folder
  cases hdrop : s.toList.reverse.dropWhile (· ≠ '/') with
  | nil => exact .inl rfl
  | cons c cs =>
    have hhead := List.head?_dropWhile_not (fun c => decide (c ≠ '/')) s.toList.reverse
    rw [hdrop] at hhead
    obtain rfl : c = '/' := by simpa using hhead
    exact .inr ⟨cs.reverse, by rw [List.reverse_cons]⟩

theorem rootOf_append (cs : List Char) {e : List Char} (he : '/' ∉ e) : rootOf (cs ++ e) = rootOf cs := by
  have htake : e.takeWhile (· = '/') = [] := by
    cases e with
    | nil => rfl
    | cons c e =>
      have hc : c ≠ '/' := fun hc => he (hc ▸ List.mem_cons_self)
      simp [hc]
  have hsame : (cs ++ e).takeWhile (· = '/') = cs.takeWhile (· = '/') := by
    rw [List.takeWhile_append, htake, List.append_nil]
    split
    · next hlength => exact (List.takeWhile_prefix _).eq_of_length hlength |>.symm
    · rfl
  rw [rootOf, rootOf, hsame]

theorem ofText_append (cs : List Char) {name : String} (h : Keeps name) :
    ofText (String.ofList (cs ++ ['/']) ++ name) = (ofText (String.ofList (cs ++ ['/']))).child name := by
  obtain ⟨hempty, hdot, hslash⟩ := h
  have htext : (String.ofList (cs ++ ['/']) ++ name).toList = cs ++ ['/'] ++ name.toList := by
    rw [String.toList_append, String.toList_ofList]
  have hsplit : splitSlashes (cs ++ ['/'] ++ name.toList) = splitSlashes cs ++ [name.toList] := by
    rw [List.append_assoc, splitSlashes, List.singleton_append, List.splitOn_append_cons_self,
      List.splitOn_eq_singleton hslash]
    rfl
  have hsplit' : splitSlashes (cs ++ ['/']) = splitSlashes cs ++ [[]] := by
    rw [splitSlashes, List.splitOn_append_cons_self, List.splitOn_nil]
    rfl
  have hkept : [name].filter (fun n => n ≠ "" ∧ n ≠ ".") = [name] := by simp [hempty, hdot]
  have hdropped : [String.ofList []].filter (fun n => n ≠ "" ∧ n ≠ ".") = [] := rfl
  rw [ofText, ofText, htext, rootOf_append _ hslash, hsplit, String.toList_ofList, hsplit', List.map_append,
    List.map_append, List.filter_append, List.filter_append, List.map_singleton, List.map_singleton,
    String.ofList_toList, hkept, hdropped, List.append_nil]
  rfl

theorem ofText_ending (s : String) {ending : String} (h : Keeps (leaf s ++ ending)) :
    ofText (s ++ ending) = (ofText (folder s)).child (leaf s ++ ending) := by
  have hs : s ++ ending = folder s ++ (leaf s ++ ending) := by rw [← String.append_assoc, folder_append_leaf]
  rcases folder_eq s with hempty | ⟨cs, hcs⟩
  · rw [hs, hempty, String.empty_append, ofText_of_notMem h.2.2 ⟨h.1, h.2.1⟩]
    rfl
  · rw [hs, hcs, ofText_append cs h]

theorem join_child (p q : Path) (name : String) : p.join (q.child name) = (p.join q).child name := by
  unfold join
  split
  · next habsolute => rw [if_pos (show q.isAbsolute from habsolute)]
  · next hrelative =>
    rw [if_neg (show ¬ q.isAbsolute from hrelative)]
    simp only [child, List.append_assoc]

theorem child_injective {p q : Path} {name name' : String} (h : p.child name = q.child name') :
    p = q ∧ name = name' := by
  obtain ⟨hroot, hparts⟩ := Path.mk.inj h
  obtain ⟨hparts, hname⟩ := List.append_inj' hparts rfl
  refine ⟨?_, List.singleton_inj.mp hname⟩
  cases p
  cases q
  exact congrArg₂ Path.mk hroot hparts

/-! ## Files right in a directory -/

/-- Whether a path leads to a file right in a directory. -/
def LiesIn (p directory : Path) : Prop :=
  ∃ name, Keeps name ∧ name ≠ ".." ∧ p.resolve = directory.resolve.child name

/-- Whether a text up to its last slash leads from a directory back to it. -/
def Returns (directory : Path) (s : String) : Prop := (directory.join (ofText (folder s))).resolve = directory.resolve

theorem liesIn_resolve_iff {p directory : Path} : p.resolve.LiesIn directory ↔ p.LiesIn directory := by
  rw [LiesIn, LiesIn, resolve_resolve]

theorem keeps_of_length {name : String} (hslash : '/' ∉ name.toList) (hlength : 2 < name.toList.length) :
    Keeps name ∧ name ≠ ".." := by
  have hne (other : String) (hshort : other.toList.length ≤ 2) : name ≠ other := by
    rintro rfl
    omega
  exact ⟨⟨hne "" (by decide), hne "." (by decide), hslash⟩, hne ".." (by decide)⟩

theorem liesIn_child (directory : Path) {name : String} (hslash : '/' ∉ name.toList)
    (hlength : 2 < name.toList.length) : (directory.child name).LiesIn directory := by
  obtain ⟨hkeeps, hdots⟩ := keeps_of_length hslash hlength
  exact ⟨name, hkeeps, hdots, directory.resolve_child hdots⟩

theorem returns_of_notMem (directory : Path) {s : String} (h : '/' ∉ s.toList) : directory.Returns s := by
  rw [Returns, folder_of_notMem h]
  simp [join, isAbsolute, ofText, rootOf, splitSlashes]

/-- A text with an ending leads to a file right in a directory just if its folder leads back to there. -/
theorem liesIn_ending_iff (directory : Path) (s : String) {ending : String} (hslash : '/' ∉ ending.toList)
    (hlength : 2 < ending.toList.length) :
    (directory.join (ofText (s ++ ending))).LiesIn directory ↔ directory.Returns s := by
  obtain ⟨hkeeps, hdots⟩ : Keeps (leaf s ++ ending) ∧ leaf s ++ ending ≠ ".." := by
    apply keeps_of_length
    · rw [String.toList_append, List.mem_append]
      exact not_or.mpr ⟨slash_notMem_leaf s, hslash⟩
    · rw [String.toList_append, List.length_append]
      omega
  have hresolve : (directory.join (ofText (s ++ ending))).resolve =
      (directory.join (ofText (folder s))).resolve.child (leaf s ++ ending) := by
    rw [ofText_ending s hkeeps, join_child, resolve_child _ hdots]
  constructor
  · rintro ⟨name, -, -, hname⟩
    exact (child_injective (hresolve.symm.trans hname)).1
  · intro hreturns
    exact ⟨_, hkeeps, hdots, hresolve.trans (congrArg (child · _) hreturns)⟩

end Path

end DocFetch

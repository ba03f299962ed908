/-! # Paths

A path is a root and the names below it. Empty names and single dots of the written form are dropped;
double dots stay until the path is resolved.
-/

namespace DocFetch

/-- `root` is empty for a relative path, and one slash, or exactly two, for an absolute one. -/
structure Path where
  root : String := ""
  parts : List String := []
deriving DecidableEq, Repr

namespace Path

def splitSlashes (cs : List Char) : List (List Char) := cs.splitOn '/'

def rootOf (cs : List Char) : String :=
  let slashes := (cs.takeWhile (· = '/')).length
  if slashes = 0 then "" else if slashes = 2 then "//" else "/"

def ofText (s : String) : Path :=
  let names := (splitSlashes s.toList).map String.ofList
  { root := rootOf s.toList, parts := names.filter fun n => n ≠ "" ∧ n ≠ "." }

def isAbsolute (p : Path) : Bool := p.root ≠ ""

def text (p : Path) : String :=
  if p.root = "" ∧ p.parts = [] then "." else p.root ++ "/".intercalate p.parts

/-- The path `q` seen from `p`; an absolute `q` stands for itself. -/
def join (p q : Path) : Path := if q.isAbsolute then q else { p with parts := p.parts ++ q.parts }

/-- The file or directory called `name` directly below. -/
def child (p : Path) (name : String) : Path := { p with parts := p.parts ++ [name] }

def parent (p : Path) : Path := { p with parts := p.parts.dropLast }

def name (p : Path) : String := p.parts.getLastD ""

/-- Steps through names, where a double dot goes back; `above` holds the names so far, the last first. -/
def follow (above : List String) : List String → List String
  | [] => above.reverse
  | n :: rest => if n = ".." then follow above.tail rest else follow (n :: above) rest

/-- The absolute path without double dots. -/
def resolve (p : Path) : Path := { root := "/", parts := follow [] p.parts }

/-- A path seen from the directory `base`, without double dots; an absolute path stands for itself. -/
def anchored (base p : Path) : Path := if p.isAbsolute then p else (base.join p).resolve

/-- Where the last dot of a name starts its suffix: not at either end. -/
def suffixLength (name : List Char) : Nat :=
  let tail := name.reverse.takeWhile (· ≠ '.')
  let before := name.length - tail.length
  if tail.isEmpty ∨ before ≤ 1 then 0 else tail.length + 1

/-- The last dot of the name and what follows it. -/
def suffix (p : Path) : String :=
  let cs := p.name.toList
  String.ofList (cs.drop (cs.length - suffixLength cs))

/-- The name without its suffix. -/
def stem (p : Path) : String :=
  let cs := p.name.toList
  String.ofList (cs.take (cs.length - suffixLength cs))

/-- Whether `q` lies below `p`, or is `p` itself. -/
def contains (p q : Path) : Bool := p.root = q.root && p.parts.isPrefixOf q.parts

private theorem exists_splitOn_append (cs : List Char) {e : List Char} (he : '/' ∉ e) :
    ∃ init last, (cs ++ e).splitOn '/' = init ++ [last ++ e] := by
  induction cs with
  | nil => exact ⟨[], [], by rw [List.nil_append, List.splitOn_eq_singleton he]; rfl⟩
  | cons c cs ih =>
    obtain ⟨init, last, h⟩ := ih
    rw [List.cons_append, List.splitOn_cons_eq_if_modifyHead, h]
    by_cases hc : (c == '/') = true
    · exact ⟨[] :: init, last, by rw [if_pos hc]; rfl⟩
    · rw [if_neg hc]
      cases init with
      | nil => exact ⟨[], c :: last, rfl⟩
      | cons first init => exact ⟨(c :: first) :: init, last, rfl⟩

theorem exists_parts_ofText (s : String) {e : List Char} (he : '/' ∉ e) (hlength : 2 ≤ e.length) :
    ∃ init last, (ofText (s ++ String.ofList e)).parts = init ++ [String.ofList (last ++ e)] := by
  obtain ⟨init, last, h⟩ := exists_splitOn_append s.toList he
  have hne (t : List Char) (ht : t.length ≤ 1) : String.ofList (last ++ e) ≠ String.ofList t := by
    intro heq
    have hlist : last ++ e = t := String.ofList_injective heq
    have hsum : last.length + e.length = t.length := by rw [← List.length_append, hlist]
    omega
  have hname : String.ofList (last ++ e) ≠ "" ∧ String.ofList (last ++ e) ≠ "." :=
    ⟨hne [] (Nat.zero_le 1), hne ['.'] (Nat.le_refl 1)⟩
  refine ⟨(init.map String.ofList).filter fun n => n ≠ "" ∧ n ≠ ".", last, ?_⟩
  have hsplit : splitSlashes (s ++ String.ofList e).toList = init ++ [last ++ e] := by
    rw [String.toList_append, String.toList_ofList]
    exact h
  simp only [ofText, hsplit, List.map_append, List.filter_append, List.map_cons, List.map_nil]
  rw [List.filter_cons_of_pos (by simpa only [decide_eq_true_eq] using hname), List.filter_nil]

theorem follow_append_singleton {n : String} (hn : n ≠ "..") (above init : List String) :
    follow above (init ++ [n]) = follow above init ++ [n] := by
  induction init generalizing above with
  | nil => simp [follow, hn]
  | cons m init ih =>
    rw [List.cons_append, follow, follow]
    split
    · exact ih above.tail
    · exact ih (m :: above)

theorem dots_notMem_follow {above : List String} (h : ".." ∉ above) (names : List String) :
    ".." ∉ follow above names := by
  induction names generalizing above with
  | nil => simpa [follow] using h
  | cons n rest ih =>
    rw [follow]
    split
    · exact ih fun hmem => h (List.mem_of_mem_tail hmem)
    · rename_i hn
      exact ih fun hmem => (List.mem_cons.mp hmem).elim (fun heq => hn heq.symm) h

theorem follow_of_notMem {names : List String} (h : ".." ∉ names) (above : List String) :
    follow above names = above.reverse ++ names := by
  induction names generalizing above with
  | nil => simp [follow]
  | cons n rest ih =>
    obtain ⟨hn, hrest⟩ := not_or.mp fun hmem => h (List.mem_cons.mpr hmem)
    rw [follow, if_neg (Ne.symm hn), ih hrest, List.reverse_cons, List.append_assoc, List.singleton_append]

theorem resolve_resolve (p : Path) : p.resolve.resolve = p.resolve := by
  have hparts : follow [] (follow [] p.parts) = follow [] p.parts :=
    follow_of_notMem (dots_notMem_follow List.not_mem_nil p.parts) []
  simp only [resolve, hparts]

theorem resolve_child (p : Path) {name : String} (hname : name ≠ "..") :
    (p.child name).resolve = p.resolve.child name := by
  rw [resolve, child, follow_append_singleton hname]
  rfl

theorem suffixLength_append {cs e : List Char} (hcs : cs ≠ []) (he : '.' ∉ e) (hlength : e ≠ []) :
    suffixLength (cs ++ '.' :: e) = e.length + 1 := by
  have htail : (cs ++ '.' :: e).reverse.takeWhile (· ≠ '.') = e.reverse := by
    rw [List.reverse_append, List.reverse_cons, List.append_assoc,
      List.takeWhile_append_of_pos fun c hc => by
        simpa using fun hdot : c = '.' => he (hdot ▸ List.mem_reverse.mp hc)]
    simp
  have hlong : 0 < cs.length := List.length_pos_iff.mpr hcs
  unfold suffixLength
  rw [htail]
  simp only [List.isEmpty_reverse, List.isEmpty_iff, List.length_append, List.length_cons, List.length_reverse]
  rw [if_neg]
  exact not_or.mpr ⟨hlength, by omega⟩

section Ending

variable (p : Path) {name : String} (hname : name ≠ "") {e : List Char} (he : '.' ∉ e) (hlength : e ≠ [])

private theorem toList_name_child (name : String) (e : List Char) :
    (p.child (name ++ String.ofList ('.' :: e))).name.toList = name.toList ++ '.' :: e := by
  simp [Path.name, child]

include hname he hlength

theorem suffix_child : (p.child (name ++ String.ofList ('.' :: e))).suffix = String.ofList ('.' :: e) := by
  rw [suffix, toList_name_child, suffixLength_append (by simpa using hname) he hlength]
  simp

theorem stem_child : (p.child (name ++ String.ofList ('.' :: e))).stem = name := by
  rw [stem, toList_name_child, suffixLength_append (by simpa using hname) he hlength]
  simp

end Ending

example : (ofText "//a/./b//").text = "//a/b" := by decide +kernel
example : (ofText "/a/../../b").resolve.text = "/b" := by decide +kernel
example : (ofText "x/.yaml").suffix = "" := by decide +kernel
example : (ofText "x/a.b.json").suffix = ".json" := by decide +kernel

end Path

end DocFetch

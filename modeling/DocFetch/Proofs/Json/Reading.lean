import DocFetch.Json.Reader
import DocFetch.Json.Writer
import Mathlib.Data.List.Basic

/-! # Reading what was written

Texts, and objects of texts with distinct names, are read back from their JSON text as they were, whatever follows
that text.
-/

namespace DocFetch

/-- Texts, and objects of such values under distinct names. -/
inductive Value.IsTexts : Value → Prop
  | text (s : String) : IsTexts (.text s)
  | object {fields : List (String × Value)} : (fields.map Prod.fst).Nodup → (∀ e ∈ fields, IsTexts e.2) →
      IsTexts (.object fields)

namespace Json

/-! ## Texts -/

theorem hexNumber?_hexFixed {n : Nat} (h : n < 32) : Text.hexNumber? (Text.hexFixed 4 n) = some n := by
  have hall : ∀ m < 32, Text.hexNumber? (Text.hexFixed 4 m) = some m := by decide +kernel
  exact hall n h

theorem readString_escapeChar (acc : List Char) (c : Char) (rest : List Char) :
    readString acc none (escapeChar c ++ rest) = readString (c :: acc) none rest := by
  have hsimple {d : Char} (hd : simpleEscape? d = some c) (hu : d ≠ 'u') :
      readString acc none ('\\' :: d :: rest) = readString (c :: acc) none rest := by
    rw [readString, hd]
    · rfl
    · exact fun _ _ _ _ _ heq => absurd heq hu
  unfold escapeChar
  -- Quote, backslash, line feed, return and tab stand for themselves in the list of escapes.
  iterate 5
    split
    · rename_i hc
      subst hc
      exact hsimple rfl (by decide)
  split
  · rename_i hc
    have hback : '\x08' = c := Char.ext (UInt32.toNat_inj.mp hc.symm)
    exact hsimple (congrArg some hback) (by decide)
  split
  · rename_i hc
    have hfeed : '\x0c' = c := Char.ext (UInt32.toNat_inj.mp hc.symm)
    exact hsimple (congrArg some hfeed) (by decide)
  split
  · rename_i hlow
    have hunit : pushUnit acc none c.toNat = (c :: acc, none) := by
      have hhigh : isHighSurrogate c.toNat = false := by simp [isHighSurrogate]; omega
      have hsecond : isLowSurrogate c.toNat = false := by simp [isLowSurrogate]; omega
      simp [pushUnit, hhigh, hsecond]
    obtain ⟨a, b, d, e, hdigits⟩ : ∃ a b d e, Text.hexFixed 4 c.toNat = [a, b, d, e] := ⟨_, _, _, _, rfl⟩
    have hnumber := hexNumber?_hexFixed hlow
    rw [hdigits] at hnumber ⊢
    change readString acc none ('\\' :: 'u' :: a :: b :: d :: e :: rest) = _
    rw [readString, hnumber]
    dsimp only
    rw [hunit]
  · rename_i hquote hslash _ _ _ _ _ hlow
    rw [List.singleton_append, readString, if_neg hquote, if_neg hlow, if_neg hslash]
    · rfl
    · exact fun _ _ _ _ _ heq => absurd heq hslash
    · exact fun _ _ heq => absurd heq hslash

theorem readString_append (s : List Char) (acc rest : List Char) :
    readString acc none (s.flatMap escapeChar ++ '"' :: rest) = some (String.ofList (acc.reverse ++ s), rest) := by
  induction s generalizing acc with
  | nil => simp [readString, settle]
  | cons c cs ih =>
    rw [List.flatMap_cons, List.append_assoc, readString_escapeChar, ih]
    simp

/-! ## Values -/

theorem toList_writeString (s : String) : (writeString s).toList = '"' :: (s.toList.flatMap escapeChar ++ ['"']) :=
  String.toList_ofList ..

theorem readString_writeString (s : String) (rest : List Char) :
    readString [] none (s.toList.flatMap escapeChar ++ ['"'] ++ rest) = some (s, rest) := by
  rw [List.append_assoc, List.singleton_append, readString_append, List.reverse_nil, List.nil_append,
    String.ofList_toList]

/-- The entries of an object. -/
def entriesOf (fields : List (String × Value)) : List (Value × Value) := fields.map fun e => (.text e.1, e.2)

theorem sameKey_text (a b : String) : Value.sameKey (.text a) (.text b) = (a == b) := rfl

theorem putEntry_entriesOf {fields : List (String × Value)} {k : String} (h : k ∉ fields.map Prod.fst) (v : Value) :
    Value.putEntry (.text k) v (entriesOf fields) = entriesOf (fields ++ [(k, v)]) := by
  induction fields with
  | nil => rfl
  | cons e rest ih =>
    rw [List.map_cons, List.mem_cons, not_or] at h
    have hkey : (e.1 == k) = false := by simpa using Ne.symm h.1
    change (if Value.sameKey (.text e.1) (.text k) then _ else _) = _
    rw [sameKey_text, hkey, if_neg Bool.false_ne_true]
    exact congrArg _ (ih h.2)

/-- One member of an object. -/
def memberChars (e : String × Value) : List Char := (writeString e.1).toList ++ ": ".toList ++ (write e.2).toList

theorem toList_write_object (fields : List (String × Value)) :
    (write (.object fields)).toList = '\x7b' :: (", ".toList.intercalate (fields.map memberChars) ++ ['\x7d']) := by
  have hmembers : writeMembers (entriesOf fields) =
      fields.map fun e => writeString e.1 ++ ": " ++ write e.2 := by
    induction fields with
    | nil => rfl
    | cons e rest ih => exact congrArg _ ih
  change ("\x7b" ++ ", ".intercalate (writeMembers (entriesOf fields)) ++ "\x7d").toList = _
  have hchars : memberChars = String.toList ∘ fun e => writeString e.1 ++ ": " ++ write e.2 := by
    funext e
    rw [memberChars, Function.comp_apply, String.toList_append, String.toList_append]
  rw [hmembers, String.toList_append, String.toList_append, String.toList_intercalate, List.map_map, ← hchars]
  rfl

theorem skipBlanks_cons {c : Char} (h : isBlank c = false) (cs : List Char) : skipBlanks (c :: cs) = c :: cs :=
  List.dropWhile_cons_of_neg (by simp [h])

theorem skipBlanks_blank (cs : List Char) : skipBlanks (' ' :: cs) = skipBlanks cs := rfl

theorem skipBlanks_write {v : Value} (h : v.IsTexts) (rest : List Char) :
    skipBlanks ((write v).toList ++ rest) = (write v).toList ++ rest := by
  cases h with
  | text s =>
    change skipBlanks ((writeString s).toList ++ rest) = (writeString s).toList ++ rest
    rw [toList_writeString, List.cons_append]
    exact skipBlanks_cons (by decide) _
  | object _ _ =>
    rw [toList_write_object, List.cons_append]
    exact skipBlanks_cons (by decide) _

/-- What is read after a member: more of them, or the end. -/
def afterMember (fuel : Nat) (members : List (Value × Value)) (cs : List Char) :
    Option (List (Value × Value) × List Char) :=
  match skipBlanks cs with
  | ',' :: rest => readMembers fuel members (skipBlanks rest)
  | '\x7d' :: rest => some (members, rest)
  | _ => none

theorem readMembers_memberChars {e : String × Value} {fuel : Nat} {rest : List Char} (he : e.2.IsTexts)
    (hvalue : readValue fuel ((write e.2).toList ++ rest) = some (e.2, rest)) (acc : List (Value × Value)) :
    readMembers (fuel + 1) acc (memberChars e ++ rest) =
      afterMember fuel (Value.putEntry (.text e.1) e.2 acc) rest := by
  have hchars : memberChars e ++ rest =
      '"' :: (e.1.toList.flatMap escapeChar ++ ['"'] ++ (':' :: ' ' :: ((write e.2).toList ++ rest))) := by
    rw [memberChars, toList_writeString]
    simp
  have hcolon (cs : List Char) : skipBlanks (':' :: cs) = ':' :: cs := skipBlanks_cons (by decide) cs
  rw [hchars, readMembers, readString_writeString]
  simp only [hcolon, skipBlanks_blank, skipBlanks_write he, hvalue]
  rfl

theorem exists_members_eq_cons {fields : List (String × Value)} (hne : fields ≠ []) :
    ∃ cs, ", ".toList.intercalate (fields.map memberChars) = '"' :: cs := by
  obtain ⟨e, es, rfl⟩ := List.exists_cons_of_ne_nil hne
  have hmember : memberChars e = '"' :: (memberChars e).tail := by
    rw [memberChars, toList_writeString]
    rfl
  cases es with
  | nil =>
    rw [List.map_singleton, List.intercalate_singleton]
    exact ⟨_, hmember⟩
  | cons e' es =>
    rw [List.map_cons, List.map_cons, List.intercalate_cons_cons, hmember]
    exact ⟨_, rfl⟩

theorem skipBlanks_members {fields : List (String × Value)} (hne : fields ≠ []) (rest : List Char) :
    skipBlanks (", ".toList.intercalate (fields.map memberChars) ++ rest) =
      ", ".toList.intercalate (fields.map memberChars) ++ rest := by
  obtain ⟨cs, hcs⟩ := exists_members_eq_cons hne
  rw [hcs, List.cons_append]
  exact skipBlanks_cons (by decide) _

theorem length_memberChars (e : String × Value) : (write e.2).toList.length + 4 ≤ (memberChars e).length := by
  have hcolon : ": ".toList.length = 2 := rfl
  rw [memberChars, toList_writeString]
  simp only [List.length_append, List.length_cons]
  omega

/-- The members of an object are read one after the other, each with its value; `l` was read before. -/
theorem readMembers_intercalate {fields l : List (String × Value)} {fuel : Nat} {rest : List Char}
    (hne : fields ≠ []) (hnames : ((l ++ fields).map Prod.fst).Nodup) (htexts : ∀ e ∈ fields, e.2.IsTexts)
    (hvalue : ∀ e ∈ fields, ∀ n, (write e.2).toList.length ≤ n → ∀ rest,
      readValue n ((write e.2).toList ++ rest) = some (e.2, rest))
    (hfuel : (", ".toList.intercalate (fields.map memberChars)).length ≤ fuel) :
    readMembers fuel (entriesOf l) (", ".toList.intercalate (fields.map memberChars) ++ '\x7d' :: rest) =
      some (entriesOf (l ++ fields), rest) := by
  induction fields generalizing l fuel with
  | nil => exact absurd rfl hne
  | cons e es ih =>
    have hlength := length_memberChars e
    rw [List.forall_mem_cons] at htexts hvalue
    have hput : Value.putEntry (.text e.1) e.2 (entriesOf l) = entriesOf (l ++ [e]) := by
      refine putEntry_entriesOf (fun hmem => ?_) e.2
      rw [List.map_append, List.nodup_append] at hnames
      exact hnames.2.2 _ hmem _ List.mem_cons_self rfl
    cases es with
    | nil =>
      rw [List.map_singleton, List.intercalate_singleton] at hfuel ⊢
      obtain ⟨n, rfl⟩ : ∃ n, fuel = n + 1 := ⟨fuel - 1, by omega⟩
      rw [readMembers_memberChars htexts.1 (hvalue.1 n (by omega) _), afterMember, skipBlanks_cons (by decide), hput]
      rfl
    | cons e' es =>
      rw [List.map_cons, List.map_cons, List.intercalate_cons_cons, ← List.map_cons (f := memberChars)] at hfuel ⊢
      rw [List.length_append, List.length_append] at hfuel
      obtain ⟨n, rfl⟩ : ∃ n, fuel = n + 1 := ⟨fuel - 1, by omega⟩
      rw [List.append_assoc, List.append_assoc, readMembers_memberChars htexts.1 (hvalue.1 n (by omega) _)]
      have hsep (cs : List Char) : ", ".toList ++ cs = ',' :: ' ' :: cs := rfl
      have hnames' : ((l ++ [e] ++ e' :: es).map Prod.fst).Nodup := by
        rwa [List.append_assoc, List.singleton_append]
      rw [hsep, afterMember, skipBlanks_cons (by decide)]
      change readMembers n _ (skipBlanks (' ' :: _)) = _
      rw [skipBlanks_blank, skipBlanks_members (List.cons_ne_nil e' es), hput,
        ih (List.cons_ne_nil e' es) hnames' htexts.2 hvalue.2 (by omega), List.append_assoc, List.singleton_append]

/-- A text, or an object of texts, is read back from its JSON text, whatever follows. -/
theorem readValue_write {v : Value} (h : v.IsTexts) :
    ∀ n, (write v).toList.length ≤ n → ∀ rest, readValue n ((write v).toList ++ rest) = some (v, rest) := by
  induction h with
  | text s =>
    intro n hn rest
    change (writeString s).toList.length ≤ n at hn
    change readValue n ((writeString s).toList ++ rest) = _
    rw [toList_writeString, List.length_cons] at hn
    obtain ⟨n, rfl⟩ : ∃ m, n = m + 1 := ⟨n - 1, by omega⟩
    rw [toList_writeString, List.cons_append, readValue, readString_writeString, Option.map_some]
  | @object fields hnames htexts ih =>
    intro n hn rest
    rw [toList_write_object, List.length_cons] at hn
    obtain ⟨n, rfl⟩ : ∃ m, n = m + 1 := ⟨n - 1, by omega⟩
    rw [toList_write_object, List.cons_append, readValue, List.append_assoc, List.singleton_append]
    cases fields with
    | nil => rfl
    | cons e es =>
      rw [List.length_append] at hn
      have hread : readMembers n [] (", ".toList.intercalate ((e :: es).map memberChars) ++ '\x7d' :: rest) =
          some (entriesOf (e :: es), rest) :=
        readMembers_intercalate (l := []) (List.cons_ne_nil e es) hnames htexts ih
          (Nat.le_trans (Nat.le_add_right _ _) (Nat.le_of_succ_le_succ hn))
      obtain ⟨cs, hcs⟩ := exists_members_eq_cons (List.cons_ne_nil e es)
      rw [skipBlanks_members (List.cons_ne_nil e es)]
      rw [hcs, List.cons_append] at hread ⊢
      change (readMembers n [] ('"' :: (cs ++ '\x7d' :: rest))).map _ = _
      rw [hread]
      rfl

theorem read?_write {v : Value} (h : v.IsTexts) : read? (write v) = some v := by
  have hblanks := skipBlanks_write h []
  have hread := readValue_write h ((write v).toList.length + 1) (Nat.le_succ _) []
  rw [List.append_nil] at hblanks hread
  unfold read?
  dsimp only
  rw [hblanks, hread]
  rfl

end Json

end DocFetch

import DocFetch.Json.Writer
import Mathlib.Data.List.Basic

/-! # JSON texts are lines

Characters below the blank are escaped inside of texts and stand nowhere else, so that a JSON text never has a
line feed in it.
-/

namespace DocFetch

/-- Whether no character comes before the blank. -/
def Text.NoControl (cs : List Char) : Prop := ∀ c ∈ cs, 32 ≤ c.toNat

instance (cs : List Char) : Decidable (Text.NoControl cs) :=
  decidable_of_iff (cs.all fun c => 32 ≤ c.toNat) (by simp [Text.NoControl])

namespace Text.NoControl

variable {cs ds : List Char}

theorem append (h : NoControl cs) (h' : NoControl ds) : NoControl (cs ++ ds) :=
  List.forall_mem_append.mpr ⟨h, h'⟩

theorem cons {c : Char} (hc : 32 ≤ c.toNat) (h : NoControl cs) : NoControl (c :: cs) :=
  List.forall_mem_cons.mpr ⟨hc, h⟩

theorem of_subset (h : NoControl cs) (hsub : ds ⊆ cs) : NoControl ds := fun c hc => h c (hsub hc)

theorem replicate (n : Nat) {c : Char} (hc : 32 ≤ c.toNat) : NoControl (List.replicate n c) := by
  intro d hd
  rwa [(List.mem_replicate.mp hd).2]

theorem toDigits (n : Nat) : NoControl (Nat.toDigits 10 n) := by
  intro c hc
  have hdigit := Nat.isDigit_of_mem_toDigits (by decide) (by decide) hc
  exact Nat.le_trans (by decide) (Char.isDigit_iff_toNat.mp hdigit).1

theorem hexFixed (width n : Nat) : NoControl (Text.hexFixed width n) := by
  have hdigit : ∀ m < 16, 32 ≤ (Text.hexDigit m).toNat := by decide
  intro c hc
  obtain ⟨i, -, rfl⟩ := List.mem_map.mp hc
  exact hdigit _ (Nat.mod_lt _ (by decide))

theorem intercalate {sep : List Char} (hsep : NoControl sep) {l : List (List Char)}
    (h : ∀ cs ∈ l, NoControl cs) : NoControl (sep.intercalate l) := by
  induction l with
  | nil => exact fun c hc => absurd hc List.not_mem_nil
  | cons cs rest ih =>
    rw [List.forall_mem_cons] at h
    cases rest with
    | nil => simpa using h.1
    | cons ds rest =>
      rw [List.intercalate_cons_cons]
      exact (h.1.append hsep).append (ih h.2)

theorem newline_notMem (h : NoControl cs) : '\n' ∉ cs := fun hmem => absurd (h _ hmem) (by decide)

theorem return_notMem (h : NoControl cs) : '\r' ∉ cs := fun hmem => absurd (h _ hmem) (by decide)

end Text.NoControl

open Text

namespace Binary64

theorem noControl_writeDecimal (style : DecimalStyle) (n : Nat) (e : Int) :
    NoControl (writeDecimal style n e) := by
  have hdigits (m : Nat) : NoControl (Nat.toDigits 10 m) := .toDigits m
  have hzeros (m : Nat) : NoControl (List.replicate m '0') := .replicate m (by decide)
  have hend : NoControl ['.', '0'] := by decide
  have htail (m k : Nat) : NoControl ((Nat.toDigits 10 m).drop k) := (hdigits m).of_subset (List.drop_subset _ _)
  have hhead (m k : Nat) : NoControl ((Nat.toDigits 10 m).take k) := (hdigits m).of_subset (List.take_subset _ _)
  unfold writeDecimal
  dsimp only
  split
  · decide
  split
  · split
    · exact .cons (by decide) (.cons (by decide) ((hzeros _).append (hdigits _)))
    split
    · exact ((hdigits _).append (hzeros _)).append hend
    · exact (hhead _ _).append (.cons (by decide) (htail _ _))
  · refine ((hhead _ _).append ?_).append (.cons (by decide) (.cons ?_ ?_))
    · split
      · exact .cons (by decide) (htail _ _)
      split
      · exact hend
      · exact fun c hc => absurd hc List.not_mem_nil
    · split <;> decide
    · split
      · exact .cons (by decide) (hdigits _)
      · exact hdigits _

theorem noControl_text (x : Binary64) : NoControl x.text.toList := by
  cases x with
  | nan => decide
  | infinite negative => cases negative <;> decide
  | finite negative m e =>
    have hbody := noControl_writeDecimal {} (shortest m e).1 (shortest m e).2
    cases negative with
    | true => exact (String.toList_ofList ..).symm ▸ hbody.cons (by decide)
    | false => exact (String.toList_ofList ..).symm ▸ hbody

end Binary64

namespace Json

theorem noControl_escapeChar (c : Char) : NoControl (escapeChar c) := by
  unfold escapeChar
  repeat' split
  -- Characters with an escape of their own, those with a hexadecimal one, and all others as they are.
  any_goals decide
  · exact .cons (by decide) (.cons (by decide) (.hexFixed 4 _))
  · rename_i hlow
    exact .cons (Nat.not_lt.mp hlow) fun d hd => absurd hd List.not_mem_nil

theorem noControl_writeString (s : String) : NoControl (writeString s).toList := by
  have hbody : NoControl (s.toList.flatMap escapeChar) := by
    intro c hc
    obtain ⟨d, -, hd⟩ := List.mem_flatMap.mp hc
    exact noControl_escapeChar d c hd
  have hquote : NoControl ['"'] := by decide
  rw [writeString, String.toList_ofList, stringChars]
  exact (hbody.cons (by decide)).append hquote

theorem noControl_writeFloat (x : Binary64) : NoControl (writeFloat x).toList := by
  cases x with
  | nan => decide
  | infinite negative => cases negative <;> decide
  | finite negative m e => exact Binary64.noControl_text _

theorem noControl_toString (n : Int) : NoControl (toString n).toList := by
  have hnat (m : Nat) : NoControl (toString m).toList := by
    rw [Nat.toString_eq_ofList_toDigits, String.toList_ofList]
    exact .toDigits m
  cases n with
  | ofNat m => exact hnat m
  | negSucc m =>
    change NoControl ("-" ++ toString (m + 1)).toList
    rw [String.toList_append]
    exact (hnat _).cons (by decide)

theorem noControl_intercalate {ss : List String} (h : ∀ s ∈ ss, NoControl s.toList) :
    NoControl (", ".intercalate ss).toList := by
  have hsep : NoControl ", ".toList := by decide
  rw [String.toList_intercalate]
  exact hsep.intercalate (List.forall_mem_map.mpr h)

theorem noControl_between {s : String} {a b : String} (ha : NoControl a.toList) (hb : NoControl b.toList)
    (h : NoControl s.toList) : NoControl (a ++ s ++ b).toList := by
  rw [String.toList_append, String.toList_append]
  exact (ha.append h).append hb

mutual

/-- A JSON text has no control characters, whatever it stands for. -/
theorem noControl_write : (v : Value) → NoControl (write v).toList
  | .null => by decide
  | .bool true => by decide
  | .bool false => by decide
  | .int n => noControl_toString n
  | .float x => noControl_writeFloat x
  | .text s => noControl_writeString s
  | .bytes _ => noControl_writeString _
  | .date _ => noControl_writeString _
  | .moment _ => noControl_writeString _
  | .list items =>
    noControl_between (by decide) (by decide)
      (noControl_intercalate (noControl_writeItems items))
  | .map entries =>
    noControl_between (by decide) (by decide)
      (noControl_intercalate (noControl_writeMembers entries))

theorem noControl_writeItems : (items : List Value) → ∀ s ∈ writeItems items, NoControl s.toList
  | [] => fun _ hs => absurd hs List.not_mem_nil
  | v :: rest => List.forall_mem_cons.mpr ⟨noControl_write v, noControl_writeItems rest⟩

theorem noControl_writeMembers : (entries : List (Value × Value)) →
    ∀ s ∈ writeMembers entries, NoControl s.toList
  | [] => fun _ hs => absurd hs List.not_mem_nil
  | (k, v) :: rest => by
    refine List.forall_mem_cons.mpr ⟨?_, noControl_writeMembers rest⟩
    have hcolon : NoControl ": ".toList := by decide
    rw [String.toList_append, String.toList_append]
    exact ((noControl_writeString _).append hcolon).append (noControl_write v)

end

theorem noControl_escapeUnits (c : Char) : NoControl (escapeUnits c) := by
  have hunit (n : Nat) : NoControl ('\\' :: 'u' :: Text.hexFixed 4 n) :=
    .cons (by decide) (.cons (by decide) (.hexFixed 4 n))
  unfold escapeUnits
  split
  · rename_i hprintable
    exact .cons hprintable.1 fun d hd => absurd hd List.not_mem_nil
  split
  · exact hunit _
  · exact (hunit _).append (hunit _)

theorem noControl_writeAscii (v : Value) : NoControl (writeAscii v).toList := by
  rw [writeAscii, String.toList_ofList]
  intro c hc
  obtain ⟨d, -, hd⟩ := List.mem_flatMap.mp hc
  exact noControl_escapeUnits d c hd

end Json

end DocFetch

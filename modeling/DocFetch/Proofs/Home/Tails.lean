import DocFetch.Home.Basic
import DocFetch.Proofs.Files.Contents
import DocFetch.Proofs.Json.Writing

/-! # The last lines of a log

The lines of a file are those of the text that is left of its bytes where bytes that are no text are passed over. For
a positive number the tail of a log is its last lines up to this number, and for zero it is all of them.
-/

namespace DocFetch

namespace Text

/-! ## Bytes that are no text -/

/-- What is left of bytes when each byte at which no encoded character starts is passed over. -/
inductive Lossy : List UInt8 → List Char → Prop
  | done : Lossy [] []
  | char {bytes : List UInt8} {cs : List Char} (c : Char) (h : Lossy bytes cs) :
      Lossy (String.utf8EncodeChar c ++ bytes) (c :: cs)
  | stray {b : UInt8} {bytes : List UInt8} {cs : List Char} (hb : ∀ c, ¬ String.utf8EncodeChar c <+: b :: bytes)
      (h : Lossy bytes cs) : Lossy (b :: bytes) cs

theorem exists_lossy (bytes : List UInt8) : ∃ cs, Lossy bytes cs := by
  induction hn : bytes.length using Nat.strongRecOn generalizing bytes with
  | ind n ih =>
    subst hn
    cases bytes with
    | nil => exact ⟨[], .done⟩
    | cons b bytes =>
      by_cases hc : ∃ c, String.utf8EncodeChar c <+: b :: bytes
      · obtain ⟨c, rest, hrest⟩ := hc
        have hshort : rest.length < (b :: bytes).length := by
          have hsize := c.utf8Size_pos
          rw [← hrest, List.length_append, String.length_utf8EncodeChar]
          omega
        obtain ⟨cs, hcs⟩ := ih _ hshort rest rfl
        exact ⟨c :: cs, hrest ▸ .char c hcs⟩
      · obtain ⟨cs, hcs⟩ := ih _ (Nat.lt_add_one _) bytes rfl
        exact ⟨cs, .stray (not_exists.mp hc) hcs⟩

theorem utf8DecodeChar?_eq_some_iff {b : ByteArray} {i : Nat} {c : Char} :
    b.utf8DecodeChar? i = some c ↔ String.utf8EncodeChar c <+: b.data.toList.drop i := by
  have hdrop : (b.extract i b.size).data.toList = b.data.toList.drop i := by
    rw [ByteArray.data_extract, Array.toList_extract, List.extract_eq_take_drop]
    exact List.take_of_length_le (by simp)
  rw [ByteArray.utf8DecodeChar?_eq_utf8DecodeChar?_extract, ← hdrop]
  generalize b.extract i b.size = b
  constructor
  · intro h
    rw [ByteArray.eq_of_utf8DecodeChar?_eq_some h]
    simp
  · rintro ⟨rest, hrest⟩
    have heq : b = (String.utf8EncodeChar c).toByteArray ++ rest.toByteArray := by
      apply ByteArray.ext
      apply Array.toList_inj.mp
      simp [← hrest]
    rw [heq]
    exact ByteArray.utf8DecodeChar?_utf8EncodeChar_append

theorem decodeLenient_of_lossy {bytes : List UInt8} {cs : List Char} (h : Lossy bytes cs) {b : ByteArray} {i : Nat}
    (hbytes : b.data.toList.drop i = bytes) {fuel : Nat} (hfuel : bytes.length ≤ fuel) (acc : List Char) :
    decodeLenient b (fuel + 1) i acc = acc.reverse ++ cs := by
  have hsize : b.data.toList.length = b.size := rfl
  have hlength := congrArg List.length hbytes
  rw [List.length_drop] at hlength
  induction h generalizing i fuel acc with
  | done =>
    rw [List.length_nil] at hlength
    rw [decodeLenient, if_neg (by omega), List.append_nil]
  | @char bytes cs c h ih =>
    have hdecode : b.utf8DecodeChar? i = some c := utf8DecodeChar?_eq_some_iff.mpr ⟨bytes, hbytes.symm⟩
    have hrest : b.data.toList.drop (i + c.utf8Size) = bytes := by
      rw [← List.drop_drop, hbytes, ← String.length_utf8EncodeChar, List.drop_left]
    have hpos := c.utf8Size_pos
    rw [List.length_append, String.length_utf8EncodeChar] at hlength hfuel
    obtain ⟨fuel, rfl⟩ : ∃ k, fuel = k + 1 := ⟨fuel - 1, by omega⟩
    rw [decodeLenient, if_pos (by omega), hdecode]
    dsimp only
    rw [ih hrest (by omega) _ (by omega), List.reverse_cons, List.append_assoc, List.singleton_append]
  | @stray x bytes cs hb h ih =>
    have hdecode : b.utf8DecodeChar? i = none := by
      rw [Option.eq_none_iff_forall_ne_some]
      intro c hc
      exact hb c (hbytes ▸ utf8DecodeChar?_eq_some_iff.mp hc)
    have hrest : b.data.toList.drop (i + 1) = bytes := by
      rw [← List.drop_drop, hbytes, List.drop_one, List.tail_cons]
    rw [List.length_cons] at hlength hfuel
    obtain ⟨fuel, rfl⟩ : ∃ k, fuel = k + 1 := ⟨fuel - 1, by omega⟩
    rw [decodeLenient, if_pos (by omega), hdecode]
    exact ih hrest (by omega) acc (by omega)

/-- Lenient decoding gives what is left of the bytes, and nothing else is left of them. -/
theorem lossy_iff {b : ByteArray} {cs : List Char} : Lossy b.data.toList cs ↔ (decodeUtf8Lenient b).toList = cs := by
  have hdecode {cs : List Char} (h : Lossy b.data.toList cs) : (decodeUtf8Lenient b).toList = cs := by
    rw [decodeUtf8Lenient, String.toList_ofList]
    exact decodeLenient_of_lossy h rfl (Nat.le_refl _) []
  constructor
  · exact hdecode
  · rintro rfl
    obtain ⟨cs, hcs⟩ := exists_lossy b.data.toList
    exact hdecode hcs ▸ hcs

theorem decodeUtf8Lenient_encodeUtf8 (s : String) : decodeUtf8Lenient (encodeUtf8 s) = s := by
  have hlossy (cs : List Char) : Lossy (cs.flatMap String.utf8EncodeChar) cs := by
    induction cs with
    | nil => exact .done
    | cons c cs ih => exact .char c ih
  have hbytes : (encodeUtf8 s).data.toList = s.toList.flatMap String.utf8EncodeChar := by
    rw [encodeUtf8, String.toUTF8, ← s.utf8Encode_toList, List.utf8Encode]
    simp
  rw [← String.toList_inj]
  exact lossy_iff.mp (hbytes ▸ hlossy s.toList)

/-! ## Lines with their ends -/

/-- A text without line feeds and carriage returns. -/
def Unbroken (cs : List Char) : Prop := '\n' ∉ cs ∧ '\r' ∉ cs

/-- What ends a line before the rest of a text; a carriage return goes with a line feed after it. -/
inductive EndsLine : List Char → List Char → Prop
  | feed (rest : List Char) : EndsLine ['\n'] rest
  | both (rest : List Char) : EndsLine ['\r', '\n'] rest
  | alone {rest : List Char} (h : rest.head? ≠ some '\n') : EndsLine ['\r'] rest

/-- The lines of a text, where each end is a line feed; only the last line may have no end. -/
inductive Lined : List Char → List (List Char) → Prop
  | none : Lined [] []
  | last {line : List Char} (h : Unbroken line) (hne : line ≠ []) : Lined line [line]
  | ended {line e text : List Char} {lines : List (List Char)} (h : Unbroken line) (he : EndsLine e text)
      (hrest : Lined text lines) : Lined (line ++ (e ++ text)) ((line ++ ['\n']) :: lines)

theorem Unbroken.append {cs ds : List Char} (h : Unbroken cs) (h' : Unbroken ds) : Unbroken (cs ++ ds) :=
  ⟨by simp [h.1, h'.1], by simp [h.2, h'.2]⟩

theorem unbroken_nil : Unbroken [] := ⟨List.not_mem_nil, List.not_mem_nil⟩

theorem exists_lined (text : List Char) {line : List Char} (h : Unbroken line) : ∃ lines, Lined (line ++ text) lines := by
  fun_induction unifyNewlines text generalizing line with
  | case1 =>
    rw [List.append_nil]
    by_cases hne : line = []
    · exact ⟨[], hne ▸ .none⟩
    · exact ⟨[line], .last h hne⟩
  | case2 rest ih =>
    obtain ⟨lines, hlines⟩ := ih unbroken_nil
    exact ⟨_, .ended h (.both rest) hlines⟩
  | case3 c rest hnext ih =>
    by_cases hfeed : c = '\n'
    · subst hfeed
      obtain ⟨lines, hlines⟩ := ih unbroken_nil
      exact ⟨_, .ended h (.feed rest) hlines⟩
    by_cases hreturn : c = '\r'
    · subst hreturn
      have hhead : rest.head? ≠ some '\n' := by
        intro hhead
        obtain ⟨after, rfl⟩ := List.head?_eq_some_iff.mp hhead
        exact hnext after rfl rfl
      obtain ⟨lines, hlines⟩ := ih unbroken_nil
      exact ⟨_, .ended h (.alone hhead) hlines⟩
    · have hc : Unbroken [c] := ⟨by simpa using Ne.symm hfeed, by simpa using Ne.symm hreturn⟩
      obtain ⟨lines, hlines⟩ := ih (h.append hc)
      exact ⟨lines, by rwa [List.append_assoc] at hlines⟩

theorem unifyNewlines_append {line : List Char} (h : '\r' ∉ line) (cs : List Char) :
    unifyNewlines (line ++ cs) = line ++ unifyNewlines cs := by
  induction line with
  | nil => rfl
  | cons c line ih =>
    obtain ⟨hc, hline⟩ := not_or.mp fun hmem => h (List.mem_cons.mpr hmem)
    rw [List.cons_append, unifyNewlines, ih hline, if_neg (Ne.symm hc), List.cons_append]
    exact fun _ heq => absurd heq.symm hc

theorem unifyNewlines_end {e text : List Char} (h : EndsLine e text) :
    unifyNewlines (e ++ text) = '\n' :: unifyNewlines text := by
  cases h with
  | feed =>
    rw [List.singleton_append, unifyNewlines]
    · rfl
    · exact fun _ heq => absurd heq (by decide)
  | both => rfl
  | alone h =>
    rw [List.singleton_append, unifyNewlines]
    · rfl
    · rintro after - rfl
      exact h rfl

theorem linesFrom_append {line : List Char} (h : '\n' ∉ line) (before cs : List Char) :
    linesFrom before (line ++ cs) = linesFrom (line.reverse ++ before) cs := by
  induction line generalizing before with
  | nil => rfl
  | cons c line ih =>
    obtain ⟨hc, hline⟩ := not_or.mp fun hmem => h (List.mem_cons.mpr hmem)
    rw [List.cons_append, linesFrom, if_neg (Ne.symm hc), ih hline, List.reverse_cons, List.append_assoc,
      List.singleton_append]

theorem linesFrom_of_lined {text : List Char} {lines : List (List Char)} (h : Lined text lines) :
    linesFrom [] (unifyNewlines text) = lines := by
  induction h with
  | none => rfl
  | @last line h hne =>
    have hunify := unifyNewlines_append h.2 []
    rw [List.append_nil, unifyNewlines, List.append_nil] at hunify
    have hlines := linesFrom_append h.1 [] []
    rw [List.append_nil, List.append_nil, linesFrom, if_neg (by simpa using hne), List.reverse_reverse] at hlines
    rw [hunify, hlines]
  | @ended line e text lines h he hrest ih =>
    rw [unifyNewlines_append h.2, unifyNewlines_end he, linesFrom_append h.1, List.append_nil, linesFrom, if_pos rfl, ih,
      List.reverse_cons, List.reverse_reverse]

/-- Reading the lines of a text gives its lines, and it has no others. -/
theorem lined_iff {s : String} {lines : List String} :
    Lined s.toList (lines.map String.toList) ↔ readLines s = lines := by
  have hread {cut : List (List Char)} (h : Lined s.toList cut) : readLines s = cut.map String.ofList := by
    rw [readLines, linesFrom_of_lined h]
  constructor
  · intro h
    rw [hread h, List.map_map]
    simp
  · rintro rfl
    obtain ⟨cut, hcut⟩ := exists_lined s.toList unbroken_nil
    rw [List.nil_append] at hcut
    rw [hread hcut, List.map_map]
    simpa using hcut

end Text

/-! ## The last lines -/

namespace Log

/-- The lines of a file. -/
def LinesOf (content : ByteArray) (lines : List String) : Prop :=
  ∃ text, Text.Lossy content.data.toList text ∧ Text.Lined text (lines.map String.toList)

theorem linesOf_iff {content : ByteArray} {lines : List String} :
    LinesOf content lines ↔ Text.readLines (Text.decodeUtf8Lenient content) = lines := by
  rw [← Text.lined_iff]
  constructor
  · rintro ⟨text, htext, hlines⟩
    rwa [Text.lossy_iff.mp htext]
  · exact fun h => ⟨_, Text.lossy_iff.mpr rfl, h⟩

section TakeLast

variable {α : Type} (lines : List α)

theorem takeLast_suffix (count : Int) : takeLast count lines <:+ lines := by
  unfold takeLast
  split
  · exact List.drop_suffix _ lines
  · exact List.drop_suffix _ lines

theorem length_takeLast {n : Nat} (h : 0 < n) : (takeLast n lines).length = min n lines.length := by
  rw [takeLast, if_pos (by omega), List.length_drop, Int.toNat_natCast]
  omega

end TakeLast

theorem linesOf_entries (written : List (Logger × Moment × Entry)) :
    LinesOf (Text.encodeUtf8 (String.join (written.map fun e => e.2.2.line e.1 e.2.1)))
      (written.map fun e => e.2.2.line e.1 e.2.1) := by
  refine ⟨_, Text.lossy_iff.mpr rfl, ?_⟩
  rw [Text.decodeUtf8Lenient_encodeUtf8]
  induction written with
  | nil => exact .none
  | cons e rest ih =>
    have hcontrol := Json.noControl_writeAscii (.object (e.2.2.fieldsAt e.1 e.2.1))
    have hbody : Text.Unbroken (Json.writeAscii (.object (e.2.2.fieldsAt e.1 e.2.1))).toList :=
      ⟨hcontrol.newline_notMem, hcontrol.return_notMem⟩
    have hline : (e.2.2.line e.1 e.2.1).toList =
        (Json.writeAscii (.object (e.2.2.fieldsAt e.1 e.2.1))).toList ++ ['\n'] := String.toList_append
    rw [List.map_cons, List.map_cons, String.join_cons, String.toList_append, hline, List.append_assoc]
    exact .ended hbody (.feed _) ih

/-- The tail of a log shows the entries that were written last. -/
theorem tail_entries (written : List (Logger × Moment × Entry)) {n : Nat} (h : 0 < n) :
    tail (Text.encodeUtf8 (String.join (written.map fun e => e.2.2.line e.1 e.2.1))) n =
      (written.map fun e => e.2.2.line e.1 e.2.1).drop (written.length - n) := by
  rw [tail, linesOf_iff.mp (linesOf_entries written), takeLast, if_pos (by omega), List.length_map, Int.toNat_natCast]

end Log

namespace Home

variable {files : FileTree} {p : Path} {content : ByteArray}

theorem tail_eq_of_read (hread : files.read p = .ok content) (count : Int) :
    tail p count files = .ok (Log.tail content count) := by
  rw [tail, FileTree.exists?_of_read hread, hread]
  rfl

/-- The tail of a log for a positive number is the last lines of the file, as many as the number, or all where there
are fewer. For zero it is all of them. -/
theorem tail_shows_last (hread : files.read p = .ok content) :
    ∃ lines, (∀ ls, Log.LinesOf content ls ↔ ls = lines) ∧
      (∀ n : Nat, 0 < n →
        ∃ shown, tail p n files = .ok shown ∧ shown <:+ lines ∧ shown.length = min n lines.length) ∧
      tail p 0 files = .ok lines := by
  refine ⟨Text.readLines (Text.decodeUtf8Lenient content), fun ls => ?_, fun n hn => ?_, ?_⟩
  · rw [Log.linesOf_iff]
    exact eq_comm
  · exact ⟨_, tail_eq_of_read hread n, Log.takeLast_suffix _ n, Log.length_takeLast _ hn⟩
  · exact tail_eq_of_read hread 0

/-- A log with a given content. -/
def sampleLog : Path := { root := "/", parts := ["keyfetch.log"] }

def sampleFiles (content : ByteArray) : FileTree := { nodes := [(sampleLog, .file content)] }

theorem read_sampleFiles (content : ByteArray) : (sampleFiles content).read sampleLog = .ok content :=
  FileTree.read_of_file (q := sampleLog) rfl rfl

/-- Two lines of three, of which the second was cut short by a byte that is no text and the last has no end. -/
theorem tail_shows_last_two :
    (sampleFiles ⟨#[97, 13, 10, 255, 98, 13, 99]⟩).read sampleLog = .ok ⟨#[97, 13, 10, 255, 98, 13, 99]⟩ ∧
      tail sampleLog 2 (sampleFiles ⟨#[97, 13, 10, 255, 98, 13, 99]⟩) = .ok ["b\n", "c"] := by
  have hread := read_sampleFiles ⟨#[97, 13, 10, 255, 98, 13, 99]⟩
  obtain ⟨lines, hlines, hlast, -⟩ := tail_shows_last hread
  have hthree : ["a\n", "b\n", "c"] = lines := (hlines _).mp (Log.linesOf_iff.mpr (by decide +kernel))
  subst hthree
  obtain ⟨shown, hshown, hsuffix, hlength⟩ := hlast 2 (by decide)
  rw [List.suffix_iff_eq_drop, hlength] at hsuffix
  have htwo : shown = ["b\n", "c"] := hsuffix
  exact ⟨hread, htwo ▸ hshown⟩

/-- The tail of a log of one line for zero is this line. -/
theorem tail_zero_shows_line :
    (sampleFiles (Text.encodeUtf8 "a\n")).read sampleLog = .ok (Text.encodeUtf8 "a\n") ∧
      tail sampleLog 0 (sampleFiles (Text.encodeUtf8 "a\n")) = .ok ["a\n"] := by
  have hread := read_sampleFiles (Text.encodeUtf8 "a\n")
  have htail : Log.tail (Text.encodeUtf8 "a\n") 0 = ["a\n"] := by decide +kernel
  exact ⟨hread, htail ▸ tail_eq_of_read hread 0⟩

end Home

end DocFetch

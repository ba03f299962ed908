import DocFetch.Text.Lines
import DocFetch.Text.Utf8

/-! # The end of a log

A log is read leniently: every byte at which no encoded character starts is skipped. Of its lines the last are taken.
-/

namespace DocFetch

namespace Text

/-- Decodes from byte `i` on; `fuel` bounds the bytes left. -/
def decodeLenient (b : ByteArray) : Nat → Nat → List Char → List Char
  | 0, _, acc => acc.reverse
  | fuel + 1, i, acc =>
    if i < b.size then
      match b.utf8DecodeChar? i with
      | some c => decodeLenient b fuel (i + c.utf8Size) (c :: acc)
      | none => decodeLenient b fuel (i + 1) acc
    else acc.reverse

def decodeUtf8Lenient (b : ByteArray) : String := String.ofList (decodeLenient b (b.size + 1) 0 [])

end Text

namespace Log

/-- The last `count` of some lines; zero takes all of them and a negative count leaves out that many
from the start. -/
def takeLast {α : Type} (count : Int) (lines : List α) : List α :=
  if count > 0 then lines.drop (lines.length - count.toNat) else lines.drop count.natAbs

/-- The last lines of a log file, where bytes that are no text are passed over. -/
def tail (content : ByteArray) (count : Int) : List String :=
  takeLast count (Text.readLines (Text.decodeUtf8Lenient content))

example : takeLast 2 [1, 2, 3] = [2, 3] := by decide
example : takeLast 0 [1, 2, 3] = [1, 2, 3] := by decide
example : takeLast (-1) [1, 2, 3] = [2, 3] := by decide

end Log

end DocFetch

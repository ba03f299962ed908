import DocFetch.Text.Digits
import DocFetch.Text.Printable

/-! # Quoted text

A text is shown between single quotes, or between double quotes when it holds a single quote and no
double one. Backslashes, the quote and characters that do not print are escaped.
-/

namespace DocFetch.Text

def quoteFor (cs : List Char) : Char :=
  if cs.contains '\'' && !cs.contains '"' then '"' else '\''

/-- The numeric escape of a character, as short as its code point allows. -/
def codeEscape (n : Nat) : List Char :=
  if n < 0x100 then '\\' :: 'x' :: hexFixed 2 n
  else if n < 0x10000 then '\\' :: 'u' :: hexFixed 4 n
  else '\\' :: 'U' :: hexFixed 8 n

def escapeChar (quote c : Char) : List Char :=
  if c = quote || c = '\\' then ['\\', c]
  else if c = '\n' then ['\\', 'n']
  else if c = '\r' then ['\\', 'r']
  else if c = '\t' then ['\\', 't']
  else if isPrintable c then [c]
  else codeEscape c.toNat

def quotedChars (cs : List Char) : List Char :=
  let quote := quoteFor cs
  quote :: cs.flatMap (escapeChar quote) ++ [quote]

def quoted (s : String) : String := String.ofList (quotedChars s.toList)

/-- Bytes are shown like a text after the letter `b`, those outside ASCII as escapes. -/
def quotedBytes (b : ByteArray) : String :=
  let cs := b.data.toList.map fun x => Char.ofNat x.toNat
  let quote := quoteFor cs
  let shown := cs.flatMap fun c => if c.toNat < 128 then escapeChar quote c else codeEscape c.toNat
  String.ofList ('b' :: quote :: shown ++ [quote])

example : quoted "it's" = "\"it's\"" := by decide +kernel
example : quoted "both ' and \"" = "'both \\' and \"'" := by decide +kernel
example : quoted "\n\x00é\u200b" = "'\\n\\x00é\\u200b'" := by decide +kernel

end DocFetch.Text

import DocFetch.Text.Blank

/-! # Marked text

A tag in brackets sets a style up to its closing tag; both are left out of plain output. A tag starts with a
small letter or one of `#`, `/`, `@`, and a backslash before its bracket makes it text.
-/

namespace DocFetch.Markup

inductive Piece
  | text (cs : List Char)
  | tag (name : List Char)
deriving DecidableEq, Repr

def startsTag (c : Char) : Bool := c.isLower || c = '#' || c = '/' || c = '@'

/-- The inside of a tag whose bracket is next, and the text after it. -/
def tagAt? : List Char → Option (List Char × List Char)
  | '[' :: c :: rest =>
    let body := rest.takeWhile fun d => d ≠ '[' ∧ d ≠ ']'
    if startsTag c ∧ (rest.drop body.length).head? = some ']' then
      some (c :: body, rest.drop (body.length + 1))
    else none
  | _ => none

/-- Cuts a text into tags and the text between them; `plain` was read before, last character first. -/
def piecesFrom (plain : List Char) : Nat → List Char → List Piece
  | 0, _ => []
  | _, [] => [.text plain.reverse]
  | fuel + 1, c :: rest =>
    let slashes := ((c :: rest).takeWhile (· = '\\')).length
    match tagAt? ((c :: rest).drop slashes) with
    | none => piecesFrom (c :: plain) fuel rest
    | some (name, after) =>
      let before := List.replicate (slashes / 2) '\\' ++ plain
      if slashes % 2 = 1 then .text before.reverse :: piecesFrom (']' :: name.reverse ++ ['[']) fuel after
      else .text before.reverse :: .tag name :: piecesFrom [] fuel after

def lowerTrim (cs : List Char) : List Char := (Text.trimChars cs).map Char.toLower

/-- The name of a tag, without what follows an equals sign. -/
def tagName (cs : List Char) : List Char := cs.takeWhile (· ≠ '=')

/-- Takes the innermost tag of a name off the tags that are open. -/
def closeTag (name : List Char) : List (List Char) → Option (List (List Char))
  | [] => none
  | t :: rest => if name.isEmpty ∨ t = name then some rest else (closeTag name rest).map (t :: ·)

def unescapeBrackets : List Char → List Char
  | '\\' :: '[' :: rest => '[' :: unescapeBrackets rest
  | c :: rest => c :: unescapeBrackets rest
  | [] => []

/-- The text of pieces; none where a closing tag closes nothing. -/
def textOf (opened : List (List Char)) : List Piece → Option (List Char)
  | [] => some []
  | .text cs :: rest => (textOf opened rest).map (unescapeBrackets cs ++ ·)
  | .tag ('/' :: name) :: rest =>
    match closeTag (lowerTrim (tagName name)) opened with
    | some opened => textOf opened rest
    | none => none
  | .tag name :: rest => textOf (lowerTrim (tagName name) :: opened) rest

/-- The text without its tags. -/
def render? (s : String) : Option String :=
  (textOf [] (piecesFrom [] (s.length + 1) s.toList)).map String.ofList

example : render? "[bold]x[/bold] a[0] [/]" = none := by decide +kernel
example : render? "[bold]x[/bold] a[0]" = some "x a[0]" := by decide +kernel
example : render? "\\[bold]" = some "[bold]" := by decide +kernel

end DocFetch.Markup

import DocFetch.Text.Quoted
import DocFetch.Value.Basic

/-! # The text of a value

A text is shown as it is when it stands alone and quoted inside a sequence or mapping.
-/

namespace DocFetch.Value

private def dateFields (d : Date) : String := s!"{d.year}, {d.month}, {d.day}"

private def offsetShown (offset : Int) : String :=
  if offset = 0 then "datetime.timezone.utc"
  else
    let day : Int := 86400000000
    let days := Int.fdiv offset day
    let rest := (offset - days * day).toNat
    let parts := [("days", days), ("seconds", (rest / 1000000 : Nat)), ("microseconds", (rest % 1000000 : Nat))]
    let shown := (parts.filter fun p => p.2 != 0).map fun p => p.1 ++ "=" ++ toString p.2
    "datetime.timezone(datetime.timedelta(" ++ ", ".intercalate shown ++ "))"

private def momentShown (m : Moment) : String :=
  let c := m.clock
  let tail :=
    if c.microsecond ≠ 0 then [c.hour, c.minute, c.second, c.microsecond]
    else if c.second ≠ 0 then [c.hour, c.minute, c.second]
    else [c.hour, c.minute]
  let fields := dateFields m.date :: tail.map toString
  let zone := (m.offset.map fun o => ["tzinfo=" ++ offsetShown o]).getD []
  "datetime.datetime(" ++ ", ".intercalate (fields ++ zone) ++ ")"

mutual

/-- The text of a value inside another. -/
def shown : Value → String
  | .null => "None"
  | .bool b => if b then "True" else "False"
  | .int n => toString n
  | .float x => x.text
  | .text s => Text.quoted s
  | .bytes b => Text.quotedBytes b
  | .date d => "datetime.date(" ++ dateFields d ++ ")"
  | .moment m => momentShown m
  | .list items => "[" ++ ", ".intercalate (shownList items) ++ "]"
  | .map entries => "\x7b" ++ ", ".intercalate (shownEntries entries) ++ "\x7d"

def shownList : List Value → List String
  | [] => []
  | v :: rest => shown v :: shownList rest

def shownEntries : List (Value × Value) → List String
  | [] => []
  | (k, v) :: rest => (shown k ++ ": " ++ shown v) :: shownEntries rest

end

/-- The text of a value that stands alone. -/
def display : Value → String
  | .text s => s
  | .date d => d.text
  | .moment m => m.text
  | v => v.shown

example : (Value.list [.int 1, .text "x", .null, .bool true]).display = "[1, 'x', None, True]" := by
  decide +kernel

end DocFetch.Value

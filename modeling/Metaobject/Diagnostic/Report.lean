import Metaobject.Diagnostic.Column
import Metaobject.Diagnostic.Excerpt

/-!
# Diagnostics for people

A diagnostic as text: a headline, the labelled source lines with carets under the place that is
meant, and the notes. The left margin is as wide as the largest line number; to its right are the
lanes of labels over several lines.
-/

namespace Metaobject

namespace Report

/-- Severity, code and message. An empty code counts as none. -/
def headline (d : Diagnostic) : String :=
  let code := match d.code with
    | none | some "" => ""
    | some code => "[" ++ code ++ "]"
  d.severity.text ++ code ++ ": " ++ d.message

/-- An empty margin of the given width. -/
def margin (width : Nat) : String := copies (width + 1) ' '

/-- A message after what it is about, if there is one. -/
def remark (message : String) : String := if message = "" then "" else " " ++ message

/-! ## Lanes -/

/-- A lane beside a row that is not a source line: the bracket shows once it has been opened. -/
def lane : Option Bracket → String
  | some .passes | some (.closes ..) => " │"
  | some (.opens _) | none => "  "

/-- A lane beside a source line. A bracket that opens before the text of the line is drawn at
once. -/
def sourceLane (indent : Nat) : Option Bracket → String
  | some (.opens offset) => if offset ≤ indent then " ╭" else "  "
  | b => lane b

/-- The lanes from number `index` on, beside the row in which the bracket of lane `current` turns to
the text. From that lane on a line runs to the right, which is what `turned` says. -/
def turningLanes (current : Nat) : Nat → Bool → List (Option Bracket) → String
  | _, _, [] => ""
  | index, turned, b :: bs =>
    let crossing := (if turned then "─" else " ") ++ "│"
    let empty := if turned then "──" else "  "
    let (text, turned) := match b with
      | some .passes => (crossing, turned)
      | some (.opens _) =>
        if index < current then (crossing, turned) else if index = current then (" ╭", true)
          else (empty, turned)
      | some (.closes ..) =>
        if current < index then (crossing, turned) else if index = current then (" ╰", true)
          else (empty, turned)
      | none => (empty, turned)
    text ++ turningLanes current (index + 1) turned bs

/-- A line with one place for each column that starts before a byte offset, and a caret at its end.
As it begins under the blank before the text, the caret stands under the last of those columns. -/
def reach (cs : List Column) (offset : Nat) : String :=
  String.join ((cs.filter (·.offset < offset)).map fun c => copies c.width '─') ++ "^"

/-- How a bracket turns to the text, if it does so in a row of its own. -/
def turn? (cs : List Column) : Bracket → Option String
  | .opens offset => if offset ≤ indentation cs then none else some (reach cs (offset + 1))
  | .passes => none
  | .closes offset message => some (reach cs offset ++ remark message)

/-- The rows in which the brackets of a line turn to its text. -/
def turns (cs : List Column) (lanes : List (Option Bracket)) : List String :=
  lanes.zipIdx.filterMap fun (b, i) => do
    let text ← turn? cs (← b)
    return turningLanes i 0 false lanes ++ text

/-! ## Underlines -/

/-- Carets under what is underlined, with blanks before and between. -/
def carets (cs : List Column) (us : List Underline) : String :=
  let stop := (us.map (·.stop)).foldl max 0
  String.join ((cs ++ [columnAfter cs]).map fun c =>
    if us.any (·.meets c.offset c.next) then copies c.width '^'
    else if c.offset < stop then copies c.width ' '
    else "")

/-- The place in the list of the underline whose message can stand beside the carets: the last of
those that stop last, if it has a message and no other underline meets it. -/
def trailing? (us : List Underline) : Option Nat := do
  let stop := (us.map (·.stop)).foldl max 0
  let (u, i) ← (us.zipIdx.filter (·.1.stop == stop)).getLast?
  if u.message = "" || us.zipIdx.any fun (v, j) => j != i && v.meets u.start u.stop then none
    else some i

/-- Bars that lead down from underlines to their messages, among blanks up to byte `last`. -/
def bars (last : Nat) (us : List Underline) (cs : List Column) : String :=
  String.join (cs.map fun c =>
    if us.any fun u => c.offset ≤ u.start && u.start < c.next then "│" ++ copies (c.width - 1) ' '
    else if c.offset ≤ last then copies c.width ' '
    else "")

/-- The rows under a source line for what is underlined in it: the carets, with a message beside
them, and the other messages below, from the last to the first. -/
def underlineRows (cs : List Column) (us : List Underline) : List String :=
  if us.isEmpty then [] else
    let trailing := trailing? us
    let beside := (trailing.bind (us[·]?)).elim "" fun u => remark u.message
    let below := (us.zipIdx.filter fun (u, i) => u.message != "" && trailing != some i).map (·.1)
    let last := (us.map (·.start)).foldl max 0
    let hanging := below.reverse.map fun u => bars last below
      (cs.filter (·.offset < u.start)) ++ u.message
    (carets cs us ++ beside) :: if below.isEmpty then [] else bars last below cs :: hanging

/-! ## Excerpts -/

/-- A source line and the rows under it. -/
def markedLine (width : Nat) (l : MarkedLine) : List String :=
  let cs := columns l.line.chars
  let number := toString (l.index + 1)
  let source := copies (width - number.length) ' ' ++ number ++ " │" ++
    String.join (l.lanes.map (sourceLane (indentation cs))) ++ " " ++ String.join
      (cs.map Column.text)
  let lanes := String.join (l.lanes.map lane)
  source :: ((underlineRows cs l.underlines).map (lanes ++ " " ++ ·) ++ turns cs l.lanes).map
    (margin width ++ "│" ++ ·)

/-- A row of an excerpt. -/
def excerptRow (width : Nat) : ExcerptRow → List String
  | .line l => markedLine width l
  | .gap l => [margin width ++ "·" ++ String.join (l.lanes.map lane)]

/-- An empty row with a number of lanes. -/
def emptyRow (width lanes : Nat) : String := margin width ++ "│" ++ copies (2 * lanes) ' '

/-- Where an excerpt is and what it shows. -/
def excerpt (width : Nat) (e : Excerpt) : List String :=
  [ margin width ++ s!"┌─ {e.file.path}:{e.location.line}:{e.location.column}",
    emptyRow width e.laned.length ] ++
    e.rows.flatMap (excerptRow width)

/-! ## Notes -/

/-- A text cut into lines at its line breaks, which may be written with a carriage return. A line
break at the end starts no new line. -/
def noteLines (text : String) : List String :=
  let pieces := text.splitOn "\n"
  let broken := pieces.dropLast.map fun s => if s.endsWith "\r" then String.ofList s.toList.dropLast
    else s
  broken ++ (pieces.getLast?.filter (· ≠ "")).toList

/-- A note, its first line marked by an equals sign. -/
def note (width : Nat) (text : String) : List String :=
  (noteLines text).zipIdx.map fun (line, i) =>
    margin width ++ (if i = 0 then "= " else "  ") ++ line

end Report

/-- The excerpts of a diagnostic, one for each labelled file. There are none if a label is in a file
that is not known. -/
def Diagnostic.excerpts? (files : List SourceFile) (d : Diagnostic) :
    Option (List Report.Excerpt) :=
  (d.labels.map (·.file)).eraseDups.mapM fun i =>
    (files[i]?).map fun file => .ofLabels file (d.labels.filter (·.file == i))

/-- The text of a diagnostic. There is none if a label is in a file that is not known. -/
def Diagnostic.report? (files : List SourceFile) (d : Diagnostic) : Option String := do
  let excerpts ← d.excerpts? files
  let width := (excerpts.map fun e => (toString e.lastLine).length).foldl max 0
  let shown := excerpts.zipIdx.flatMap fun (e, i) =>
    let isLast := i + 1 == excerpts.length
    Report.excerpt width e ++ if isLast && d.notes.isEmpty then []
      else [Report.emptyRow width e.laned.length]
  let lines := Report.headline d :: shown ++ d.notes.flatMap (Report.note width) ++ [""]
  return String.join (lines.map (· ++ "\n"))

end Metaobject

import Metaobject.Diagnostic.Basic
import Metaobject.Source

/-!
# Excerpts

Which lines of a source file are shown for its labels, and how the labels meet them. A label inside
one line underlines a part of it. A label over several lines is drawn as a bracket in a lane of its
own, left of the text: it opens on one line, passes others, and closes on another. Of the lines that
a bracket passes, three after its opening and one before its closing are shown.
-/

namespace Metaobject.Report

/-- A part of a line, from one byte of it to another, with what is to be said about it. -/
structure Underline where
  start : Nat
  stop : Nat
  message : String
deriving DecidableEq, Repr

/-- How a label over several lines meets one of them. Offsets are bytes of that line. -/
inductive Bracket where
  | opens (offset : Nat)
  | passes
  | closes (offset : Nat) (message : String)
deriving DecidableEq, Repr

namespace Underline

/-- The underline of a label inside a line. It has at least one byte, unless that byte would lie
past the largest word of 64 bits. -/
def ofLabel (line : SourceLine) (l : Label) : Underline :=
  let start := l.span.start - line.start
  ⟨start, max (l.span.stop - line.start) ((start + 1) % UInt64.size), l.message⟩

/-- Whether an underline has a byte in common with the bytes from `start` to `stop`. -/
def meets (u : Underline) (start stop : Nat) : Bool := max u.start start < min u.stop stop

/-- Whether an underline starts before another one, or with it and stops before it. -/
def precedes (u v : Underline) : Bool := u.start < v.start || (u.start = v.start && u.stop < v.stop)

/-- Add an underline before the first one that does not precede it. -/
def insert (u : Underline) : List Underline → List Underline
  | [] => [u]
  | v :: vs => if v.precedes u then v :: insert u vs else u :: v :: vs

end Underline

/-- A label with the indices of the lines it begins and ends on. -/
structure PlacedLabel where
  label : Label
  first : Nat
  last : Nat
deriving DecidableEq, Repr

namespace PlacedLabel

/-- Place a label in a file. -/
def ofLabel (file : SourceFile) (l : Label) : PlacedLabel :=
  ⟨l, file.lineIndex l.span.start, file.lineIndex l.span.stop⟩

/-- Whether the label is inside one line. -/
def isInline (p : PlacedLabel) : Bool := p.first == p.last

/-- How many lines that a bracket passes are shown after its opening. -/
def linesAfterOpening : Nat := 3

/-- How many lines that a bracket passes are shown before its closing. -/
def linesBeforeClosing : Nat := 1

/-- Whether a line lies strictly between the two lines. -/
def passes (p : PlacedLabel) (index : Nat) : Bool := p.first < index && index < p.last

/-- Whether a line has to be shown for the label. -/
def wants (p : PlacedLabel) (index : Nat) : Bool :=
  index == p.first || index == p.last ||
    (p.passes index && (index - p.first ≤ linesAfterOpening || p.last - index ≤ linesBeforeClosing))

/-- How the bracket of the label meets a line, if it does. -/
def bracket? (p : PlacedLabel) (index : Nat) (line : SourceLine) : Option Bracket :=
  if index = p.first then some (.opens (p.label.span.start - line.start))
  else if index = p.last then some (.closes (p.label.span.stop - line.start) p.label.message)
  else if p.passes index then some .passes
  else none

end PlacedLabel

/-- A line with its labels. -/
structure MarkedLine where
  index : Nat
  line : SourceLine
  /-- In order of their starts. -/
  underlines : List Underline
  /-- One entry for each lane. -/
  lanes : List (Option Bracket)
deriving DecidableEq, Repr

/-- A row of an excerpt: a line, or a gap in place of lines that are left out. -/
inductive ExcerptRow where
  | line (l : MarkedLine)
  /-- A gap after the given line. -/
  | gap (l : MarkedLine)
deriving DecidableEq, Repr

/-- The lines of a file that its labels mark. -/
structure Excerpt where
  file : SourceFile
  labels : List PlacedLabel

namespace Excerpt

/-- The excerpt of a file for labels in it. -/
def ofLabels (file : SourceFile) (labels : List Label) : Excerpt :=
  ⟨file, labels.map (PlacedLabel.ofLabel file)⟩

/-- The labels that have a lane, in order of their lanes. -/
def laned (e : Excerpt) : List PlacedLabel := e.labels.filter (!·.isInline)

/-- A line with the labels of the excerpt that meet it. -/
def mark (e : Excerpt) (index : Nat) (line : SourceLine) : MarkedLine where
  index := index
  line := line
  underlines := ((e.labels.filter fun p => p.isInline && p.first == index).map
    fun p => Underline.ofLabel line p.label).foldl (fun us u => u.insert us) []
  lanes := e.laned.map (·.bracket? index line)

/-- Put between lines what stands between them: the line itself if only one is left out, a gap if
there are more. -/
def bridged (all : List MarkedLine) : List MarkedLine → List ExcerptRow
  | l :: next :: rest =>
    let between :=
      if next.index = l.index + 2 then (all[l.index + 1]?.map ExcerptRow.line).toList
      else if next.index > l.index + 2 then [.gap l]
      else []
    .line l :: between ++ bridged all (next :: rest)
  | [l] => [.line l]
  | [] => []

/-- The rows of an excerpt, from the first line that is shown to the last. -/
def rows (e : Excerpt) : List ExcerptRow :=
  let all := e.file.lines.zipIdx.map fun (line, i) => e.mark i line
  bridged all (all.filter fun l => e.labels.any (·.wants l.index))

/-- The largest line number that is shown. -/
def lastLine (e : Excerpt) : Nat := (e.labels.map fun p => max p.first p.last + 1).foldl max 0

/-- The location of the first place that is labelled. -/
def location (e : Excerpt) : Location :=
  e.file.location ((e.labels.map fun p => p.label.span.start).min?.getD 0)

end Excerpt

end Metaobject.Report

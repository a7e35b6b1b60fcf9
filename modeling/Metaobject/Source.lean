/-!
# Places in a source text

A span is the stretch of source text that a node of the tree came from: a half-open range of byte
offsets together with the line and column at which it starts. Nodes that no source text produced
carry the synthetic span. For people, byte offsets are turned into lines and columns.
-/

namespace Metaobject

/-! ## Spans -/

/-- A stretch of source text. -/
structure Span where
  /-- Byte offset of the first byte. -/
  start : Nat := 0
  /-- Byte offset just past the last byte. -/
  stop : Nat := 0
  line : Nat := 0
  column : Nat := 0
deriving DecidableEq, Repr, Inhabited

namespace Span

/-- The span of a node that no source text produced. -/
def synthetic : Span := {}

/-- Number of bytes covered, as a 64-bit word: on an inverted span the difference wraps around. -/
def length (s : Span) : Nat :=
  if s.start ≤ s.stop then s.stop - s.start else s.stop + UInt64.size - s.start

/-- Whether the span covers no byte. -/
def isEmpty (s : Span) : Bool := s.start == s.stop

/-- The least span that covers both, each coordinate taken on its own. -/
def merge (s t : Span) : Span where
  start := min s.start t.start
  stop := max s.stop t.stop
  line := min s.line t.line
  column := min s.column t.column

/-- Line and column, the way a person reads them. -/
def text (s : Span) : String := toString s.line ++ ":" ++ toString s.column

end Span

/-! ## Locations

A line ends after its line break, and an offset past the end of the text belongs to the last line. A
column counts the characters of the line that end at or before the offset. -/

/-- A source text with the path it is shown under. -/
structure SourceFile where
  path : String
  text : String

/-- A line and a column, both counted from one. -/
structure Location where
  line : Nat
  column : Nat
deriving DecidableEq, Repr

/-- A line of a source text. -/
structure SourceLine where
  /-- Byte offset of the first character. -/
  start : Nat
  /-- The characters of the line, its line break included. -/
  chars : List Char
deriving DecidableEq, Repr

namespace SourceLine

/-- Cut a text that begins at byte `start` into lines; `line` holds what is read of the current one,
in reverse. -/
def split (start : Nat) (line : List Char) : List Char → List SourceLine
  | [] => [⟨start, line.reverse⟩]
  | c :: rest =>
    if c = '\n' then
      let whole := (c :: line).reverse
      ⟨start, whole⟩ :: split (start + (whole.map Char.utf8Size).sum) [] rest
    else split start (c :: line) rest

/-- The number of characters that end at or before a byte offset, where the next character starts at
`position`. -/
def charsBefore (offset : Nat) : Nat → List Char → Nat
  | _, [] => 0
  | position, c :: rest =>
    if position + c.utf8Size ≤ offset then charsBefore offset (position + c.utf8Size) rest + 1
      else 0

/-- The column of a byte offset, counted from one. -/
def column (l : SourceLine) (offset : Nat) : Nat := charsBefore offset l.start l.chars + 1

end SourceLine

namespace SourceFile

/-- The lines of a text; there is always at least one. -/
def lines (f : SourceFile) : List SourceLine := SourceLine.split 0 [] f.text.toList

/-- The index of the line that a byte offset belongs to: the last one that starts at or before
it. -/
def lineIndex (f : SourceFile) (offset : Nat) : Nat :=
  (f.lines.filter (·.start ≤ offset)).length - 1

/-- The line that a byte offset belongs to. -/
def lineOf (f : SourceFile) (offset : Nat) : SourceLine :=
  (f.lines[f.lineIndex offset]?).getD ⟨0, []⟩

/-- The line and column of a byte offset. -/
def location (f : SourceFile) (offset : Nat) : Location :=
  ⟨f.lineIndex offset + 1, (f.lineOf offset).column offset⟩

end SourceFile

end Metaobject

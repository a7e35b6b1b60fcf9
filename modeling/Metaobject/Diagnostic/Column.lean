import Metaobject.Text.Basic

/-!
# Columns of a line

A source line as it is displayed: what ends the line is left out, control characters take no room,
and a tab reaches to the next tab stop. Source texts are ASCII, so any other character takes one
column.
-/

namespace Metaobject.Report

/-- Tab stops are four columns apart. -/
def tabWidth : Nat := 4

/-- A character of a line with its place. -/
structure Column where
  char : Char
  /-- The byte offset in the line. -/
  offset : Nat
  /-- How many columns the character takes. -/
  width : Nat
deriving DecidableEq, Repr

/-- Copies of a character. -/
def copies (n : Nat) (c : Char) : String := String.ofList (List.replicate n c)

namespace Column

/-- The byte offset just after the character. -/
def next (c : Column) : Nat := c.offset + c.char.utf8Size

/-- What the character looks like. -/
def text (c : Column) : String := if c.char = '\t' then copies c.width ' ' else c.char.toString

/-- The columns that a character takes if it starts at column `position`. -/
def widthAt (position : Nat) (c : Char) : Nat :=
  if c = '\t' then tabWidth - position % tabWidth
  else if c.toNat < 0x20 || (0x7f ≤ c.toNat && c.toNat < 0xa0) then 0
  else 1

/-- The columns of characters, of which the first starts at byte `offset` and column `position`. -/
def layOut (offset position : Nat) : List Char → List Column
  | [] => []
  | c :: cs =>
    ⟨c, offset, widthAt position c⟩ ::
      layOut (offset + c.utf8Size) (position + widthAt position c) cs

end Column

/-- The columns of a line. Line breaks and null characters at its end are not displayed. -/
def columns (chars : List Char) : List Column :=
  Column.layOut 0 0 (chars.reverse.dropWhile fun c => c = '\n' || c = '\r' || c = '\x00').reverse

/-- One column for the place just after a line. -/
def columnAfter (cs : List Column) : Column := ⟨' ', (cs.getLast?.map Column.next).getD 0, 1⟩

/-- The byte offset at which something other than blanks begins. -/
def indentation (cs : List Column) : Nat :=
  (columnAfter (cs.takeWhile fun c => Text.isBlank c.char)).offset

end Metaobject.Report

/-!
# JSON text

JSON documents and their indented text: two blanks per level, one entry a line, and nothing between
the brackets of an empty container.
-/

namespace Metaobject

/-- A JSON document. The entries of an object keep their order. -/
inductive Json where
  | null
  | bool (value : Bool)
  | number (value : Int)
  | string (value : String)
  | array (elements : List Json)
  | object (entries : List (String × Json))
deriving Inhabited

namespace Json

/-- The characters that stand for `c` in a JSON string. -/
def escape (c : Char) : List Char :=
  if c = '"' then ['\\', '"']
  else if c = '\\' then ['\\', '\\']
  else if c = '\n' then ['\\', 'n']
  else if c = '\r' then ['\\', 'r']
  else if c = '\t' then ['\\', 't']
  else if c = '\x08' then ['\\', 'b']
  else if c = '\x0c' then ['\\', 'f']
  else if c.toNat < 0x20 then
    ['\\', 'u', '0', '0', Nat.digitChar (c.toNat / 16), Nat.digitChar (c.toNat % 16)]
  else [c]

/-- A text as a JSON string. -/
def quote (s : String) : String := String.ofList ('"' :: s.toList.flatMap escape ++ ['"'])

/-- A line break and the indentation of a level. -/
def newline (level : Nat) : String := String.ofList ('\n' :: List.replicate (2 * level) ' ')

mutual

/-- The indented text of a document that starts on the given level. -/
def prettyAt (level : Nat) : Json → String
  | null => "null"
  | bool b => if b then "true" else "false"
  | number n => toString n
  | string s => quote s
  | array [] => "[]"
  | array (e :: es) =>
    "[" ++ newline (level + 1) ++ e.prettyAt (level + 1) ++ prettyElements level es
      ++ newline level ++ "]"
  | object [] => "\x7b\x7d"
  | object ((k, v) :: es) =>
    "\x7b" ++ newline (level + 1) ++ quote k ++ ": " ++ v.prettyAt (level + 1)
      ++ prettyEntries level es
      ++ newline level ++ "\x7d"

/-- The elements of an array after the first. -/
def prettyElements (level : Nat) : List Json → String
  | [] => ""
  | e :: es => "," ++ newline (level + 1) ++ e.prettyAt (level + 1) ++ prettyElements level es

/-- The entries of an object after the first. -/
def prettyEntries (level : Nat) : List (String × Json) → String
  | [] => ""
  | (k, v) :: es =>
    "," ++ newline (level + 1) ++ quote k ++ ": " ++ v.prettyAt (level + 1)
      ++ prettyEntries level es

end

/-- The indented text of a document. -/
def pretty (j : Json) : String := j.prettyAt 0

end Json

end Metaobject

/-!
# Words of TOML

The smallest parts of a TOML text: blanks, comments, line ends, strings and keys. A reader takes the
characters in front of it and returns what it read with the characters that are left, or nothing if
the text is not well-formed.
-/

namespace Metaobject.Toml

/-- A reader of a value. -/
abbrev Reader (α : Type) := List Char → Option (α × List Char)

/-! ## Blanks, comments, line ends -/

def isBlank (c : Char) : Bool := c = ' ' || c = '\t'

/-- Characters that may stand in a comment or a string on one line: no control characters but the
tab. -/
def isLineChar (c : Char) : Bool := c = '\t' || (0x20 ≤ c.toNat && c.toNat ≠ 0x7f)

def skipBlanks (cs : List Char) : List Char := cs.dropWhile isBlank

/-- Skip a comment, up to the end of its line. -/
def skipComment : List Char → List Char
  | '#' :: cs => cs.dropWhile isLineChar
  | cs => cs

/-- Skip one line break. -/
def lineBreak? : List Char → Option (List Char)
  | '\n' :: cs => some cs
  | '\r' :: '\n' :: cs => some cs
  | _ => none

/-- Skip blanks and line breaks, at most `fuel` lines. -/
def skipSpace : Nat → List Char → List Char
  | 0, cs => cs
  | fuel + 1, cs =>
    match lineBreak? (skipBlanks cs) with
    | some next => skipSpace fuel next
    | none => skipBlanks cs

/-- Skip blanks and a comment, then the end of the line or of the text. -/
def lineEnd? (cs : List Char) : Option (List Char) :=
  match skipComment (skipBlanks cs) with
  | [] => some []
  | cs => lineBreak? cs

/-- Skip blanks, comments and line breaks, with at most `fuel` lines. -/
def skipLines : Nat → List Char → List Char
  | 0, cs => cs
  | fuel + 1, cs =>
    let rest := skipComment (skipBlanks cs)
    match lineBreak? rest with
    | some next => skipLines fuel next
    | none => rest

/-! ## Strings -/

/-- The value of a run of hexadecimal digits. -/
def hexValue? (digits : List Char) : Option Nat :=
  digits.foldlM (fun n c =>
    if c.isDigit then some (16 * n + (c.toNat - 48))
    else if 'a' ≤ c ∧ c ≤ 'f' then some (16 * n + (c.toNat - 87))
    else if 'A' ≤ c ∧ c ≤ 'F' then some (16 * n + (c.toNat - 55))
    else none) 0

/-- The character with a code point written in hexadecimal. -/
def codePoint? (digits : List Char) : Option Char := do
  let n ← hexValue? digits
  if n.isValidChar then some (Char.ofNat n) else none

/-- The character that an escape stands for, read after the backslash. -/
def escape? : Reader Char
  | 'b' :: cs => some ('\x08', cs)
  | 't' :: cs => some ('\t', cs)
  | 'n' :: cs => some ('\n', cs)
  | 'f' :: cs => some ('\x0c', cs)
  | 'r' :: cs => some ('\r', cs)
  | '"' :: cs => some ('"', cs)
  | '\\' :: cs => some ('\\', cs)
  | 'u' :: cs => if cs.length < 4 then none else (codePoint? (cs.take 4)).map (·, cs.drop 4)
  | 'U' :: cs => if cs.length < 8 then none else (codePoint? (cs.take 8)).map (·, cs.drop 8)
  | _ => none

/-- The rest of a string in double quotes. -/
def basicRest? : Nat → Reader (List Char)
  | 0, _ => none
  | _ + 1, [] => none
  | fuel + 1, c :: cs =>
    if c = '"' then some ([], cs)
    else if c = '\\' then do
      let (x, cs) ← escape? cs
      let (s, cs) ← basicRest? fuel cs
      return (x :: s, cs)
    else if isLineChar c then (basicRest? fuel cs).map fun (s, cs) => (c :: s, cs)
    else none

/-- The rest of a string in single quotes. -/
def literalRest? : Reader (List Char)
  | [] => none
  | c :: cs =>
    if c = '\x27' then some ([], cs)
    else if isLineChar c then (literalRest? cs).map fun (s, cs) => (c :: s, cs)
    else none

/-- How the quotes in front go on: quotes that belong to the string, and whether the string ends
behind them. Three quotes end it, with up to two more of its own before them. -/
def closing (quote : Char) (cs : List Char) : Nat × Bool :=
  let run := (cs.takeWhile (· = quote)).length
  if run < 3 then (run, false) else (min (run - 3) 2, true)

/-- The rest of a string over several lines. Escapes are read only with `escapes`; there, a
backslash at the end of a line joins it to the next text. -/
def multilineRest? (quote : Char) (escapes : Bool) : Nat → Reader (List Char)
  | 0, _ => none
  | _ + 1, [] => none
  | fuel + 1, c :: cs =>
    if c = quote then
      let (own, ends) := closing quote (c :: cs)
      if ends then some (List.replicate own quote, (c :: cs).drop (own + 3))
      else (multilineRest? quote escapes fuel ((c :: cs).drop own)).map fun (s, cs) =>
        (List.replicate own quote ++ s, cs)
    else if c = '\\' && escapes then
      match lineBreak? (skipBlanks cs) with
      | some next => multilineRest? quote escapes fuel (skipSpace (next.length + 1) next)
      | none => do
        let (x, cs) ← escape? cs
        let (s, cs) ← multilineRest? quote escapes fuel cs
        return (x :: s, cs)
    else
      match lineBreak? (c :: cs) with
      | some next => (multilineRest? quote escapes fuel next).map fun (s, cs) => ('\n' :: s, cs)
      | none =>
        if isLineChar c then (multilineRest? quote escapes fuel cs).map fun (s, cs) => (c :: s, cs)
          else none

/-- A string over several lines, after its opening quotes. A line break right there is not part of
it. -/
def multiline? (quote : Char) (escapes : Bool) (cs : List Char) : Option (List Char × List Char) :=
  let cs := (lineBreak? cs).getD cs
  multilineRest? quote escapes (cs.length + 1) cs

/-- A string in any of the four forms. -/
def string? : Reader String
  | '"' :: '"' :: '"' :: cs => (multiline? '"' true cs).map fun (s, cs) => (String.ofList s, cs)
  | '\x27' :: '\x27' :: '\x27' :: cs =>
    (multiline? '\x27' false cs).map fun (s, cs) => (String.ofList s, cs)
  | '"' :: cs => (basicRest? (cs.length + 1) cs).map fun (s, cs) => (String.ofList s, cs)
  | '\x27' :: cs => (literalRest? cs).map fun (s, cs) => (String.ofList s, cs)
  | _ => none

/-! ## Keys -/

def isBareKeyChar (c : Char) : Bool := c.isAlphanum || c = '-' || c = '_'

/-- One part of a key: a bare word, or a string on one line. -/
def simpleKey? : Reader String
  | '"' :: cs => (basicRest? (cs.length + 1) cs).map fun (s, cs) => (String.ofList s, cs)
  | '\x27' :: cs => (literalRest? cs).map fun (s, cs) => (String.ofList s, cs)
  | cs =>
    match cs.takeWhile isBareKeyChar with
    | [] => none
    | word => some (String.ofList word, cs.dropWhile isBareKeyChar)

/-- A key of parts that are separated by points, with at most `fuel` parts. -/
def key? : Nat → Reader (List String)
  | 0, _ => none
  | fuel + 1, cs => do
    let (part, cs) ← simpleKey? cs
    match skipBlanks cs with
    | '.' :: cs =>
      let (rest, cs) ← key? fuel (skipBlanks cs)
      return (part :: rest, cs)
    | cs => return ([part], cs)

end Metaobject.Toml

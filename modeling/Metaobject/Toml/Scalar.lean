import Metaobject.Toml.Lexeme

/-!
# Numbers and dates of TOML

A number, a date or a time is one word without blanks, apart from a date and a time that a single
blank separates. The word decides by its form what it is. Only the value of an integer is kept; a
float or a date just has to be well-formed.
-/

namespace Metaobject.Toml

/-! ## Digits -/

/-- The digits of a number, where single underscores may stand between two digits. -/
def digits? (isDigit : Char → Bool) : List Char → Option (List Char)
  | [] => none
  | [c] => if isDigit c then some [c] else none
  | c :: '_' :: cs => if isDigit c then (digits? isDigit cs).map (c :: ·) else none
  | c :: cs => if isDigit c then (digits? isDigit cs).map (c :: ·) else none

/-- A run of digits without leading zeros, except for zero itself. -/
def decimalDigits? (cs : List Char) : Option (List Char) := do
  let ds ← digits? Char.isDigit cs
  match ds with
  | '0' :: _ :: _ => none
  | ds => some ds

/-- The number that a run of decimal digits stands for. -/
def decimalValue (digits : List Char) : Nat := digits.foldl (fun n c => 10 * n + (c.toNat - 48)) 0

/-- A word without its sign, and whether the sign is a minus. -/
def unsigned : List Char → Bool × List Char
  | '-' :: cs => (true, cs)
  | '+' :: cs => (false, cs)
  | cs => (false, cs)

/-! ## Integers -/

/-- The value of a run of digits to a base that is written in front of it. -/
def basedValue? (base : Nat) (cs : List Char) : Option Nat := do
  let isDigit (c : Char) := (hexValue? [c]).any (· < base)
  let ds ← digits? isDigit cs
  ds.foldlM (fun n c => (hexValue? [c]).map (base * n + ·)) 0

/-- A signed 64-bit integer. -/
def integer? (word : List Char) : Option Int := do
  let n ← match word with
    | '0' :: 'x' :: cs => (basedValue? 16 cs).map Int.ofNat
    | '0' :: 'o' :: cs => (basedValue? 8 cs).map Int.ofNat
    | '0' :: 'b' :: cs => (basedValue? 2 cs).map Int.ofNat
    | cs =>
      let (negative, cs) := unsigned cs
      (decimalDigits? cs).map fun ds => if negative then -(decimalValue ds : Int)
        else decimalValue ds
  if -0x8000000000000000 ≤ n ∧ n < 0x8000000000000000 then some n else none

/-! ## Floats -/

/-- The least number that is too large for a double. -/
def doubleLimit : Nat := Nat.pow 2 1024 - Nat.pow 2 970

/-- Whether `mantissa * 10 ^ exponent` fits a double. -/
def fitsDouble (mantissa : Nat) (exponent : Int) : Bool :=
  if mantissa = 0 then true
  else if exponent < 0 then
    -- far below the limit there is nothing to compare
    if (toString mantissa).length + exponent ≤ 300 then true
      else mantissa < doubleLimit * Nat.pow 10 exponent.natAbs
  else if 400 < exponent then false
  else mantissa * Nat.pow 10 exponent.natAbs < doubleLimit

/-- An exponent: a sign and digits, which may start with zeros. -/
def exponent? (cs : List Char) : Option Int := do
  let (negative, cs) := unsigned cs
  let ds ← digits? Char.isDigit cs
  return if negative then -(decimalValue ds : Int) else decimalValue ds

/-- Whether a word is a float. A positive number that is too large for a double is none. -/
def isFloat (word : List Char) : Bool :=
  let (negative, cs) := unsigned word
  if cs = ['i', 'n', 'f'] || cs = ['n', 'a', 'n'] then true
  else
    let isMark (c : Char) := c = 'e' || c = 'E'
    let (number, power) := (cs.takeWhile (!isMark ·), cs.dropWhile (!isMark ·))
    let (whole, fraction) := (number.takeWhile (· ≠ '.'), number.dropWhile (· ≠ '.'))
    let exponent := match power with
      | [] => some 0
      | _ :: cs => exponent? cs
    let places := match fraction with
      | [] => some []
      | _ :: cs => digits? Char.isDigit cs
    match decimalDigits? whole, places, exponent with
    | some whole, some places, some exponent =>
      !(power.isEmpty && fraction.isEmpty)
        && (negative || fitsDouble (decimalValue (whole ++ places)) (exponent - places.length))
    | _, _, _ => false

/-! ## Dates and times -/

/-- The value of exactly `n` digits in front. -/
def fixedDigits? (n : Nat) : Reader Nat := fun cs =>
  let ds := cs.take n
  if ds.length = n && ds.all Char.isDigit then some (decimalValue ds, cs.drop n) else none

/-- Skip one given character. -/
def mark? (c : Char) : List Char → Option (List Char)
  | d :: cs => if c = d then some cs else none
  | [] => none

/-- The number of days of a month. -/
def daysIn (year month : Nat) : Nat :=
  if month = 2 then
    if (year % 4 = 0 && year % 100 ≠ 0) || year % 400 = 0 then 29 else 28
  else if month = 4 || month = 6 || month = 9 || month = 11 then 30
  else 31

/-- What is left after a date. -/
def date? (cs : List Char) : Option (List Char) := do
  let (year, cs) ← fixedDigits? 4 cs
  let (month, cs) ← fixedDigits? 2 (← mark? '-' cs)
  let (day, cs) ← fixedDigits? 2 (← mark? '-' cs)
  if 1 ≤ month && month ≤ 12 && 1 ≤ day && day ≤ daysIn year month then some cs else none

/-- What is left after a time of day. -/
def time? (cs : List Char) : Option (List Char) := do
  let (hour, cs) ← fixedDigits? 2 cs
  let (minute, cs) ← fixedDigits? 2 (← mark? ':' cs)
  let (second, cs) ← fixedDigits? 2 (← mark? ':' cs)
  if hour ≤ 23 && minute ≤ 59 && second ≤ 60 then
    match cs with
    | '.' :: cs =>
      if (cs.takeWhile Char.isDigit).isEmpty then none else some (cs.dropWhile Char.isDigit)
    | cs => some cs
  else none

/-- What is left after an offset from universal time. -/
def offset? (cs : List Char) : Option (List Char) :=
  match cs with
  | 'Z' :: cs | 'z' :: cs => some cs
  | '+' :: cs | '-' :: cs => do
    let (hour, cs) ← fixedDigits? 2 cs
    let (minute, cs) ← fixedDigits? 2 (← mark? ':' cs)
    if hour ≤ 23 && minute ≤ 59 then some cs else none
  | cs => some cs

/-- Whether a word is a date, a time, or both. -/
def isDateTime (word : List Char) : Bool :=
  match date? word with
  | some [] => true
  | some (c :: cs) => (c = 'T' || c = 't' || c = ' ') && ((time? cs).bind offset?) = some []
  | none => time? word = some []

/-! ## Words -/

/-- Characters of numbers, dates and times. -/
def isWordChar (c : Char) : Bool :=
  c.isAlphanum || c = '+' || c = '-' || c = '_' || c = '.' || c = ':'

/-- The word in front. A date takes in a time that follows after one blank. -/
def word (cs : List Char) : List Char × List Char :=
  let first := cs.takeWhile isWordChar
  let rest := cs.dropWhile isWordChar
  match rest with
  | ' ' :: c :: more =>
    if date? first = some [] && c.isDigit then
      (first ++ ' ' :: (c :: more).takeWhile isWordChar, (c :: more).dropWhile isWordChar)
    else (first, rest)
  | _ => (first, rest)

end Metaobject.Toml

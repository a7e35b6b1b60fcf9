import Metaobject.Decimal.Shortest
import Metaobject.Tree.Basic

/-!
# The text of an expression

A one-line, source-like rendering used in messages. Closures are abbreviated, field references show
only the field's name, and string literals are quoted but not escaped.
-/

namespace Metaobject

def Constant.text : Constant → String
  | null => "null"
  | bool b => if b then "true" else "false"
  | char c => String.ofList ['\'', c, '\'']
  | int i => toString i
  | long i => toString i ++ "L"
  | float bits => Decimal.BinaryFormat.single.text bits.toNat ++ "f"
  | double bits => Decimal.BinaryFormat.double.text bits.toNat ++ "d"
  | string s => "\"" ++ s ++ "\""

def BinaryOp.text : BinaryOp → String
  | add => "+"
  | sub => "-"
  | eq => "=="
  | ne => "!="
  | lt => "<"
  | le => "<="
  | gt => ">"
  | ge => ">="

/-- Texts with a comma and a blank between them. -/
def commaSeparated (texts : List String) : String := ", ".intercalate texts

mutual

/-- The text of an expression. -/
def Expr.text : Expr → String
  | .constant v _ => v.text
  | .var n _ _ => n
  | .property o n _ => o.text ++ "." ++ n
  | .field _ n _ => n
  | .classRef ty _ => ty.text
  | .closure _ _ _ _ => "\x7b -> ... \x7d"
  | .list es _ => "[" ++ commaSeparated (Expr.texts es) ++ "]"
  | .map [] _ => "[:]"
  | .map es _ => "[" ++ commaSeparated (MapEntry.texts es) ++ "]"
  | .entry e => e.text
  | .annotationUse a => "@" ++ a.type.text
  | .call o m args implicitThis _ _ _ _ =>
    (match m with
      | .named n => if implicitThis then n else o.text ++ "." ++ n
      | .computed e => o.text ++ ".\"$" ++ e.text ++ "\"")
    ++ "(" ++ commaSeparated (Expr.texts args) ++ ")"
  | .staticCall _ owner n args _ _ =>
    owner ++ "." ++ n ++ "(" ++ commaSeparated (Expr.texts args) ++ ")"
  | .construct kind args _ _ =>
    (match kind with
      | .new ty => "new " ++ ty.text
      | .super => "super"
      | .this => "this")
    ++ "(" ++ commaSeparated (Expr.texts args) ++ ")"
  | .binary o l r _ => "(" ++ l.text ++ " " ++ o.text ++ " " ++ r.text ++ ")"
  | .ternary c t e _ => "(" ++ c.text ++ " ? " ++ t.text ++ " : " ++ e.text ++ ")"
  | .index o i _ => o.text ++ "[" ++ i.text ++ "]"
  | .spread e _ => "*" ++ e.text
  | .array ty es _ => "new " ++ ty.text ++ "[]\x7b" ++ commaSeparated (Expr.texts es) ++ "\x7d"
  | .assign t v _ => t.text ++ " = " ++ v.text

/-- The texts of several expressions. -/
def Expr.texts : List Expr → List String
  | [] => []
  | e :: es => e.text :: Expr.texts es

/-- The text of one map entry. -/
def MapEntry.text : MapEntry → String
  | ⟨k, v, _⟩ => k.text ++ ": " ++ v.text

/-- The texts of several map entries. -/
def MapEntry.texts : List MapEntry → List String
  | [] => []
  | e :: es => e.text :: MapEntry.texts es

end

end Metaobject

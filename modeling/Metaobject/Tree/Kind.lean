import Metaobject.Tree.Basic

/-!
# Words for kinds of nodes

One word for each kind of expression and statement, used where trees are written as documents or
traced.
-/

namespace Metaobject

def Constant.kindWord : Constant → String
  | null => "null"
  | bool _ => "bool"
  | char _ => "char"
  | int _ => "int"
  | long _ => "long"
  | float _ => "float"
  | double _ => "double"
  | string _ => "str"

def ConstructorKind.word : ConstructorKind → String
  | new _ => "new"
  | super => "super"
  | this => "this"

def Expr.kindWord : Expr → String
  | constant v _ => v.kindWord
  | var .. => "var"
  | property .. => "prop"
  | field .. => "field"
  | classRef .. => "class"
  | closure .. => "closure"
  | list .. => "list"
  | map .. => "map"
  | entry .. => "entry"
  | annotationUse .. => "anno"
  | call .. => "call"
  | staticCall .. => "scall"
  | construct .. => "ctor"
  | binary .. => "bin"
  | ternary .. => "tern"
  | index .. => "index"
  | spread .. => "spread"
  | array .. => "array"
  | assign .. => "assign"

def Stmt.kindWord : Stmt → String
  | expr .. => "expr"
  | declare .. => "decl"
  | ret .. => "return"
  | cond .. => "if"
  | throw .. => "throw"
  | block .. => "block"

end Metaobject

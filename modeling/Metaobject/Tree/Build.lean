import Metaobject.Tree.Basic

/-!
# Building tree nodes

Nodes for code that no source text produced. All of them carry the synthetic span, and calls carry
no dispatch marker.
-/

namespace Metaobject

namespace Expr

def int (value : Int32) : Expr := constant (.int value) .synthetic

def string (value : String) : Expr := constant (.string value) .synthetic

def null : Expr := constant .null .synthetic

/-- A variable that has not been looked up. -/
def name (n : String) : Expr := var n none .synthetic

/-- A parameter of the enclosing method. -/
def param (n : String) : Expr := var n (some .parameter) .synthetic

def thisVar : Expr := name "this"

def prop (object : Expr) (n : String) : Expr := property object n .synthetic

def fieldOf (owner : ClassId) (n : String) : Expr := field owner n .synthetic

def literal (type : TypeRef) : Expr := classRef type .synthetic

/-- The map literal without entries. -/
def emptyMap : Expr := map [] .synthetic

/-- `object.n(args)` -/
def callOn (object : Expr) (n : String) (args : List Expr) : Expr :=
  call object (.named n) args false false none none .synthetic

/-- `n(args)` on the current object. -/
def callThis (n : String) (args : List Expr) : Expr :=
  call thisVar (.named n) args true false none none .synthetic

def callStatic (owner : ClassId) (ownerName n : String) (args : List Expr) : Expr :=
  staticCall owner ownerName n args none .synthetic

def newInstance (type : TypeRef) (args : List Expr) : Expr :=
  construct (.new type) args none .synthetic

def superCall (args : List Expr) : Expr := construct .super args none .synthetic

def thisCall (args : List Expr) : Expr := construct .this args none .synthetic

def op (o : BinaryOp) (left right : Expr) : Expr := binary o left right .synthetic

def item (object position : Expr) : Expr := index object position .synthetic

def spreadOf (items : Expr) : Expr := spread items .synthetic

def arrayOf (elementType : TypeRef) (elements : List Expr) : Expr :=
  array elementType elements .synthetic

def set (target value : Expr) : Expr := assign target value .synthetic

end Expr

namespace Stmt

def declareAs (n : String) (type : TypeRef) (init : Expr) : Stmt :=
  declare n type (some init) .synthetic

def returning (value : Expr) : Stmt := ret (some value) .synthetic

def onlyIf (condition : Expr) (body : Block) : Stmt := cond condition body none .synthetic

def throwing (value : Expr) : Stmt := throw value .synthetic

end Stmt

namespace Param

/-- A parameter without default and annotations. -/
def plain (n : String) (type : TypeRef) : Param := ⟨n, type, none, [], .synthetic⟩

end Param

end Metaobject

import Metaobject.Dispatch.Strategy
import Metaobject.Source

/-!
# The tree

Expressions, statements, parameters and annotation usages of a compilation unit. The four refer to
each other: a closure holds statements and parameters, a parameter holds annotations and a default,
and an annotation holds expressions. A block is a list of statements. Call expressions carry the
dispatch marker chosen for them, once one is chosen.
-/

namespace Metaobject

/-- A literal value. Integers have 32 or 64 bits, and floating-point values are kept as their IEEE
bits. -/
inductive Constant where
  | null
  | bool (value : Bool)
  | char (value : Char)
  | int (value : Int32)
  | long (value : Int64)
  | float (bits : UInt32)
  | double (bits : UInt64)
  | string (value : String)
deriving DecidableEq, Repr, Inhabited

/-- What a variable name was found to mean. -/
inductive Binding where
  | field (owner : ClassId) (name : String)
  | parameter
  | localVar
deriving DecidableEq, Repr

/-- A variable that a closure takes from the scope around it. -/
structure Capture where
  name : String
  type : TypeRef
deriving DecidableEq, Repr

/-- Which constructor a constructor call is aimed at. -/
inductive ConstructorKind where
  | new (type : TypeRef)
  | super
  | this
deriving DecidableEq, Repr

inductive BinaryOp where
  | add | sub | eq | ne | lt | le | gt | ge
deriving DecidableEq, Repr

mutual

/-- An expression. -/
inductive Expr where
  | constant (value : Constant) (span : Span)
  /-- A variable, `this` and `super` included. -/
  | var (name : String) (binding : Option Binding) (span : Span)
  /-- `object.name` -/
  | property (object : Expr) (name : String) (span : Span)
  /-- A declared field of a known class. -/
  | field (owner : ClassId) (name : String) (span : Span)
  /-- A class literal. -/
  | classRef (type : TypeRef) (span : Span)
  | closure (params : List Param) (body : List Stmt) (captured : List Capture) (span : Span)
  | list (elements : List Expr) (span : Span)
  | map (entries : List MapEntry) (span : Span)
  /-- A named argument `key: value`. -/
  | entry (entry : MapEntry)
  /-- An annotation used as a value. -/
  | annotationUse (usage : AnnotationUse)
  | call (object : Expr) (method : MethodName) (args : List Expr) (implicitThis safe : Bool)
      (target : Option MethodTarget) (dispatch : Option Dispatch) (span : Span)
  | staticCall (owner : ClassId) (ownerName method : String) (args : List Expr)
      (dispatch : Option Dispatch) (span : Span)
  /-- `new T(...)`, `super(...)` or `this(...)` -/
  | construct (kind : ConstructorKind) (args : List Expr) (dispatch : Option Dispatch) (span : Span)
  | binary (op : BinaryOp) (left right : Expr) (span : Span)
  | ternary (condition whenTrue whenFalse : Expr) (span : Span)
  | index (object position : Expr) (span : Span)
  /-- `*items` -/
  | spread (items : Expr) (span : Span)
  /-- `new T[]` with its elements. -/
  | array (elementType : TypeRef) (elements : List Expr) (span : Span)
  | assign (target value : Expr) (span : Span)

/-- The name of a called method: written down, or computed by an expression. -/
inductive MethodName where
  | named (name : String)
  | computed (name : Expr)

/-- One `key: value` pair. -/
inductive MapEntry where
  | mk (key value : Expr) (span : Span)

/-- A statement. -/
inductive Stmt where
  | expr (e : Expr)
  | declare (name : String) (type : TypeRef) (init : Option Expr) (span : Span)
  | ret (value : Option Expr) (span : Span)
  | cond (condition : Expr) (thenBlock : List Stmt) (elseBlock : Option (List Stmt)) (span : Span)
  | throw (value : Expr) (span : Span)
  | block (body : List Stmt)

/-- A parameter of a method, constructor or closure. -/
structure Param where
  name : String
  type : TypeRef
  default : Option Expr
  annotations : List AnnotationUse
  span : Span

/-- An annotation usage. A member name occurs at most once; members keep the order in which they
were first written. -/
structure AnnotationUse where
  type : TypeRef
  members : List (String × Expr)
  /-- Set once the usage has been checked. -/
  validated : Bool
  span : Span

end

/-- A sequence of statements. -/
abbrev Block := List Stmt

instance : Inhabited Expr := ⟨.constant .null .synthetic⟩

instance : Inhabited Stmt := ⟨.block []⟩

namespace MapEntry

def key : MapEntry → Expr
  | mk key _ _ => key

def value : MapEntry → Expr
  | mk _ value _ => value

def span : MapEntry → Span
  | mk _ _ span => span

end MapEntry

namespace MethodName

/-- The name, where it is written down. -/
def known? : MethodName → Option String
  | named name => some name
  | computed _ => none

end MethodName

namespace Expr

/-- The span of an expression; an annotation used as a value has the span of the annotation. -/
def span : Expr → Span
  | constant _ s | var _ _ s | property _ _ s | field _ _ s | classRef _ s | closure _ _ _ s
  | list _ s | map _ s | call _ _ _ _ _ _ _ s | staticCall _ _ _ _ _ s | construct _ _ _ s
  | binary _ _ _ s | ternary _ _ _ s | index _ _ s | spread _ s | array _ _ s | assign _ _ s => s
  | entry e => e.span
  | annotationUse a => a.span

def constant? : Expr → Option Constant
  | constant v _ => some v
  | _ => none

def isConstant (e : Expr) : Bool := e.constant?.isSome

def isSpread : Expr → Bool
  | spread .. => true
  | _ => false

/-- Whether this is a `super(...)` call. -/
def isSuperConstruct : Expr → Bool
  | construct .super .. => true
  | _ => false

/-- Whether this is a `this(...)` call. -/
def isThisConstruct : Expr → Bool
  | construct .this .. => true
  | _ => false

/-- Whether this is the variable `super`. -/
def isSuper : Expr → Bool
  | var name _ _ => name == "super"
  | _ => false

end Expr

namespace Stmt

/-- The span of a statement; a nested block has none of its own. -/
def span : Stmt → Span
  | expr e => e.span
  | declare _ _ _ s | ret _ s | cond _ _ _ s | throw _ s => s
  | block _ => .synthetic

/-- The expression of an expression statement. -/
def expr? : Stmt → Option Expr
  | expr e => some e
  | _ => none

end Stmt

namespace AnnotationUse

def member? (a : AnnotationUse) (name : String) : Option Expr := a.members.lookup name

/-- `members` with the value of `name` replaced where it stands, or added at the end. -/
def putMember (name : String) (value : Expr) : List (String × Expr) → List (String × Expr)
  | [] => [(name, value)]
  | (n, v) :: rest => if n = name then (n, value) :: rest else (n, v) :: putMember name value rest

/-- Set the value of a member; a new member goes to the end. -/
def setMember (a : AnnotationUse) (name : String) (value : Expr) : AnnotationUse :=
  { a with members := putMember name value a.members }

end AnnotationUse

end Metaobject

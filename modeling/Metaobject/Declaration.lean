import Metaobject.Modifiers
import Metaobject.Tree.Basic

/-!
# Declarations

Classes and their members as they stand in a class table: fields, methods and constructors, each
with its modifiers and annotations. The passes transform these records; what a pass has already done
is written on them (`validated` on an annotation, `hiddenParams` on a constructor,
`definitionChecked` on a class).
-/

namespace Metaobject

/-- What kind of type a class declares. -/
inductive ClassKind where
  | ordinary
  | interface
  | annotationType
  | enum
  /-- The class body of a single enum constant. -/
  | constantBody
  | primitive
deriving DecidableEq, Repr, Inhabited

/-- A field. The initializer of an enum constant is its argument list. -/
structure Field where
  name : String
  modifiers : Modifiers
  type : TypeRef
  init : Option Expr := none
  annotations : List AnnotationUse := []
  span : Span := .synthetic

namespace Field

def isStatic (f : Field) : Bool := f.modifiers.isStatic

def isFinal (f : Field) : Bool := f.modifiers.isFinal

def isEnumConstant (f : Field) : Bool := f.modifiers.isEnum

end Field

/-- A method. On an annotation type every method declares an attribute, and `default` is the
attribute's default. -/
structure Method where
  name : String
  modifiers : Modifiers
  returnType : TypeRef
  params : List Param := []
  body : Option Block := none
  default : Option Expr := none
  annotations : List AnnotationUse := []
  span : Span := .synthetic

namespace Method

def arity (m : Method) : Nat := m.params.length

def isStatic (m : Method) : Bool := m.modifiers.isStatic

def isAbstract (m : Method) : Bool := m.modifiers.isAbstract

/-- Return type, name and parameter types, as messages show them. -/
def descriptor (m : Method) : String :=
  m.returnType.text ++ " " ++ m.name ++ "(" ++ ", ".intercalate (m.params.map (·.type.text)) ++ ")"

/-- An attribute of an annotation type. -/
def ofAttribute (name : String) (type : TypeRef) (default : Option Expr) : Method where
  name
  modifiers := { isPublic := true, isAbstract := true }
  returnType := type
  default

end Method

/-- A constructor. -/
structure Constructor where
  modifiers : Modifiers
  params : List Param
  body : Block
  /-- Set once the hidden name and ordinal parameters of an enum constructor stand in front. -/
  hiddenParams : Bool := false
  annotations : List AnnotationUse := []
  span : Span := .synthetic

namespace Constructor

def arity (c : Constructor) : Nat := c.params.length

end Constructor

/-- A class, interface, annotation type, enum or primitive. -/
structure ClassDecl where
  /-- The number of the class in its table. -/
  id : ClassId
  name : String
  kind : ClassKind
  modifiers : Modifiers
  superclass : Option TypeRef := none
  interfaces : List TypeRef := []
  fields : List Field := []
  methods : List Method := []
  constructors : List Constructor := []
  /-- Statements of the static initializer, in execution order. -/
  staticInit : Block := []
  annotations : List AnnotationUse := []
  /-- Whether name resolution has given the class a variable scope. -/
  hasScope : Bool := true
  /-- The enclosing class of an inner class. -/
  outer : Option ClassId := none
  /-- Precompiled classes are never changed. -/
  builtin : Bool := false
  /-- Set once the attribute defaults of an annotation type have been checked for cycles. -/
  definitionChecked : Bool := false
  span : Span := .synthetic

/-- The modifiers a class of this kind has unless others are written. -/
def ClassKind.defaultModifiers : ClassKind → Modifiers
  | .interface => { isPublic := true, isInterface := true, isAbstract := true }
  | .annotationType =>
    { isPublic := true, isInterface := true, isAbstract := true, isAnnotationType := true }
  | .enum => { isPublic := true, isFinal := true, isEnum := true }
  | .constantBody => { isFinal := true, isEnum := true }
  | .ordinary | .primitive => .publicOnly

namespace ClassDecl

/-- A class without members; its number is given by the table it is added to. -/
def empty (name : String) (kind : ClassKind) : ClassDecl where
  id := 0
  name
  kind
  modifiers := kind.defaultModifiers

instance : Inhabited ClassDecl := ⟨empty "" .ordinary⟩

def isInterface (c : ClassDecl) : Bool := c.kind = .interface || c.kind = .annotationType

def isAnnotationType (c : ClassDecl) : Bool := c.kind = .annotationType

/-- Enums and the bodies of enum constants. -/
def isEnum (c : ClassDecl) : Bool := c.kind = .enum || c.kind = .constantBody

/-- The body of an enum constant that name resolution has not reached yet. -/
def isUnscopedBody (c : ClassDecl) : Bool := c.kind = .constantBody && !c.hasScope

def isPrimitive (c : ClassDecl) : Bool := c.kind = .primitive

def isAbstract (c : ClassDecl) : Bool := c.modifiers.isAbstract

/-- The class of the resolved superclass. -/
def superId? (c : ClassDecl) : Option ClassId := c.superclass.bind TypeRef.classId?

/-- The classes of the resolved superclass and interfaces. -/
def parentIds (c : ClassDecl) : List ClassId :=
  c.superId?.toList ++ c.interfaces.filterMap TypeRef.classId?

/-- The first field of this name. -/
def field? (c : ClassDecl) (name : String) : Option Field := c.fields.find? (·.name == name)

/-- The first method of this name and number of parameters. -/
def method? (c : ClassDecl) (name : String) (arity : Nat) : Option Method :=
  c.methods.find? fun m => m.name == name && m.arity == arity

def hasMethod (c : ClassDecl) (name : String) (arity : Nat) : Bool := (c.method? name arity).isSome

/-- The fields that declare enum constants, in declaration order. -/
def enumConstants (c : ClassDecl) : List Field := c.fields.filter (·.isEnumConstant)

def addField (c : ClassDecl) (f : Field) : ClassDecl := { c with fields := c.fields ++ [f] }

def addMethod (c : ClassDecl) (m : Method) : ClassDecl := { c with methods := c.methods ++ [m] }

def addConstructor (c : ClassDecl) (k : Constructor) : ClassDecl :=
  { c with constructors := c.constructors ++ [k] }

def annotate (c : ClassDecl) (a : AnnotationUse) : ClassDecl :=
  { c with annotations := c.annotations ++ [a] }

/-- Change the first field of this name, if there is one. -/
def changeField? (c : ClassDecl) (name : String) (change : Field → Field) : Option ClassDecl :=
  (c.fields.findIdx? (·.name == name)).map fun i => { c with fields := c.fields.modify i change }

/-- Change the first method of this name and number of parameters, if there is one. -/
def changeMethod? (c : ClassDecl) (name : String) (arity : Nat) (change : Method → Method) :
    Option ClassDecl :=
  (c.methods.findIdx? fun m => m.name == name && m.arity == arity).map fun i =>
    { c with methods := c.methods.modify i change }

end ClassDecl

end Metaobject

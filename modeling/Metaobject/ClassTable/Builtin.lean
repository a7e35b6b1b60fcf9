import Metaobject.ClassTable.Basic

/-!
# Built-in classes

Every class table starts with the same twenty-five classes under the same numbers: the root class,
strings, class objects, numbers, the eight primitives with their wrappers, and the base classes of
closures and enums.
-/

namespace Metaobject

/-! ## Numbers -/

namespace Builtin

def object : ClassId := 0

def string : ClassId := 1

/-- The class of class objects. -/
def classObject : ClassId := 2

def number : ClassId := 3

def annotationBase : ClassId := 4

def map : ClassId := 5

def boolean : ClassId := 6

def char : ClassId := 8

def int : ClassId := 14

def long : ClassId := 16

def float : ClassId := 18

def double : ClassId := 20

def closure : ClassId := 22

/-- The base class of all enums. -/
def enumBase : ClassId := 23

def illegalArgument : ClassId := 24

/-- The primitives, each with its wrapper. -/
def wrappers : List (ClassId × ClassId) :=
  [(6, 7), (8, 9), (10, 11), (12, 13), (14, 15), (16, 17), (18, 19), (20, 21)]

/-- The wrapper of a primitive; every other class is its own. -/
def wrapperOf (id : ClassId) : ClassId := (wrappers.lookup id).getD id

def isWrapper (id : ClassId) : Bool := wrappers.any (·.2 == id)

/-- The class that a literal boxes to; the null literal has none. -/
def constantClass : Constant → Option ClassId
  | .null => none
  | .string _ => some string
  | .bool _ => some (wrapperOf boolean)
  | .char _ => some (wrapperOf char)
  | .int _ => some (wrapperOf int)
  | .long _ => some (wrapperOf long)
  | .float _ => some (wrapperOf float)
  | .double _ => some (wrapperOf double)

/-! ## Declarations -/

def objectType : TypeRef := .resolved object "Object"

def stringType : TypeRef := .resolved string "String"

def classType : TypeRef := .resolved classObject "Class"

def numberType : TypeRef := .resolved number "Number"

def intType : TypeRef := .resolved int "int"

private def publicFinal : Modifiers where
  isPublic := true
  isFinal := true

private def publicAbstract : Modifiers where
  isPublic := true
  isAbstract := true

private def parameter (name : String) (type : TypeRef) : Param := ⟨name, type, none, [], .synthetic⟩

private def declare (name : String) (superclass : Option TypeRef)
    (modifiers : Modifiers) : ClassDecl :=
  { ClassDecl.empty name .ordinary with superclass, modifiers }

private def interface (name : String) : ClassDecl := ClassDecl.empty name .interface

/-- A primitive and its wrapper. -/
private def primitivePair (name wrapper : String) (superclass : TypeRef) : List ClassDecl :=
  [{ ClassDecl.empty name .primitive with modifiers := publicFinal },
    declare wrapper (some superclass) publicFinal]

private def closureClass : ClassDecl :=
  { declare "Closure" (some objectType) publicAbstract with
    constructors :=
      [⟨.publicOnly, [parameter "owner" objectType, parameter "thisObject" objectType], [],
      false, [], .synthetic⟩]
    methods := [{
      name := "call"
      modifiers := { isPublic := true, isVarargs := true }
      returnType := objectType
      params := [parameter "args" (.array objectType)]
      body := some [] }] }

private def enumClass : ClassDecl :=
  { declare "Enum" (some objectType) publicAbstract with
    constructors := [
      ⟨{ isProtected := true }, [parameter "name" stringType, parameter "ordinal" intType], [],
        false, [], .synthetic⟩]
    methods := [
      { name := "ordinal", modifiers := publicFinal, returnType := intType, body := some [] },
      { name := "name", modifiers := publicFinal, returnType := stringType, body := some [] },
      { name := "valueOf", modifiers := { isPublic := true, isStatic := true },
        returnType := objectType,
        params := [parameter "enumType" classType, parameter "name" stringType],
        body := some [] }] }

private def illegalArgumentClass : ClassDecl :=
  { declare "IllegalArgumentException" (some objectType) .publicOnly with
    constructors := [⟨.publicOnly, [parameter "message" stringType], [], false, [], .synthetic⟩] }

/-- The built-in classes in the order of their numbers. -/
def declarations : List ClassDecl :=
  [declare "Object" none .publicOnly, declare "String" (some objectType) publicFinal,
    declare "Class" (some objectType) .publicOnly,
    declare "Number" (some objectType) publicAbstract, interface "Annotation", interface "Map"]
  ++ primitivePair "boolean" "Boolean" objectType ++ primitivePair "char" "Character" objectType
  ++ primitivePair "byte" "Byte" numberType ++ primitivePair "short" "Short" numberType
  ++ primitivePair "int" "Integer" numberType ++ primitivePair "long" "Long" numberType
  ++ primitivePair "float" "Float" numberType ++ primitivePair "double" "Double" numberType
  ++ [closureClass, enumClass, illegalArgumentClass]

end Builtin

/-- The table of a unit without source classes. -/
def ClassTable.seeded : ClassTable :=
  Builtin.declarations.foldl (fun t c => t.add { c with builtin := true, hasScope := false }) ⟨[]⟩

/-- Primitives, their wrappers and the string class: the types of simple literals. -/
def ClassTable.isSimple (t : ClassTable) (id : ClassId) : Bool :=
  t.isPrimitive id || Builtin.isWrapper id || id == Builtin.string

end Metaobject

import Metaobject.Document.Dispatch
import Metaobject.Tree.Kind
import Metaobject.Tree.Printer

/-!
# Documents of trees

Every node is an object: `k` is the word for its kind, `s` its span, and the other entries are its
parts. What a node does not have is left out; lists of arguments and elements are always there.
Numbers that need more than 53 bits, and the bits of floating-point literals, are written as texts.
-/

namespace Metaobject

def Constant.entries : Constant → List (String × Json)
  | null => []
  | bool b => [("v", .bool b)]
  | char c => [("v", .string (String.singleton c))]
  | int n => [("v", .number n.toInt)]
  | long n => [("v", .string (toString n))]
  | float bits => [("v", .string (toString bits.toNat))]
  | double bits => [("v", .string (toString bits.toNat))]
  | string s => [("v", .string s)]

def Binding.document : Binding → Json
  | parameter => .string "param"
  | localVar => .string "local"
  | field owner name => .object [("owner", .number owner), ("name", .string name)]

def Capture.document (c : Capture) : Json :=
  .object [("name", .string c.name), ("ty", c.type.document)]

/-- The entry for the type that a constructor call creates. -/
def ConstructorKind.typeEntry : ConstructorKind → List (String × Json)
  | new type => [("ty", type.document)]
  | _ => []

/-- An object for a node of the given kind. -/
def nodeDocument (kind : String) (parts : List (String × Json)) (span : Span) : Json :=
  .object (("k", .string kind) :: parts ++ span.entry)

/-- The entry for the dispatch marker of a call. -/
def dispatchEntry (d : Option Dispatch) : List (String × Json) :=
  Json.optional "dispatch" Dispatch.document d

mutual

/-- The document of an expression. -/
def Expr.document : Expr → Json
  | .constant v s => nodeDocument v.kindWord v.entries s
  | .var name binding s =>
    nodeDocument "var" (("name", .string name) :: Json.optional "acc" Binding.document binding) s
  | .property o name s => nodeDocument "prop" [("obj", o.document), ("name", .string name)] s
  | .field owner name s => nodeDocument "field" [("owner", .number owner), ("name", .string name)] s
  | .classRef type s => nodeDocument "class" [("ty", type.document)] s
  | .closure params body captured s =>
    let ps := Param.documents params
    nodeDocument "closure" (("body", .array (Stmt.documents body)) :: Json.nonempty "params" id ps
      ++ Json.nonempty "captured" Capture.document captured) s
  | .list es s => nodeDocument "list" [("els", .array (Expr.documents es))] s
  | .map es s => nodeDocument "map" [("entries", .array (MapEntry.documents es))] s
  | .entry e => e.document
  | .annotationUse a => .object [("k", .string "anno"), ("a", a.document)]
  | .call o m args implicitThis safe target dispatch s =>
    nodeDocument "call"
      ([("obj", o.document), ("name", m.document), ("args", .array (Expr.documents args))]
      ++ Json.flagged "implicit" implicitThis ++ Json.flagged "safe" safe
      ++ Json.optional "target" MethodTarget.document target ++ dispatchEntry dispatch) s
  | .staticCall owner ownerName method args dispatch s =>
    nodeDocument "scall"
      ([("owner", .number owner), ("owner_name", .string ownerName), ("method", .string method),
      ("args", .array (Expr.documents args))] ++ dispatchEntry dispatch) s
  | .construct kind args dispatch s =>
    nodeDocument "ctor"
      ([("kind", .string kind.word), ("args", .array (Expr.documents args))] ++ kind.typeEntry
      ++ dispatchEntry dispatch) s
  | .binary o l r s =>
    nodeDocument "bin" [("op", .string o.text), ("l", l.document), ("r", r.document)] s
  | .ternary c t e s =>
    nodeDocument "tern" [("c", c.document), ("t", t.document), ("e", e.document)] s
  | .index o i s => nodeDocument "index" [("obj", o.document), ("i", i.document)] s
  | .spread e s => nodeDocument "spread" [("e", e.document)] s
  | .array type es s =>
    nodeDocument "array" [("ty", type.document), ("els", .array (Expr.documents es))] s
  | .assign target v s =>
    nodeDocument "assign" [("target", target.document), ("value", v.document)] s

def Expr.documents : List Expr → List Json
  | [] => []
  | e :: es => e.document :: Expr.documents es

/-- The document of a method name: a text, or an object with the expression that computes it. -/
def MethodName.document : MethodName → Json
  | .named n => .string n
  | .computed e => .object [("dyn", e.document)]

def MapEntry.document : MapEntry → Json
  | ⟨k, v, s⟩ => nodeDocument "entry" [("key", k.document), ("value", v.document)] s

def MapEntry.documents : List MapEntry → List Json
  | [] => []
  | e :: es => e.document :: MapEntry.documents es

/-- The document of a statement. -/
def Stmt.document : Stmt → Json
  | .expr e => nodeDocument "expr" [("e", e.document)] .synthetic
  | .declare name type none s =>
    nodeDocument "decl" [("name", .string name), ("ty", type.document)] s
  | .declare name type (some e) s =>
    nodeDocument "decl" [("name", .string name), ("ty", type.document), ("init", e.document)] s
  | .ret none s => nodeDocument "return" [] s
  | .ret (some e) s => nodeDocument "return" [("v", e.document)] s
  | .cond c t none s => nodeDocument "if" [("c", c.document), ("then", .array (Stmt.documents t))] s
  | .cond c t (some e) s =>
    nodeDocument "if"
      [("c", c.document), ("then", .array (Stmt.documents t)), ("else", .array (Stmt.documents e))]
        s
  | .throw e s => nodeDocument "throw" [("v", e.document)] s
  | .block b => nodeDocument "block" [("b", .array (Stmt.documents b))] .synthetic

def Stmt.documents : List Stmt → List Json
  | [] => []
  | s :: ss => s.document :: Stmt.documents ss

def Param.document : Param → Json
  | ⟨name, type, default, annotations, s⟩ =>
    let value := match default with
      | none => []
      | some e => [("default", e.document)]
    let uses := AnnotationUse.documents annotations
    .object ([("name", .string name), ("ty", type.document)] ++ value
    ++ Json.nonempty "annos" id uses ++ s.entry)

def Param.documents : List Param → List Json
  | [] => []
  | p :: ps => p.document :: Param.documents ps

def AnnotationUse.document : AnnotationUse → Json
  | ⟨type, members, validated, s⟩ =>
    .object ([("ty", type.document), ("members", .array (AnnotationUse.memberDocuments members)),
      ("validated", .bool validated)] ++ s.entry)

def AnnotationUse.memberDocuments : List (String × Expr) → List Json
  | [] => []
  | (name, value) :: ms => .array [.string name, value.document] :: AnnotationUse.memberDocuments ms

def AnnotationUse.documents : List AnnotationUse → List Json
  | [] => []
  | a :: as => a.document :: AnnotationUse.documents as

end

def Block.document (b : Block) : Json := .array (Stmt.documents b)

end Metaobject

import Metaobject.Proofs.ClassTable.WellFormed

/-!
# Class numbers in code, with those of calls

The target and the marker of a call hold class numbers too. `mentions` lists the class numbers in
code as `classIds` does, and with `calls` also these.

* `ClassDecl.mentions_false`: without the calls the numbers are those of `classIds`.
* `ClassTable.Confined`: every number that is mentioned in a table belongs to a class. Without the
  calls this is `ClassTable.Closed`.
-/

namespace Metaobject

/-! ## The numbers of a call -/

/-- The class numbers in a marker. -/
def Dispatch.classIds : Dispatch → List ClassId
  | .direct target => [target.owner]
  | .directConstructor owner _ => [owner]
  | .callSite _ key => key.receiver.elim [] TypeRef.classIds
  | .closureField _ | .reflective _ => []

/-- The class numbers in the target and the marker of a call, if calls count. -/
def callIds (calls : Bool) (target : Option MethodTarget) (d : Option Dispatch) : List ClassId :=
  if calls then target.elim [] (fun target => [target.owner]) ++ d.elim [] Dispatch.classIds else []

/-! ## The numbers in a tree -/

mutual

/-- The class numbers that an expression mentions. -/
def Expr.mentions (calls : Bool) : Expr → List ClassId
  | .constant .. => []
  | .var _ none _ => []
  | .var _ (some b) _ => b.classIds
  | .property o _ _ => o.mentions calls
  | .field owner _ _ => [owner]
  | .classRef type _ => type.classIds
  | .closure ps body cs _ =>
    Param.mentionsAll calls ps ++ Stmt.mentionsAll calls body ++ cs.flatMap (·.type.classIds)
  | .list es _ => Expr.mentionsAll calls es
  | .map es _ => MapEntry.mentionsAll calls es
  | .entry e => e.mentions calls
  | .annotationUse a => a.mentions calls
  | .call o n args _ _ target d _ =>
    o.mentions calls ++ n.mentions calls ++ Expr.mentionsAll calls args ++ callIds calls target d
  | .staticCall owner _ _ args d _ => owner :: Expr.mentionsAll calls args ++ callIds calls none d
  | .construct kind args d _ => kind.classIds ++ Expr.mentionsAll calls args ++ callIds calls none d
  | .binary _ l r _ => l.mentions calls ++ r.mentions calls
  | .ternary c t e _ => c.mentions calls ++ t.mentions calls ++ e.mentions calls
  | .index o i _ => o.mentions calls ++ i.mentions calls
  | .spread e _ => e.mentions calls
  | .array type es _ => type.classIds ++ Expr.mentionsAll calls es
  | .assign t v _ => t.mentions calls ++ v.mentions calls

/-- The classes that some expressions mention. -/
def Expr.mentionsAll (calls : Bool) : List Expr → List ClassId
  | [] => []
  | e :: es => e.mentions calls ++ Expr.mentionsAll calls es

/-- The classes that a computed name mentions. -/
def MethodName.mentions (calls : Bool) : MethodName → List ClassId
  | .named _ => []
  | .computed e => e.mentions calls

/-- The classes that an entry mentions in its key and its value. -/
def MapEntry.mentions (calls : Bool) : MapEntry → List ClassId
  | ⟨k, v, _⟩ => k.mentions calls ++ v.mentions calls

def MapEntry.mentionsAll (calls : Bool) : List MapEntry → List ClassId
  | [] => []
  | e :: es => e.mentions calls ++ MapEntry.mentionsAll calls es

/-- The class numbers that a statement mentions. -/
def Stmt.mentions (calls : Bool) : Stmt → List ClassId
  | .expr e => e.mentions calls
  | .declare _ type none _ => type.classIds
  | .declare _ type (some e) _ => type.classIds ++ e.mentions calls
  | .ret none _ => []
  | .ret (some e) _ => e.mentions calls
  | .cond c t none _ => c.mentions calls ++ Stmt.mentionsAll calls t
  | .cond c t (some e) _ => c.mentions calls ++ Stmt.mentionsAll calls t ++ Stmt.mentionsAll calls e
  | .throw e _ => e.mentions calls
  | .block b => Stmt.mentionsAll calls b

/-- The classes that some statements mention. -/
def Stmt.mentionsAll (calls : Bool) : List Stmt → List ClassId
  | [] => []
  | s :: ss => s.mentions calls ++ Stmt.mentionsAll calls ss

/-- The class numbers that a parameter mentions. -/
def Param.mentions (calls : Bool) : Param → List ClassId
  | ⟨_, type, none, as, _⟩ => type.classIds ++ AnnotationUse.mentionsAll calls as
  | ⟨_, type, some e, as, _⟩ =>
    type.classIds ++ e.mentions calls ++ AnnotationUse.mentionsAll calls as

/-- The classes that some parameters mention. -/
def Param.mentionsAll (calls : Bool) : List Param → List ClassId
  | [] => []
  | p :: ps => p.mentions calls ++ Param.mentionsAll calls ps

/-- The class numbers that an annotation usage mentions. -/
def AnnotationUse.mentions (calls : Bool) : AnnotationUse → List ClassId
  | ⟨type, members, _, _⟩ => type.classIds ++ AnnotationUse.memberMentions calls members

/-- The classes that the values of some members mention. -/
def AnnotationUse.memberMentions (calls : Bool) : List (String × Expr) → List ClassId
  | [] => []
  | (_, e) :: rest => e.mentions calls ++ AnnotationUse.memberMentions calls rest

/-- The classes that some usages mention. -/
def AnnotationUse.mentionsAll (calls : Bool) : List AnnotationUse → List ClassId
  | [] => []
  | a :: as => a.mentions calls ++ AnnotationUse.mentionsAll calls as

end

/-! ## The numbers in a class -/

section

variable (calls : Bool)

/-- The classes in the type, the initializer and the annotations of a field. -/
def Field.mentions (f : Field) : List ClassId :=
  f.type.classIds ++ f.init.elim [] (Expr.mentions calls)
    ++ AnnotationUse.mentionsAll calls f.annotations

/-- The classes in the signature, the code and the annotations of a method. -/
def Method.mentions (m : Method) : List ClassId :=
  m.returnType.classIds ++ Param.mentionsAll calls m.params ++ m.body.elim []
    (Stmt.mentionsAll calls)
    ++ m.default.elim [] (Expr.mentions calls) ++ AnnotationUse.mentionsAll calls m.annotations

/-- The classes in the parameters, the code and the annotations of a constructor. -/
def Constructor.mentions (k : Constructor) : List ClassId :=
  Param.mentionsAll calls k.params ++ Stmt.mentionsAll calls k.body ++ AnnotationUse.mentionsAll
    calls k.annotations

/-- The class numbers that a class mentions. -/
def ClassDecl.mentions (c : ClassDecl) : List ClassId :=
  c.superclass.elim [] TypeRef.classIds ++ c.interfaces.flatMap TypeRef.classIds ++ c.outer.toList
    ++ c.fields.flatMap (Field.mentions calls) ++ c.methods.flatMap (Method.mentions calls)
    ++ c.constructors.flatMap (Constructor.mentions calls) ++ Stmt.mentionsAll calls c.staticInit
    ++ AnnotationUse.mentionsAll calls c.annotations

end

/-! ## Without the calls -/

@[simp]
theorem callIds_false (target : Option MethodTarget) (d : Option Dispatch) :
    callIds false target d = [] :=
  rfl

@[simp]
theorem callIds_none (calls : Bool) : callIds calls none none = [] := by cases calls <;> rfl

mutual

/-- Without the calls, an expression mentions the classes that it names. -/
theorem Expr.mentions_false : (e : Expr) → e.mentions false = e.classIds
  | .constant .. | .var _ none _ | .var _ (some _) _ | .field .. | .classRef .. => rfl
  | .property o _ _ => o.mentions_false
  | .closure ps body _ _ => by
    rw [Expr.mentions, Expr.classIds, Param.mentionsAll_false ps, Stmt.mentionsAll_false body]
  | .list es _ => Expr.mentionsAll_false es
  | .map es _ => MapEntry.mentionsAll_false es
  | .entry e => e.mentions_false
  | .annotationUse a => a.mentions_false
  | .call o n args _ _ _ _ _ => by
    rw [Expr.mentions, Expr.classIds, o.mentions_false, n.mentions_false,
      Expr.mentionsAll_false args, callIds_false, List.append_nil]
  | .staticCall _ _ _ args _ _ => by
    rw [Expr.mentions, Expr.classIds, Expr.mentionsAll_false args, callIds_false, List.append_nil]
  | .construct _ args _ _ => by
    rw [Expr.mentions, Expr.classIds, Expr.mentionsAll_false args, callIds_false, List.append_nil]
  | .binary _ l r _ => congrArg₂ (· ++ ·) l.mentions_false r.mentions_false
  | .ternary c t e _ => by
    rw [Expr.mentions, Expr.classIds, c.mentions_false, t.mentions_false, e.mentions_false]
  | .index o i _ => congrArg₂ (· ++ ·) o.mentions_false i.mentions_false
  | .spread e _ => e.mentions_false
  | .array type es _ => congrArg (type.classIds ++ ·) (Expr.mentionsAll_false es)
  | .assign t v _ => congrArg₂ (· ++ ·) t.mentions_false v.mentions_false

theorem Expr.mentionsAll_false : (es : List Expr) → Expr.mentionsAll false es = Expr.classIdsAll es
  | [] => rfl
  | e :: es => congrArg₂ (· ++ ·) e.mentions_false (Expr.mentionsAll_false es)

theorem MethodName.mentions_false : (n : MethodName) → n.mentions false = n.classIds
  | .named _ => rfl
  | .computed e => e.mentions_false

theorem MapEntry.mentions_false : (e : MapEntry) → e.mentions false = e.classIds
  | ⟨k, v, _⟩ => congrArg₂ (· ++ ·) k.mentions_false v.mentions_false

theorem MapEntry.mentionsAll_false :
    (es : List MapEntry) → MapEntry.mentionsAll false es = MapEntry.classIdsAll es
  | [] => rfl
  | e :: es => congrArg₂ (· ++ ·) e.mentions_false (MapEntry.mentionsAll_false es)

/-- Without the calls, a statement mentions the classes that it names. -/
theorem Stmt.mentions_false : (s : Stmt) → s.mentions false = s.classIds
  | .expr e => e.mentions_false
  | .declare _ _ none _ | .ret none _ => rfl
  | .declare _ type (some e) _ => congrArg (type.classIds ++ ·) e.mentions_false
  | .ret (some e) _ => e.mentions_false
  | .cond c t none _ => congrArg₂ (· ++ ·) c.mentions_false (Stmt.mentionsAll_false t)
  | .cond c t (some e) _ => by
    rw [Stmt.mentions, Stmt.classIds, c.mentions_false, Stmt.mentionsAll_false t,
      Stmt.mentionsAll_false e]
  | .throw e _ => e.mentions_false
  | .block b => Stmt.mentionsAll_false b

theorem Stmt.mentionsAll_false : (ss : List Stmt) → Stmt.mentionsAll false ss = Stmt.classIdsAll ss
  | [] => rfl
  | s :: ss => congrArg₂ (· ++ ·) s.mentions_false (Stmt.mentionsAll_false ss)

/-- Without the calls, a parameter mentions the classes that it names. -/
theorem Param.mentions_false : (p : Param) → p.mentions false = p.classIds
  | ⟨_, type, none, as, _⟩ => congrArg (type.classIds ++ ·) (AnnotationUse.mentionsAll_false as)
  | ⟨_, type, some e, as, _⟩ => by
    rw [Param.mentions, Param.classIds, e.mentions_false, AnnotationUse.mentionsAll_false as]

theorem Param.mentionsAll_false :
    (ps : List Param) → Param.mentionsAll false ps = Param.classIdsAll ps
  | [] => rfl
  | p :: ps => congrArg₂ (· ++ ·) p.mentions_false (Param.mentionsAll_false ps)

/-- Without the calls, a usage mentions the classes that it names. -/
theorem AnnotationUse.mentions_false : (a : AnnotationUse) → a.mentions false = a.classIds
  | ⟨type, members, _, _⟩ =>
    congrArg (type.classIds ++ ·) (AnnotationUse.memberMentions_false members)

theorem AnnotationUse.memberMentions_false : (members : List (String × Expr)) →
    AnnotationUse.memberMentions false members = AnnotationUse.memberIds members
  | [] => rfl
  | (_, e) :: rest => congrArg₂ (· ++ ·) e.mentions_false (AnnotationUse.memberMentions_false rest)

theorem AnnotationUse.mentionsAll_false : (as : List AnnotationUse) →
    AnnotationUse.mentionsAll false as = AnnotationUse.classIdsAll as
  | [] => rfl
  | a :: as => congrArg₂ (· ++ ·) a.mentions_false (AnnotationUse.mentionsAll_false as)

end

/-- Without the calls the numbers are those that a well-formed table is about. -/
theorem ClassDecl.mentions_false (c : ClassDecl) : c.mentions false = c.classIds := by
  have hexpr : Expr.mentions false = Expr.classIds := funext Expr.mentions_false
  have hblock : Stmt.mentionsAll false = Stmt.classIdsAll := funext Stmt.mentionsAll_false
  have hfield : Field.mentions false = Field.classIds := by
    funext f
    rw [Field.mentions, Field.classIds, hexpr, AnnotationUse.mentionsAll_false]
  have hmethod : Method.mentions false = Method.classIds := by
    funext m
    rw [Method.mentions, Method.classIds, hexpr, hblock, Param.mentionsAll_false,
      AnnotationUse.mentionsAll_false]
  have hconstructor : Constructor.mentions false = Constructor.classIds := by
    funext k
    rw [Constructor.mentions, Constructor.classIds, hblock, Param.mentionsAll_false,
      AnnotationUse.mentionsAll_false]
  rw [mentions, classIds, hfield, hmethod, hconstructor, hblock, AnnotationUse.mentionsAll_false]

/-! ## Numbers below a bound -/

/-- All numbers are below the bound. -/
def Below (n : Nat) (ids : List ClassId) : Prop := ∀ id ∈ ids, id < n

instance (n : Nat) (ids : List ClassId) : Decidable (Below n ids) :=
  inferInstanceAs (Decidable (∀ id ∈ ids, id < n))

section Below

variable {n : Nat}

@[simp]
theorem below_nil : Below n [] := by simp [Below]

@[simp]
theorem below_cons {id : ClassId} {ids : List ClassId} :
    Below n (id :: ids) ↔ id < n ∧ Below n ids :=
  List.forall_mem_cons

/-- All of a list is below the bound if both of its parts are. -/
@[simp]
theorem below_append {xs ys : List ClassId} : Below n (xs ++ ys) ↔ Below n xs ∧ Below n ys :=
  List.forall_mem_append

/-- All that is collected is below the bound if all that is collected from each element is. -/
@[simp]
theorem below_flatMap {α : Type} {f : α → List ClassId} {as : List α} :
    Below n (as.flatMap f) ↔ ∀ a ∈ as, Below n (f a) := by
  simp only [Below, List.mem_flatMap]
  exact ⟨fun h a ha id hid => h id ⟨a, ha, hid⟩, fun h id ⟨a, ha, hid⟩ => h a ha id hid⟩

variable {calls : Bool}

@[simp]
theorem Expr.below_mentionsAll {es : List Expr} :
    Below n (Expr.mentionsAll calls es) ↔ ∀ e ∈ es, Below n (e.mentions calls) := by
  induction es with
  | nil => simp [Expr.mentionsAll]
  | cons e es ih => simp [Expr.mentionsAll, ih]

@[simp]
theorem Stmt.below_mentionsAll {ss : List Stmt} :
    Below n (Stmt.mentionsAll calls ss) ↔ ∀ s ∈ ss, Below n (s.mentions calls) := by
  induction ss with
  | nil => simp [Stmt.mentionsAll]
  | cons s ss ih => simp [Stmt.mentionsAll, ih]

@[simp]
theorem Param.below_mentionsAll {ps : List Param} :
    Below n (Param.mentionsAll calls ps) ↔ ∀ p ∈ ps, Below n (p.mentions calls) := by
  induction ps with
  | nil => simp [Param.mentionsAll]
  | cons p ps ih => simp [Param.mentionsAll, ih]

@[simp]
theorem AnnotationUse.below_mentionsAll {as : List AnnotationUse} :
    Below n (AnnotationUse.mentionsAll calls as) ↔ ∀ a ∈ as, Below n (a.mentions calls) := by
  induction as with
  | nil => simp [AnnotationUse.mentionsAll]
  | cons a as ih => simp [AnnotationUse.mentionsAll, ih]

/-- A parameter stays below the bound with its type, its default and its usages. -/
theorem Param.below_mentions {p : Param} : Below n (p.mentions calls) ↔ Below n p.type.classIds ∧
    Below n (p.default.elim [] (Expr.mentions calls)) ∧ ∀ a ∈ p.annotations,
      Below n (a.mentions calls) := by
  obtain ⟨name, type, default, annotations, span⟩ := p
  cases default <;> simp [Param.mentions]

/-- What a class has to mention only numbers below the bound. -/
theorem ClassDecl.below_mentions {c : ClassDecl} : Below n (c.mentions calls) ↔
    Below n
      (c.superclass.elim [] TypeRef.classIds ++ c.interfaces.flatMap TypeRef.classIds ++
        c.outer.toList) ∧
      (∀ f ∈ c.fields, Below n (f.mentions calls)) ∧ (∀ m ∈ c.methods, Below n (m.mentions calls)) ∧
      (∀ k ∈ c.constructors, Below n (k.mentions calls)) ∧
        (∀ s ∈ c.staticInit, Below n (s.mentions calls)) ∧
      ∀ a ∈ c.annotations, Below n (a.mentions calls) := by
  simp only [mentions, below_append, below_flatMap, Stmt.below_mentionsAll,
    AnnotationUse.below_mentionsAll, and_assoc]

end Below

namespace ClassTable

/-- Every number that is mentioned in the table belongs to a class. -/
def Confined (calls : Bool) (t : ClassTable) : Prop :=
  ∀ c ∈ t.classes, Below t.size (c.mentions calls)

instance (calls : Bool) (t : ClassTable) : Decidable (t.Confined calls) :=
  inferInstanceAs (Decidable (∀ c ∈ t.classes, Below t.size (c.mentions calls)))

variable {t : ClassTable} {calls : Bool}

/-- Without the calls, a table is confined if it is closed. -/
theorem confined_false_iff : t.Confined false ↔ t.Closed := by
  simp only [Confined, Closed, ClassDecl.mentions_false, Below]

/-- A class of a confined table only mentions classes of the table. -/
theorem Confined.get? (h : t.Confined calls) {id : ClassId} {c : ClassDecl}
    (hget : t.get? id = some c) :
    Below t.size (c.mentions calls) := h c (mem_classes_iff.mpr ⟨id, hget⟩)

/-- A class can be replaced by one that mentions classes of the table only. -/
theorem Confined.set (h : t.Confined calls) {id : ClassId} {c' : ClassDecl}
    (hc' : Below t.size (c'.mentions calls)) : (t.set id c').Confined calls := by
  intro c hc
  rw [size_set]
  rcases List.mem_or_eq_of_mem_set hc with hc | rfl
  · exact h c hc
  · exact hc'

end ClassTable

end Metaobject

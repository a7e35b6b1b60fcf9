import Metaobject.Proofs.Reflection.Views

/-!
# Answers

Everything that a record can be asked, with what it answers. An answer names other records by their
classes, and the records themselves come with it. `Aspect.ask_yields` brings the views together: an
answer depends on nothing but the class and the methods added to it, whatever parts of records are
kept.
-/

namespace Metaobject

/-- A way to look at a class through one of its records. -/
inductive Aspect where
  | fields
  | constructors
  | methods
  | superclass
  | declaredInterfaces
  | allInterfaces
  | hierarchy
  | distance
  /-- The field of a name. -/
  | field (name : String)
  /-- The member of a name for a number of arguments, methods added at run time aside. -/
  | declaredMember (name : String) (arity : Nat)
  | member (name : String) (arity : Nat)
  | constructor (arity : Nat)
deriving DecidableEq, Repr

/-- What is found about a class. Other records are told by their classes. -/
inductive Answer where
  | fields (hs : List FieldHandle)
  | constructors (hs : List ConstructorHandle)
  | methods (table : MethodTable)
  | classes (cs : List LoadedClass)
  | distance (n : Nat)
  | field (h : Option FieldHandle)
  | member (m : Option MemberHandle)
  /-- Methods that were added at run time. -/
  | added (hs : List MethodHandle)
  | call (outcome : Except DispatchError MemberHandle)
  | failure (e : ReflectionError)

/-- An answer, and the records that are given out with it. -/
structure Finding where
  answer : Answer
  given : List RecordNo := []

/-- Give out records. -/
def Viewing.named (rs : List RecordNo) : Viewing Finding := do
  let k := (← get).cache
  return ⟨.classes (rs.map fun r => (k.record r).cls), rs⟩

namespace Aspect

/-- Ask a record about its class. -/
def ask (c : LoadedClass) (r : RecordNo) : Aspect → Viewing Finding
  | fields => return { answer := .fields (← View.fields c r) }
  | constructors => return { answer := .constructors (← View.constructors c r) }
  | methods => return { answer := .methods (← View.methods c r) }
  | superclass => do Viewing.named (← View.superclass c r).toList
  | declaredInterfaces => do Viewing.named (← View.declaredInterfaces c r)
  | allInterfaces => do Viewing.named (← View.allInterfaces c r)
  | hierarchy => do Viewing.named (← View.hierarchy c r)
  | distance => return { answer := .distance (← View.distance c r) }
  | field name => return { answer := .field (← View.findField name c r) }
  | declaredMember name arity =>
    return { answer := .member (← Resolution.declaredMember c r name arity) }
  | member name arity => return { answer := .member (← Resolution.member c r name arity) }
  | constructor arity => return { answer := .member (← Resolution.constructor c r arity) }

/-- The classes whose records are given out. -/
def shown (c : LoadedClass) : Aspect → List LoadedClass
  | superclass => c.superclass.toList
  | declaredInterfaces => c.interfaces
  | allInterfaces => c.allInterfaces
  | hierarchy => c.lineage
  | _ => []

/-- The answer that the class gives by itself, given the methods that were added to it. -/
def answer (added : List MethodHandle) (c : LoadedClass) : Aspect → Answer
  | fields => .fields c.fieldHandles
  | constructors => .constructors c.constructorHandles
  | methods => .methods c.methodTable
  | distance => .distance c.depth
  | field name => .field (c.field? name)
  | declaredMember name arity => .member (c.declaredMember? name arity)
  | member name arity => .member (c.member? added name arity)
  | constructor arity => .member (c.constructor? arity)
  | aspect => .classes (aspect.shown c)

end Aspect

theorem ReflectionCache.map_cls_of_describes {k : ReflectionCache} {rs : List RecordNo}
    {cs : List LoadedClass} (h : List.Forall₂ k.Describes rs cs) :
    rs.map (fun r => (k.record r).cls) = cs := by
  induction h with
  | nil => rfl
  | cons hr _ ih => rw [List.map_cons, ih, hr.record_cls]

namespace Viewing

variable {classes : List LoadedClass} {s : Realm} {live : Prop}

/-- Records are named by the classes that they describe. -/
theorem named_yields {rs : List RecordNo} {cs : List LoadedClass} (h : s.cache.Coherent classes)
    (hrs : List.Forall₂ s.cache.Describes rs cs) :
    Yields classes (named rs) s live fun t v => v.answer = .classes cs ∧
      List.Forall₂ t.cache.Describes v.given cs := by
  refine .bind (get_yields h) ?_
  rintro _ _ - - ⟨rfl, rfl⟩
  exact .pure h ⟨congrArg Answer.classes (ReflectionCache.map_cls_of_describes hrs), hrs⟩

/-- Records that a view finds are given out. -/
theorem Yields.named {x : Viewing (List RecordNo)} {cs : List LoadedClass}
    (hx : Yields classes x s live fun t v => List.Forall₂ t.cache.Describes v cs) :
    Yields classes (x >>= Viewing.named) s live fun t v =>
      v.answer = .classes cs ∧ List.Forall₂ t.cache.Describes v.given cs :=
  .bind hx fun _ _ ht _ hrs => named_yields ht hrs

/-- What else a view finds comes without records. -/
theorem Yields.answers {β : Type} {x : Viewing β} {b : β} (make : β → Answer)
    (hx : Yields classes x s live fun _ v => v = b) :
    Yields classes (do return { answer := make (← x) }) s live fun t (v : Finding) =>
      v.answer = make b ∧ List.Forall₂ t.cache.Describes v.given [] := by
  refine .bind hx ?_
  rintro _ t ht _ rfl
  exact .pure ht ⟨rfl, .nil⟩

end Viewing

/-- What a record answers, as long as its class and all ancestors are loaded. -/
theorem Aspect.ask_yields {classes : List LoadedClass} {s : Realm} {live : Prop} {r : RecordNo}
    {d : ClassRecord} (hpop : Population classes) (h : s.cache.Coherent classes)
    (hd : s.cache.records[r]? = some d) (hlive : live → s.space.HasFamily d.cls) (aspect : Aspect) :
    Viewing.Yields classes (aspect.ask d.cls r) s live fun t v =>
      v.answer = aspect.answer d.added d.cls ∧
        List.Forall₂ t.cache.Describes v.given (aspect.shown d.cls) := by
  have hr : s.cache.Describes r d.cls := ⟨d, hd, rfl⟩
  cases aspect with
  | fields => exact (View.fields_yields h hr fun hl => (hlive hl).self).answers .fields
  | constructors =>
    exact (View.constructors_yields h hr fun hl => (hlive hl).self).answers .constructors
  | methods => exact (View.methods_yields hpop _ r s h hr hlive).answers .methods
  | superclass =>
    refine .bind (View.superclass_yields hpop h hr hlive) ?_
    intro q t ht _ hq
    exact Viewing.named_yields ht hq.forall₂_toList
  | declaredInterfaces => exact (View.declaredInterfaces_yields hpop h hr hlive).named
  | allInterfaces => exact (View.allInterfaces_yields hpop _ r s h hr hlive).named
  | hierarchy => exact (View.hierarchy_yields hpop _ r s h hr hlive).named
  | distance => exact (View.distance_yields hpop _ r s h hr hlive).answers .distance
  | field name => exact (View.findField_yields hpop name _ r s h hr hlive).answers .field
  | declaredMember name arity =>
    exact (Resolution.declaredMember_yields hpop name arity h hr hlive).answers .member
  | member name arity => exact (Resolution.member_yields hpop name arity h hd hlive).answers .member
  | constructor arity => exact (Resolution.constructor_yields arity h hr hlive).answers .member

end Metaobject

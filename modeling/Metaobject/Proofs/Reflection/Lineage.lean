import Metaobject.Reflection.Resolution

/-!
# What a class says by itself

The answers that records give about a class, as functions of the class alone: no record, no cache
and no failure. A record may give such an answer from a part that was kept, or compute it anew; the
theory of records shows that both come to the functions defined here.

`LoadedClass.meaning` is the member that a call means, given the methods that were added to the
class at run time.
-/

namespace Metaobject

namespace LoadedClass

/-! ## Members -/

/-- The handles of the fields of a class. -/
def fieldHandles (c : LoadedClass) : List FieldHandle := Handle.declared c .field c.fields

/-- The handles of the constructors of a class. -/
def constructorHandles (c : LoadedClass) : List ConstructorHandle :=
  Handle.declared c .constructor c.constructors

/-- The handles of the methods that a class shows. -/
def shownMethods (c : LoadedClass) : List MethodHandle :=
  (Handle.declared c .method c.methods).filter MethodHandle.isShown

mutual

/-- The methods of a class: its own ordinary ones, and protocol methods with those of the
superclass. -/
def methodTable : LoadedClass → MethodTable
  | c@⟨_, _, _, parent, _, _, _, _⟩ =>
    { normal := (c.shownMethods.filter (!·.isProtocol)).mergeSort MethodHandle.naturalLe
      protocol :=
        (c.shownMethods.filter (·.isProtocol) ++ protocolOf parent).mergeSort MethodHandle.nameLe }

/-- The protocol methods of a superclass, if there is one. -/
def protocolOf : Option LoadedClass → List MethodHandle
  | some c => c.methodTable.protocol
  | none => []

end

mutual

/-- The field of a name, from the class itself or the nearest superclass that declares one. -/
def field? (name : String) : LoadedClass → Option FieldHandle
  | c@⟨_, _, _, parent, _, _, _, _⟩ =>
    match c.fieldHandles.find? (·.signature.name == name) with
    | some h => some h
    | none => fieldOf? name parent

def fieldOf? (name : String) : Option LoadedClass → Option FieldHandle
  | some c => c.field? name
  | none => none

end

/-! ## Ancestors -/

/-- The distinct classes in a list, each where it stands first, without the class `c`. -/
def distinct (c : LoadedClass) (cs : List LoadedClass) : List LoadedClass :=
  cs.foldl (fun kept d => if d.no = c.no || kept.any (·.no == d.no) then kept else kept ++ [d]) []

mutual

/-- All interfaces of a class, its own first, then inherited ones. -/
def allInterfaces : LoadedClass → List LoadedClass
  | c@⟨_, _, _, parent, interfaces, _, _, _⟩ =>
    let inherited := c.distinct (interfacesOfAll interfaces ++ interfacesOf parent)
    if c.isInterface then c :: inherited else inherited

/-- The interfaces of some classes. -/
def interfacesOfAll : List LoadedClass → List LoadedClass
  | [] => []
  | c :: cs => c.allInterfaces ++ interfacesOfAll cs

def interfacesOf : Option LoadedClass → List LoadedClass
  | some c => c.allInterfaces
  | none => []

end

/-- The interfaces of a class apart from the class itself. -/
def inheritedInterfaces (c : LoadedClass) : List LoadedClass :=
  c.distinct (interfacesOfAll c.interfaces ++ interfacesOf c.superclass)

mutual

/-- The class and all its ancestors: the class itself, what its interfaces derive from, what its
superclass derives from, and for an interface at last the root. -/
def lineage : LoadedClass → List LoadedClass
  | c@⟨_, _, _, parent, interfaces, _, _, _⟩ =>
    c :: c.distinct (lineageOfAll interfaces ++ lineageOf parent
      ++ if c.isInterface then [root] else [])

/-- The lineages of some classes. -/
def lineageOfAll : List LoadedClass → List LoadedClass
  | [] => []
  | c :: cs => c.lineage ++ lineageOfAll cs

def lineageOf : Option LoadedClass → List LoadedClass
  | some c => c.lineage
  | none => []

end

/-- The ancestors of a class apart from the class itself. -/
def ancestors (c : LoadedClass) : List LoadedClass :=
  c.distinct (lineageOfAll c.interfaces ++ lineageOf c.superclass
    ++ if c.isInterface then [root] else [])

mutual

/-- The number of classes from this one up to the root, both included. -/
def depth : LoadedClass → Nat
  | ⟨_, _, _, parent, _, _, _, _⟩ => depthOf parent + 1

def depthOf : Option LoadedClass → Nat
  | some c => c.depth
  | none => 0

end

theorem field?_eq (name : String) (c : LoadedClass) :
    c.field? name =
      match c.fieldHandles.find? (·.signature.name == name) with
      | some h => some h
      | none => fieldOf? name c.superclass := by
  cases c
  rfl

theorem allInterfaces_eq (c : LoadedClass) :
    c.allInterfaces = if c.isInterface then c :: c.inheritedInterfaces
      else c.inheritedInterfaces := by
  cases c
  rfl

/-- A lineage starts with the class itself. -/
theorem lineage_eq (c : LoadedClass) : c.lineage = c :: c.ancestors := by
  cases c
  rfl

/-! ## Resolution -/

/-- The classes to search for a method, the root moved to the end. -/
def searchOrder (c : LoadedClass) : List LoadedClass :=
  c.lineage.filter (!·.isRoot) ++ c.lineage.filter (·.isRoot)

/-- The method that one class contributes. -/
def ownMethod? (name : String) (arity : Nat) (c : LoadedClass) : Option MethodHandle :=
  MethodHandle.select arity (c.methodTable.find name)

/-- The first concrete method in a list of classes, or else the first abstract one, or else
`fallback`. -/
def searchMethod (name : String) (arity : Nat) (fallback : Option MethodHandle) :
    List LoadedClass → Option MethodHandle
  | [] => fallback
  | c :: cs =>
    match c.ownMethod? name arity with
    | none => searchMethod name arity fallback cs
    | some h => if h.isAbstract then searchMethod name arity (fallback <|> some h) cs else some h

/-- The member that a call on this class means, methods added at run time aside. -/
def declaredMember? (c : LoadedClass) (name : String) (arity : Nat) : Option MemberHandle :=
  match searchMethod name arity none c.searchOrder with
  | some h => some (.method h)
  | none => if arity = 0 then (c.field? name).map .field else none

/-- The member that a call on this class means, given the methods added to the class at run time,
oldest first. -/
def member? (added : List MethodHandle) (c : LoadedClass) (name : String) (arity : Nat) :
    Option MemberHandle :=
  match MethodHandle.select arity (added.reverse.filter (·.name == name)) with
  | some h => some (.method h)
  | none => c.declaredMember? name arity

/-- The constructor that takes this many arguments: one with as many parameters, or else one that
accepts them. -/
def constructor? (c : LoadedClass) (arity : Nat) : Option MemberHandle :=
  (c.constructorHandles.find? (·.signature.arity == arity)
    <|> c.constructorHandles.find? (·.accepts arity)).map .constructor

/-- What a call site of the given name means by a call on this class. -/
def meaning (added : List MethodHandle) (c : LoadedClass) (name : String) (arity : Nat) :
    Option MemberHandle :=
  if name == constructorName then c.constructor? arity else c.member? added name arity

/-! ## Derivation -/

theorem derivesFrom_eq (goal : ClassNo) (c : LoadedClass) :
    c.derivesFrom goal =
      (goal == 0 || goal == c.no || c.superclass.any (derivesFrom goal) ||
        anyDerivesFrom goal c.interfaces) := by
  obtain ⟨_, _, _, parent, _, _, _, _⟩ := c
  cases parent <;> rfl

theorem derivesFrom_self (c : LoadedClass) : c.derivesFrom c.no = true := by
  simp [derivesFrom_eq]

theorem derivesFrom_root (c : LoadedClass) : c.derivesFrom root.no = true := by
  simp [derivesFrom_eq, root]

/-- A class derives from what its superclass derives from. -/
theorem derivesFrom_of_superclass {c p : LoadedClass} {goal : ClassNo} (hp : p ∈ c.superclass)
    (h : p.derivesFrom goal = true) : c.derivesFrom goal = true := by
  have hany : c.superclass.any (derivesFrom goal) = true := by rw [Option.mem_def.mp hp]; exact h
  simp [derivesFrom_eq goal c, hany]

theorem anyDerivesFrom_of_mem {goal : ClassNo} {c : LoadedClass} {cs : List LoadedClass}
    (hc : c ∈ cs) (h : c.derivesFrom goal = true) : anyDerivesFrom goal cs = true := by
  induction cs with
  | nil => cases hc
  | cons d cs ih =>
    rw [anyDerivesFrom, Bool.or_eq_true]
    cases hc with
    | head => exact .inl h
    | tail _ hmem => exact .inr (ih hmem)

/-- A class derives from what its interfaces derive from. -/
theorem derivesFrom_of_interface {c i : LoadedClass} {goal : ClassNo} (hi : i ∈ c.interfaces)
    (h : i.derivesFrom goal = true) : c.derivesFrom goal = true := by
  simp [derivesFrom_eq goal c, anyDerivesFrom_of_mem hi h]

end LoadedClass

/-! ## Classes that are there -/

/-- A class and all its ancestors are loaded. -/
def ClassSpace.HasFamily (s : ClassSpace) (c : LoadedClass) : Prop :=
  ∀ no, c.derivesFrom no = true → s.isLoaded no = true

namespace ClassSpace.HasFamily

variable {s : ClassSpace} {c p : LoadedClass}

theorem self (h : s.HasFamily c) : s.isLoaded c.no = true := h _ c.derivesFrom_self

theorem root (h : s.HasFamily c) : s.isLoaded LoadedClass.root.no = true := h _ c.derivesFrom_root

theorem superclass (h : s.HasFamily c) (hp : p ∈ c.superclass) : s.HasFamily p :=
  fun _ hno => h _ (LoadedClass.derivesFrom_of_superclass hp hno)

/-- An interface has its family too. -/
theorem interface (h : s.HasFamily c) (hp : p ∈ c.interfaces) : s.HasFamily p :=
  fun _ hno => h _ (LoadedClass.derivesFrom_of_interface hp hno)

/-- Of the root alone. -/
theorem of_root (h : s.isLoaded LoadedClass.root.no = true) : s.HasFamily .root := by
  intro no hno
  have hzero : no = LoadedClass.root.no := by
    simpa [LoadedClass.derivesFrom_eq, LoadedClass.root, LoadedClass.anyDerivesFrom] using hno
  rw [hzero]
  exact h

end ClassSpace.HasFamily

namespace LoadedClass

theorem mem_of_mem_distinct {c d : LoadedClass} {cs : List LoadedClass} (h : d ∈ c.distinct cs) :
    d ∈ cs := by
  -- generalized over what is already kept, for the induction along the list
  have hstep : ∀ (cs kept : List LoadedClass),
      d ∈ cs.foldl (fun kept d => if d.no = c.no || kept.any (·.no == d.no) then kept
        else kept ++ [d]) kept →
      d ∈ kept ∨ d ∈ cs := by
    intro cs
    induction cs with
    | nil => exact fun _ hd => .inl hd
    | cons e cs ih =>
      intro kept hd
      rw [List.foldl_cons] at hd
      rcases ih _ hd with hkept | hcs
      · split at hkept
        · exact .inl hkept
        · rcases List.mem_append.mp hkept with hkept | he
          · exact .inl hkept
          · exact .inr (List.mem_singleton.mp he ▸ List.mem_cons_self)
      · exact .inr (List.mem_cons_of_mem e hcs)
  exact (hstep cs [] h).resolve_left List.not_mem_nil

mutual

/-- What a class needs to be loaded, its ancestors need too. -/
theorem hasFamily_of_mem_lineage {s : ClassSpace} {d : LoadedClass} : ∀ (c : LoadedClass),
    s.HasFamily c → d ∈ c.lineage → s.HasFamily d
  | ⟨_, _, _, parent, interfaces, _, _, _⟩, h, hd => by
    rw [lineage] at hd
    rcases List.mem_cons.mp hd with rfl | hd
    · exact h
    · -- ancestors through interfaces, through the superclass, and the root of an interface
      rcases List.mem_append.mp (mem_of_mem_distinct hd) with hd | hd
      · rcases List.mem_append.mp hd with hd | hd
        · exact hasFamily_of_mem_lineageOfAll interfaces (fun _ hi => h.interface hi) hd
        · exact hasFamily_of_mem_lineageOf parent (fun _ hp => h.superclass hp) hd
      · split at hd
        · rw [List.mem_singleton.mp hd]
          exact .of_root h.root
        · cases hd

/-- What is in the lineages of classes that have their families has its family. -/
theorem hasFamily_of_mem_lineageOfAll {s : ClassSpace} {d : LoadedClass} :
    ∀ (cs : List LoadedClass),
    (∀ c ∈ cs, s.HasFamily c) → d ∈ lineageOfAll cs → s.HasFamily d
  | c :: cs, h, hd => by
    rw [lineageOfAll] at hd
    rcases List.mem_append.mp hd with hd | hd
    · exact hasFamily_of_mem_lineage c (h c List.mem_cons_self) hd
    · exact hasFamily_of_mem_lineageOfAll cs (fun e he => h e (List.mem_cons_of_mem c he)) hd

theorem hasFamily_of_mem_lineageOf {s : ClassSpace} {d : LoadedClass} : ∀ (p : Option LoadedClass),
    (∀ c ∈ p, s.HasFamily c) → d ∈ lineageOf p → s.HasFamily d
  | some c, h, hd => hasFamily_of_mem_lineage c (h c rfl) hd

end

end LoadedClass

theorem ClassSpace.HasFamily.searchOrder {s : ClassSpace} {c d : LoadedClass} (h : s.HasFamily c)
    (hd : d ∈ c.searchOrder) : s.HasFamily d := by
  unfold LoadedClass.searchOrder at hd
  rcases List.mem_append.mp hd with hd | hd
  · exact LoadedClass.hasFamily_of_mem_lineage c h (List.mem_filter.mp hd).1
  · exact LoadedClass.hasFamily_of_mem_lineage c h (List.mem_filter.mp hd).1

/-- All classes that were ever loaded: numbers tell them apart, and parents come along. Only
interfaces and the root have no superclass. -/
structure Population (classes : List LoadedClass) : Prop where
  unique : ∀ c ∈ classes, ∀ d ∈ classes, c.no = d.no → c = d
  superclass : ∀ c ∈ classes, ∀ p ∈ c.superclass, p ∈ classes
  interface : ∀ c ∈ classes, ∀ p ∈ c.interfaces, p ∈ classes
  root : .root ∈ classes
  top : ∀ c ∈ classes, c.superclass = none → c.isInterface = true ∨ c = .root

end Metaobject

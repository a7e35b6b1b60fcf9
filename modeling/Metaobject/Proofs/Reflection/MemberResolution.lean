import Mathlib.Order.WellFounded
import Metaobject.Proofs.Reflection.Ancestry
import Metaobject.Proofs.Reflection.MethodOrder

/-!
# The member that a call means

A call with a name and a number of arguments means a method that some class of the hierarchy offers,
or a field. Resolution picks the best method of each class, searches the classes in the order of the
hierarchy with the root at the end, keeps an abstract method for the case that no concrete one is
found, and falls back on the fields of the superclasses. Methods that were added at run time come
first, newest first.

* `MethodHandle.select_eq_some`, `LoadedClass.ownMethod?_eq_some`: the best method of a list and of
  a class.
* `LoadedClass.searchMethod_eq`: the search as a choice among the best methods of the classes.
* `LoadedClass.means_declaredMember?`, `LoadedClass.meansWith_member?`: what is found, in terms of
  what classes declare.
* `Session.resolves_members_iff`: resolution does this for every number of arguments but the largest
  one, for which methods with variable arguments are passed over.
-/

namespace Metaobject

/-! ## Methods that take the arguments -/

namespace MethodHandle

variable {h g : MethodHandle} {k : Nat} {fits : MethodHandle → Prop} {cost : MethodHandle → Nat}
  {l : List MethodHandle}

/-- The method takes this many arguments: it has as many parameters, or it has variable arguments
and at most one parameter more. -/
def Takes (h : MethodHandle) (k : Nat) : Prop := h.arity = k ∨ h.isVarargs = true ∧ h.arity ≤ k + 1

instance : Decidable (h.Takes k) := inferInstanceAs (Decidable (_ ∨ _))

/-- The better one of two methods that take the same arguments has the lower grade: concrete methods
come before abstract ones, and among those the ones without variable arguments. -/
def grade (h : MethodHandle) : Nat := (if h.isAbstract then 2 else 0) + if h.isVarargs then 1 else 0

/-- One more than the number of arguments has to be a number of arguments again. -/
theorem accepts_iff (hk : k + 1 < UInt64.size) : h.accepts k = true ↔ h.Takes k := by
  rw [accepts, acceptsArity, Nat.mod_eq_of_lt hk, Takes]
  cases h.isVarargs with
  | true =>
    simp only [if_true, decide_eq_true_eq, true_and]
    omega
  | false =>
    simp only [Bool.false_eq_true, if_false, false_and, or_false, beq_iff_eq]
    exact eq_comm

/-- Among the methods that take the arguments, the rank is the grade. -/
theorem rank_eq_grade (h : MethodHandle) (hk : h.Takes k) : h.rank k = h.grade := by
  rw [rank, grade]
  rcases hk with rfl | ⟨hvar, -⟩
  · cases h.isVarargs <;> simp
  · simp [hvar]

/-- A method that ranks before one with a body has a body. -/
theorem isAbstract_of_rank_le (hle : h.rank k ≤ g.rank k) (hg : g.isAbstract = false) :
    h.isAbstract = false := by
  by_contra habstract
  rw [Bool.not_eq_false] at habstract
  rw [rank, rank, if_pos habstract, hg, if_neg Bool.false_ne_true] at hle
  split_ifs at hle <;> omega

/-- Of two concrete methods, the better one has variable arguments only if the other one has. -/
theorem isVarargs_of_rank_le (hle : h.rank k ≤ g.rank k) (hg : g.isAbstract = false)
    (haccepts : g.accepts k = true) (hvar : h.isVarargs = true) : g.isVarargs = true := by
  by_contra hfixed
  rw [Bool.not_eq_true] at hfixed
  rw [accepts, acceptsArity, hfixed] at haccepts
  have hexact : g.arity = k := (beq_iff_eq.mp haccepts).symm
  simp [rank, hg, hvar, hfixed, hexact] at hle

/-- A method is the first of the best ones in a list, among those that fit. -/
def FirstBest (fits : MethodHandle → Prop) (cost : MethodHandle → Nat) (l : List MethodHandle)
    (h : MethodHandle) : Prop :=
  ∃ before after, l = before ++ h :: after ∧ fits h ∧ (∀ g ∈ before, fits g → cost h < cost g) ∧
    ∀ g ∈ after, fits g → cost h ≤ cost g

namespace FirstBest

theorem mem (hbest : FirstBest fits cost l h) : h ∈ l := by
  obtain ⟨before, after, rfl, -⟩ := hbest
  simp

theorem fits_self (hbest : FirstBest fits cost l h) : fits h := by
  obtain ⟨-, -, -, hfits, -⟩ := hbest
  exact hfits

/-- The first best one costs no more than any other that fits. -/
theorem le (hbest : FirstBest fits cost l h) (hg : g ∈ l) (hfits : fits g) : cost h ≤ cost g := by
  obtain ⟨before, after, rfl, -, hbefore, hafter⟩ := hbest
  rcases List.mem_append.mp hg with hg | hg
  · exact Nat.le_of_lt (hbefore g hg hfits)
  · rcases List.mem_cons.mp hg with rfl | hg
    · exact Nat.le_refl _
    · exact hafter g hg hfits

/-- The first best one only depends on what fits and what it costs. -/
theorem congr {fits' : MethodHandle → Prop} {cost' : MethodHandle → Nat}
    (hbest : FirstBest fits cost l h) (hfits : ∀ g, fits g ↔ fits' g)
    (hcost : ∀ g, fits' g → cost g = cost' g) : FirstBest fits' cost' l h := by
  obtain ⟨before, after, hl, hh, hbefore, hafter⟩ := hbest
  have hh := (hfits h).mp hh
  refine ⟨before, after, hl, hh, fun g hg hfit => ?_, fun g hg hfit => ?_⟩
  · rw [← hcost h hh, ← hcost g hfit]
    exact hbefore g hg ((hfits g).mpr hfit)
  · rw [← hcost h hh, ← hcost g hfit]
    exact hafter g hg ((hfits g).mpr hfit)

end FirstBest

/-- What is selected among the methods of a list that satisfy a condition. -/
theorem select_eq_some {p : MethodHandle → Bool} (hselect : select k (l.filter p) = some h) :
    FirstBest (fun g => p g = true ∧ g.accepts k = true) (rank · k) l h := by
  have hfits : ∀ g, (g.accepts k && p g) = true ↔ p g = true ∧ g.accepts k = true := by
    intro g
    rw [Bool.and_eq_true, and_comm]
  rw [select, List.filter_filter] at hselect
  obtain ⟨hmin, as, bs, hsplit, hworse⟩ := List.find?_eq_some_iff_append.mp hselect
  -- where the method stands among those that fit, and where it stands in the whole list
  obtain ⟨before, rest, rfl, rfl, hrest⟩ := List.filter_eq_append_iff.mp hsplit
  obtain ⟨unfit, after, rfl, hunfit, hh, rfl⟩ := List.filter_eq_cons_iff.mp hrest
  have hle : ∀ g ∈ before ++ (unfit ++ h :: after), p g = true ∧ g.accepts k = true →
    h.rank k ≤ g.rank k := by
    intro g hg hfit
    have hrank := List.all_eq_true.mp hmin g (List.mem_filter.mpr ⟨hg, (hfits g).mpr hfit⟩)
    exact of_decide_eq_true hrank
  refine ⟨before ++ unfit, after, by simp, (hfits h).mp hh, ?_, fun g hg => hle g (by simp [hg])⟩
  intro g hg hfit
  rcases List.mem_append.mp hg with hg | hg
  · -- an earlier method that is as good would have been selected
    have hgworse := hworse g (List.mem_filter.mpr ⟨hg, (hfits g).mpr hfit⟩)
    rw [Bool.not_eq_true', List.all_eq_false] at hgworse
    obtain ⟨other, hother, hlt⟩ := hgworse
    obtain ⟨hmem, hotherfits⟩ := List.mem_filter.mp hother
    have hbest := hle other hmem ((hfits other).mp hotherfits)
    exact Nat.lt_of_le_of_lt hbest (Nat.lt_of_not_le fun hge => hlt (decide_eq_true hge))
  · exact absurd ((hfits g).mpr hfit) (hunfit g hg)

/-- Nothing is selected if nothing accepts the arguments. -/
theorem select_eq_none_iff {p : MethodHandle → Bool} :
    select k (l.filter p) = none ↔ ∀ g ∈ l, p g = true → g.accepts k = false := by
  rw [select, List.find?_eq_none]
  constructor
  · intro hnone g hg hp
    by_contra haccepts
    have hfit : g ∈ (l.filter p).filter (·.accepts k) :=
      List.mem_filter.mpr ⟨List.mem_filter.mpr ⟨hg, hp⟩, Bool.not_eq_false _ ▸ haccepts⟩
    -- among methods that fit there is a best one
    obtain ⟨best, hbest, hmin⟩ :=
      (measure (rank · k)).wf.has_min {g | g ∈ (l.filter p).filter (accepts · k)} ⟨g, hfit⟩
    apply hnone best hbest
    rw [List.all_eq_true]
    intro other hother
    exact decide_eq_true (Nat.le_of_not_lt (hmin other hother))
  · intro hunfit g hg
    obtain ⟨hmem, haccepts⟩ := List.mem_filter.mp hg
    obtain ⟨hl, hp⟩ := List.mem_filter.mp hmem
    rw [hunfit g hl hp] at haccepts
    cases haccepts

end MethodHandle

/-! ## The methods of a class -/

namespace LoadedClass

variable {c d : LoadedClass} {name : String} {k : Nat} {h g : MethodHandle} {cs : List LoadedClass}
  {offers : LoadedClass → MethodHandle → Prop}

/-- The class declares an ordinary method of this name: no bridge, no repeated overload and no
method of the protocol. -/
def Declares (d : LoadedClass) (name : String) (h : MethodHandle) : Prop :=
  h ∈ Handle.declared d .method d.methods ∧ h.isShown = true ∧ h.isProtocol = false ∧ h.name = name

/-- The class declares an ordinary method of this name that takes this many arguments. -/
def Offers (name : String) (k : Nat) (d : LoadedClass) (h : MethodHandle) : Prop :=
  d.Declares name h ∧ h.Takes k

/-- The class declares an ordinary method of this name that accepts this many arguments. -/
def Provides (name : String) (k : Nat) (d : LoadedClass) (h : MethodHandle) : Prop :=
  d.Declares name h ∧ h.accepts k = true

/-- Below the greatest word, providing is offering. -/
theorem provides_eq_offers (hk : k + 1 < UInt64.size) : Provides name k = Offers name k := by
  funext d h
  rw [Provides, Offers, MethodHandle.accepts_iff hk]

theorem Declares.owner_eq (hdeclares : d.Declares name h) : h.owner = d := by
  obtain ⟨p, -, rfl⟩ := List.mem_map.mp hdeclares.1
  rfl

/-- The table finds what the class declares. -/
theorem mem_find : h ∈ d.methodTable.find name ↔ d.Declares name h := by
  rw [find_methodTable]
  obtain ⟨_, _, _, _, _, _, _, _⟩ := d
  simp only [methodTable, shownMethods, Declares, List.mem_mergeSort, List.mem_filter,
    Bool.not_eq_true', beq_iff_eq, and_assoc]

/-- The method of a class itself ranks before all others that it provides. -/
theorem ownMethod?_eq_some (hown : d.ownMethod? name k = some h) :
    Provides name k d h ∧ ∀ g, Provides name k d g → h.rank k ≤ g.rank k := by
  rw [ownMethod?, find_methodTable] at hown
  have hbest := MethodHandle.select_eq_some hown
  have hmem (g : MethodHandle) : g ∈ d.methodTable.normal ∧ (g.name == name) = true ↔
    d.Declares name g := by
    rw [← mem_find, find_methodTable, List.mem_filter]
  refine ⟨⟨(hmem h).mp ⟨hbest.mem, hbest.fits_self.1⟩, hbest.fits_self.2⟩, fun g hg => ?_⟩
  obtain ⟨hnormal, hname⟩ := (hmem g).mpr hg.1
  exact hbest.le hnormal ⟨hname, hg.2⟩

/-- A class has no method of its own exactly if it provides none. -/
theorem ownMethod?_eq_none_iff : d.ownMethod? name k = none ↔ ∀ h, ¬ Provides name k d h := by
  rw [ownMethod?, find_methodTable, MethodHandle.select_eq_none_iff]
  simp only [Provides, ← mem_find, find_methodTable, List.mem_filter, not_and, and_imp,
    Bool.not_eq_true]

/-- The best method of a class is abstract only if all that the class has to offer are. -/
theorem isAbstract_of_ownMethod? (hown : ∀ h ∈ d.ownMethod? name k, h.isAbstract = true)
    (hg : Provides name k d g) : g.isAbstract = true := by
  cases hd : d.ownMethod? name k with
  | none => exact absurd hg (ownMethod?_eq_none_iff.mp hd g)
  | some h =>
    by_contra hconcrete
    have hle := (ownMethod?_eq_some hd).2 g hg
    have hh := MethodHandle.isAbstract_of_rank_le hle (Bool.eq_false_iff.mpr hconcrete)
    rw [hown h hd] at hh
    cases hh

/-! ## The search along the hierarchy -/

/-- The search finds the first concrete one among the best methods of the classes, or else the first
one. -/
theorem searchMethod_eq (name : String) (k : Nat) (fallback : Option MethodHandle)
    (cs : List LoadedClass) :
    searchMethod name k fallback cs =
      ((cs.filterMap (ownMethod? name k)).find? (!·.isAbstract)).or
        (fallback.or (cs.filterMap (ownMethod? name k)).head?) := by
  induction cs generalizing fallback with
  | nil => simp [searchMethod]
  | cons c cs ih =>
    rw [searchMethod]
    cases hown : c.ownMethod? name k with
    | none => simp only [List.filterMap_cons_none hown, ih]
    | some h =>
      rw [List.filterMap_cons_some hown]
      cases habstract : h.isAbstract with
      | true => simp [habstract, ih]
      | false => simp [habstract]

/-- The classes of a hierarchy in the order in which they are searched, the root moved to the
end. -/
def rootLast (cs : List LoadedClass) : List LoadedClass :=
  cs.filter (!·.isRoot) ++ cs.filter (·.isRoot)

theorem mem_rootLast : d ∈ rootLast cs ↔ d ∈ cs := by
  rw [rootLast, List.mem_append, List.mem_filter, List.mem_filter]
  cases d.isRoot <;> simp

/-- The search goes through the lineage. -/
theorem mem_searchOrder : d ∈ c.searchOrder ↔ d ∈ c.lineage := mem_rootLast

/-- A concrete method of the first class that offers any. Only if all concrete methods that the
class offers have variable arguments, this one has. -/
def FirstConcrete (offers : LoadedClass → MethodHandle → Prop) (cs : List LoadedClass)
    (h : MethodHandle) : Prop :=
  h.isAbstract = false ∧ ∃ before d after, rootLast cs = before ++ d :: after ∧ offers d h ∧
    (∀ e ∈ before, ∀ g, offers e g → g.isAbstract = true) ∧
    (h.isVarargs = true → ∀ g, offers d g → g.isAbstract = false → g.isVarargs = true)

theorem FirstConcrete.exists_offers (hfirst : FirstConcrete offers cs h) :
    ∃ d ∈ cs, offers d h := by
  obtain ⟨-, before, d, after, horder, hoffers, -⟩ := hfirst
  exact ⟨d, mem_rootLast.mp (by simp [horder]), hoffers⟩

/-- The first concrete method among those that the classes offer. -/
theorem firstConcrete_of_find? {c : LoadedClass}
    (hfirst : (c.searchOrder.filterMap (ownMethod? name k)).find? (!·.isAbstract) = some h) :
    FirstConcrete (Provides name k) c.lineage h := by
  obtain ⟨hconcrete, as, bs, hsplit, habstract⟩ := List.find?_eq_some_iff_append.mp hfirst
  -- the classes whose methods stand before it, and those that have none to offer
  obtain ⟨before, rest, horder, rfl, hrest⟩ := List.filterMap_eq_append_iff.mp hsplit
  obtain ⟨idle, d, after, rfl, hidle, hown, -⟩ := List.filterMap_eq_cons_iff.mp hrest
  obtain ⟨hprovides, hbest⟩ := ownMethod?_eq_some hown
  have hh : h.isAbstract = false := by simpa using hconcrete
  refine ⟨hh, before ++ idle, d, after, by rw [List.append_assoc]; exact horder, hprovides, ?_, ?_⟩
  · intro e he g hg
    refine isAbstract_of_ownMethod? (fun m hm => ?_) hg
    rcases List.mem_append.mp he with he | he
    · simpa using habstract m (List.mem_filterMap.mpr ⟨e, he, hm⟩)
    · rw [hidle e he] at hm
      cases hm
  · intro hvar g hg hgconcrete
    exact MethodHandle.isVarargs_of_rank_le (hbest g hg) hgconcrete hg.2 hvar

/-- What the search finds: a concrete method if there is one, or else an abstract one if there is
one. -/
theorem searchMethod_cases (c : LoadedClass) (name : String) (k : Nat) :
    (∃ h, searchMethod name k none c.searchOrder = some h ∧
      FirstConcrete (Provides name k) c.lineage h) ∨
    (∃ h, searchMethod name k none c.searchOrder = some h ∧ h.isAbstract = true ∧
      (∃ d ∈ c.lineage, Provides name k d h) ∧
      ∀ d ∈ c.lineage, ∀ g, Provides name k d g → g.isAbstract = true) ∨
    searchMethod name k none c.searchOrder = none ∧ ∀ d ∈ c.lineage, ∀ h,
      ¬ Provides name k d h := by
  rw [searchMethod_eq, Option.none_or]
  -- a concrete method wins wherever it stands; without one the first method that is found is taken,
  -- and every method is abstract then
  cases hfirst : (c.searchOrder.filterMap (ownMethod? name k)).find? (!·.isAbstract) with
  | some h => exact .inl ⟨h, rfl, firstConcrete_of_find? hfirst⟩
  | none =>
    have habstract : ∀ d ∈ c.lineage, ∀ g, Provides name k d g → g.isAbstract = true := by
      intro d hd g hg
      refine isAbstract_of_ownMethod? (fun m hm => ?_) hg
      simpa using
        List.find?_eq_none.mp hfirst m (List.mem_filterMap.mpr ⟨d, mem_searchOrder.mpr hd, hm⟩)
    rw [Option.none_or]
    refine .inr ?_
    cases hhead : (c.searchOrder.filterMap (ownMethod? name k)).head? with
    | some h =>
      obtain ⟨d, hd, hown⟩ := List.mem_filterMap.mp (List.mem_of_head? hhead)
      have hprovides := (ownMethod?_eq_some hown).1
      have hd := mem_searchOrder.mp hd
      exact .inl ⟨h, rfl, habstract d hd h hprovides, ⟨d, hd, hprovides⟩, habstract⟩
    | none =>
      have hempty := List.head?_eq_none_iff.mp hhead
      refine .inr ⟨rfl, fun d hd => ownMethod?_eq_none_iff.mp ?_⟩
      exact List.filterMap_eq_nil_iff.mp hempty d (mem_searchOrder.mpr hd)

/-! ## Fields -/

mutual

/-- The class and its superclasses, nearest first. -/
def superChain : LoadedClass → List LoadedClass
  | c@⟨_, _, _, parent, _, _, _, _⟩ => c :: superChainOf parent

def superChainOf : Option LoadedClass → List LoadedClass
  | some c => c.superChain
  | none => []

end

theorem superChain_eq (c : LoadedClass) : c.superChain = c :: superChainOf c.superclass := by
  cases c
  rfl

/-- A field is looked up along the superclasses. -/
theorem field?_eq_findSome? (name : String) (c : LoadedClass) :
    c.field? name = c.superChain.findSome? fun d =>
      d.fieldHandles.find? (·.signature.name == name) := by
  induction c using parent_induction with
  | step c ih =>
    have hparent : fieldOf? name c.superclass
        = (superChainOf c.superclass).findSome? fun d =>
          d.fieldHandles.find? (·.signature.name == name) := by
      cases hp : c.superclass with
      | none => rfl
      | some p => exact ih p (mem_parents.mpr (.inl hp))
    rw [field?_eq, superChain_eq, List.findSome?_cons, hparent]
    cases c.fieldHandles.find? (·.signature.name == name) <;> rfl

/-- The class or one of its superclasses declares a field of the name. -/
def DeclaresField (c : LoadedClass) (name : String) : Prop :=
  ∃ d ∈ c.superChain, ∃ f ∈ d.fieldHandles, f.name = name

/-- The field of the name that the nearest of the superclasses declares. -/
def NearestField (c : LoadedClass) (name : String) (f : FieldHandle) : Prop :=
  ∃ before d after, c.superChain = before ++ d :: after ∧ f ∈ d.fieldHandles ∧ f.name = name ∧
    ∀ e ∈ before, ∀ g ∈ e.fieldHandles, g.name ≠ name

/-- The field that is found is the nearest. -/
theorem nearestField_of_field? {f : FieldHandle} (hf : c.field? name = some f) :
    c.NearestField name f := by
  rw [field?_eq_findSome?] at hf
  obtain ⟨before, d, after, hchain, hfind, hbefore⟩ := List.findSome?_eq_some_iff.mp hf
  have hname := List.find?_some hfind
  refine ⟨before, d, after, hchain, List.mem_of_find?_eq_some hfind, beq_iff_eq.mp hname, ?_⟩
  intro e he g hg hgname
  exact List.find?_eq_none.mp (hbefore e he) g hg (beq_iff_eq.mpr hgname)

theorem field?_eq_none_iff : c.field? name = none ↔ ¬ c.DeclaresField name := by
  rw [field?_eq_findSome?, List.findSome?_eq_none_iff, DeclaresField]
  simp [FieldHandle.name]

/-! ## What a call means -/

/-- What a call on a class with the hierarchy `cs` has to find, methods added at run time aside. -/
structure Means (c : LoadedClass) (cs : List LoadedClass) (name : String) (k : Nat)
    (found : Option MemberHandle) :
    Prop where
  concrete_iff : (∃ h, found = some (.method h) ∧ h.isAbstract = false)
    ↔ ∃ d ∈ cs, ∃ h, Offers name k d h ∧ h.isAbstract = false
  concrete : ∀ h, found = some (.method h) → h.isAbstract = false →
    FirstConcrete (Offers name k) cs h
  abstract_iff : (∃ h, found = some (.method h) ∧ h.isAbstract = true)
    ↔ (∃ d ∈ cs, ∃ h, Offers name k d h) ∧ ∀ d ∈ cs, ∀ h, Offers name k d h → h.isAbstract = true
  abstract : ∀ h, found = some (.method h) → h.isAbstract = true → ∃ d ∈ cs, Offers name k d h
  field_iff : (∃ f, found = some (.field f))
    ↔ (∀ d ∈ cs, ∀ h, ¬ Offers name k d h) ∧ k = 0 ∧ c.DeclaresField name
  field : ∀ f, found = some (.field f) → c.NearestField name f
  none_iff : found = none ↔ (∀ d ∈ cs, ∀ h, ¬ Offers name k d h) ∧ ¬ (k = 0 ∧ c.DeclaresField name)

namespace Means

/-- A method with a body that comes first is meant. -/
theorem of_concrete (hfirst : FirstConcrete (Offers name k) cs h) :
    c.Means cs name k (some (.method h)) := by
  obtain ⟨d, hd, hoffers⟩ := hfirst.exists_offers
  have hh := hfirst.1
  refine ⟨?_, ?_, ?_, ?_, ?_, ?_, ?_⟩
  · exact iff_of_true ⟨h, rfl, hh⟩ ⟨d, hd, h, hoffers, hh⟩
  · rintro _ ⟨⟩ -
    exact hfirst
  · refine iff_of_false ?_ fun hall => ?_
    · rintro ⟨_, ⟨⟩, habstract⟩
      exact Bool.false_ne_true (hh.symm.trans habstract)
    · exact Bool.false_ne_true (hh.symm.trans (hall.2 d hd h hoffers))
  · rintro _ ⟨⟩ -
    exact ⟨d, hd, hoffers⟩
  · exact iff_of_false (by rintro ⟨f, ⟨⟩⟩) fun hnone => hnone.1 d hd h hoffers
  · rintro f ⟨⟩
  · exact iff_of_false (by rintro ⟨⟩) fun hnone => hnone.1 d hd h hoffers

/-- An abstract method is meant if all that is offered is abstract. -/
theorem of_abstract (hh : h.isAbstract = true) (hd : d ∈ cs) (hoffers : Offers name k d h)
    (hall : ∀ d ∈ cs, ∀ g, Offers name k d g → g.isAbstract = true) :
    c.Means cs name k (some (.method h)) := by
  refine ⟨?_, ?_, ?_, ?_, ?_, ?_, ?_⟩
  · refine iff_of_false ?_ ?_
    · rintro ⟨_, ⟨⟩, hconcrete⟩
      exact Bool.false_ne_true (hconcrete.symm.trans hh)
    · rintro ⟨e, he, g, hg, hconcrete⟩
      exact Bool.false_ne_true (hconcrete.symm.trans (hall e he g hg))
  · rintro _ ⟨⟩ hconcrete
    exact absurd (hconcrete.symm.trans hh) Bool.false_ne_true
  · exact iff_of_true ⟨h, rfl, hh⟩ ⟨⟨d, hd, h, hoffers⟩, hall⟩
  · rintro _ ⟨⟩ -
    exact ⟨d, hd, hoffers⟩
  · exact iff_of_false (by rintro ⟨f, ⟨⟩⟩) fun hnone => hnone.1 d hd h hoffers
  · rintro f ⟨⟩
  · exact iff_of_false (by rintro ⟨⟩) fun hnone => hnone.1 d hd h hoffers

/-- No class offers a method, so the call can only mean a field. -/
theorem of_not_offers {found : Option FieldHandle} (hnone : ∀ d ∈ cs, ∀ g, ¬ Offers name k d g)
    (hfield : ∀ f, found = some f → c.NearestField name f)
    (hfound : found = none ↔ ¬ (k = 0 ∧ c.DeclaresField name)) :
    c.Means cs name k (found.map .field) := by
  refine ⟨?_, ?_, ?_, ?_, ?_, ?_, ?_⟩
  · refine iff_of_false (by rintro ⟨h, hh, -⟩; cases found <;> cases hh) ?_
    rintro ⟨d, hd, h, hoffers, -⟩
    exact hnone d hd h hoffers
  · intro h hh
    cases found <;> cases hh
  · refine iff_of_false (by rintro ⟨h, hh, -⟩; cases found <;> cases hh) ?_
    rintro ⟨⟨d, hd, h, hoffers⟩, -⟩
    exact hnone d hd h hoffers
  · intro h hh
    cases found <;> cases hh
  · have hsome : (∃ f, found.map MemberHandle.field = some (.field f)) ↔ found ≠ none := by
      cases found <;> simp
    rw [hsome, Ne, hfound, not_not]
    exact ⟨fun h => ⟨hnone, h⟩, fun h => h.2⟩
  · intro f hf
    obtain ⟨g, hg, ⟨⟩⟩ := Option.map_eq_some_iff.mp hf
    exact hfield f hg
  · rw [Option.map_eq_none_iff, hfound]
    exact ⟨fun h => ⟨hnone, h⟩, fun h => h.2⟩

end Means

/-- What is found on a class without regard to methods added at run time. -/
theorem means_declaredMember? (hk : k + 1 < UInt64.size) (c : LoadedClass) (name : String) :
    c.Means c.lineage name k (c.declaredMember? name k) := by
  have hcases := searchMethod_cases c name k
  rw [provides_eq_offers hk] at hcases
  rw [declaredMember?]
  rcases hcases with ⟨h, hfound, hfirst⟩ | ⟨h, hfound, hh, ⟨d, hd, hoffers⟩, hall⟩ | ⟨hfound, hnone⟩
  · rw [hfound]
    exact .of_concrete hfirst
  · rw [hfound]
    exact .of_abstract hh hd hoffers hall
  · rw [hfound]
    dsimp only
    split
    · rename_i hzero
      refine .of_not_offers hnone (fun f hf => nearestField_of_field? hf) ?_
      rw [field?_eq_none_iff, and_iff_right hzero]
    · rename_i hpos
      have hfound : (none : Option FieldHandle) = none ↔ ¬ (k = 0 ∧ c.DeclaresField name) := by
        simp [hpos]
      exact .of_not_offers hnone (by rintro f ⟨⟩) hfound

/-- What a call on a class has to find, given the methods added to the class at run time, oldest
first: the newest of the best ones, or else what it finds without them. -/
structure MeansWith (added : List MethodHandle) (name : String) (k : Nat)
    (declared found : Option MemberHandle) : Prop where
  newest : (∃ g ∈ added, g.name = name ∧ g.Takes k) → ∃ h, found = some (.method h) ∧
    MethodHandle.FirstBest (fun g => g.name = name ∧ g.Takes k) MethodHandle.grade added.reverse h
  otherwise : (∀ g ∈ added, g.name = name → ¬ g.Takes k) → found = declared

/-- Added methods come before declared members. -/
theorem meansWith_member? (hk : k + 1 < UInt64.size) (added : List MethodHandle) (c : LoadedClass)
    (name : String) :
    MeansWith added name k (c.declaredMember? name k) (c.member? added name k) := by
  rw [member?]
  cases hselect : MethodHandle.select k (added.reverse.filter (·.name == name)) with
  | some h =>
    have hfits (g : MethodHandle) : (g.name == name) = true ∧ g.accepts k = true ↔ g.name = name ∧
      g.Takes k := by
      rw [beq_iff_eq, MethodHandle.accepts_iff hk]
    have hbest := (MethodHandle.select_eq_some hselect).congr hfits fun g hg => g.rank_eq_grade hg.2
    refine ⟨fun _ => ⟨h, rfl, hbest⟩, fun hnone => ?_⟩
    exact absurd hbest.fits_self.2 (hnone h (List.mem_reverse.mp hbest.mem) hbest.fits_self.1)
  | none =>
    have hnone := MethodHandle.select_eq_none_iff.mp hselect
    refine ⟨?_, fun _ => rfl⟩
    rintro ⟨g, hg, hname, htakes⟩
    have hg := hnone g (List.mem_reverse.mpr hg) (beq_iff_eq.mpr hname)
    rw [(MethodHandle.accepts_iff hk).mpr htakes] at hg
    cases hg

end LoadedClass

/-! ## Sessions -/

/-- A computation succeeds and finds this. -/
def Viewing.Finds {β : Type} (x : Viewing β) (s : Realm) (b : β) : Prop :=
  ∃ t, x.run.run s = (.ok b, t)

/-- A view finds one thing. -/
theorem Viewing.Finds.unique {β : Type} {x : Viewing β} {s : Realm} {a b : β} (ha : x.Finds s a)
    (hb : x.Finds s b) : a = b := by
  obtain ⟨t, ht⟩ := ha
  obtain ⟨u, hu⟩ := hb
  rw [ht] at hu
  cases hu
  rfl

theorem Viewing.FindsClasses.unique {x : Viewing (List RecordNo)} {s : Realm}
    {as bs : List LoadedClass} (ha : x.FindsClasses s as) (hb : x.FindsClasses s bs) : as = bs := by
  obtain ⟨rs, t, ht, rfl⟩ := ha
  obtain ⟨qs, u, hu, rfl⟩ := hb
  rw [ht] at hu
  cases hu
  rfl

theorem Viewing.Yields.finds {β : Type} {classes : List LoadedClass} {x : Viewing β} {s : Realm}
    {b : β} (h : Yields classes x s True fun _ v => v = b) : x.Finds s b := by
  unfold Yields at h
  cases hrun : x.run.run s with
  | mk found t =>
    rw [hrun] at h
    cases found with
    | error e => exact absurd trivial h.2.2
    | ok v => exact ⟨t, by rw [hrun, h.2.2]⟩

namespace Session

variable {α : Type}

/-- Through every record of a class, a call finds the member that it has to find: without the
methods added to the class at run time as well as with them. -/
def Resolves (s : Session α) (c : LoadedClass) (name : String) (k : Nat) : Prop :=
  ∀ (r : RecordNo) d, s.cache.records[r]? = some d → d.cls = c →
    ∃ cs declared found, (View.hierarchy c r).FindsClasses s.realm cs ∧
      (Resolution.declaredMember c r name k).Finds s.realm declared ∧ c.Means cs name k declared ∧
      (Resolution.member c r name k).Finds s.realm found ∧
      LoadedClass.MeansWith d.added name k declared found

section Orderly

variable {s : Session α} {c : LoadedClass} {r : RecordNo} {d : ClassRecord} (hs : s.Orderly)

include hs

/-- A session finds the lineage as the hierarchy of a class. -/
theorem Orderly.finds_hierarchy (hr : s.cache.Describes r c) (hfamily : s.realm.space.HasFamily c) :
    (View.hierarchy c r).FindsClasses s.realm c.lineage :=
  (View.hierarchy_yields hs.population c r s.realm hs.coherent hr fun _ => hfamily).findsClasses

/-- What a view yields through each record of a class, it yields through the current one. -/
theorem Orderly.current_yields {β : Type} {view : RecordNo → Viewing β} {post : Realm → β → Prop}
    (hc : c ∈ s.classes) (hfamily : s.realm.space.HasFamily c)
    (hview : ∀ r t, t.cache.Coherent s.classes → t.cache.Describes r c → t.space.HasFamily c →
      Viewing.Yields s.classes (view r) t True post) :
    Viewing.Yields s.classes (Viewing.recordOf c >>= view) s.realm True post := by
  refine .bind (Viewing.recordOf_yields hs.population hs.coherent hc fun _ => hfamily.self) ?_
  exact fun r t ht hst hr => hview r t ht hr.1 (hst.hasFamily hfamily)

/-- A session finds the declared member. -/
theorem Orderly.finds_declaredMember (hr : s.cache.Describes r c)
    (hfamily : s.realm.space.HasFamily c) (name : String) (k : Nat) :
    (Resolution.declaredMember c r name k).Finds s.realm (c.declaredMember? name k) :=
  (Resolution.declaredMember_yields hs.population name k hs.coherent hr fun _ => hfamily).finds

/-- A session finds the member, added ones included. -/
theorem Orderly.finds_member (hd : s.cache.records[r]? = some d)
    (hfamily : s.realm.space.HasFamily d.cls) (name : String) (k : Nat) :
    (Resolution.member d.cls r name k).Finds s.realm (d.cls.member? d.added name k) :=
  (Resolution.member_yields hs.population name k hs.coherent hd fun _ => hfamily).finds

/-- A session resolves a member as it is meant. -/
theorem Orderly.resolves (hfamily : s.realm.space.HasFamily c) (name : String) {k : Nat}
    (hk : k + 1 < UInt64.size) : s.Resolves c name k := by
  rintro r d hd rfl
  have hr : s.cache.Describes r d.cls := ⟨d, hd, rfl⟩
  exact ⟨d.cls.lineage, d.cls.declaredMember? name k, d.cls.member? d.added name k,
    hs.finds_hierarchy hr hfamily, hs.finds_declaredMember hr hfamily name k,
    LoadedClass.means_declaredMember? hk d.cls name, hs.finds_member hd hfamily name k,
    LoadedClass.meansWith_member? hk d.added d.cls name⟩

end Orderly

/-- A class with a method of variable arguments. -/
def logger : LoadedClass where
  no := 1
  name := "Logger"
  modifiers := .publicOnly
  superclass := some .root
  interfaces := []
  fields := []
  methods := [⟨"log", ["Object[]"], "void", { isPublic := true, isVarargs := true }⟩]
  constructors := []

def loggerActions : List Action := [
  .addLoader,
  .define 0 { name := "Logger", methods := logger.methods },
  .describe 1]

/-- The logger offers its method for the greatest number of arguments. -/
theorem logger_offers :
    ∃ h, LoadedClass.Offers "log" (UInt64.size - 1) logger h ∧ h.isAbstract = false := by
  refine ⟨_, ⟨⟨List.mem_singleton_self _, ?_⟩, ?_⟩, ?_⟩
  · decide
  · decide
  · decide

/-- The method is not found, since the number of its arguments wraps around. -/
theorem declaredMember?_logger : logger.declaredMember? "log" (UInt64.size - 1) = none := by
  have hown : ∀ d ∈ logger.searchOrder, d.ownMethod? "log" (UInt64.size - 1) = none := by
    intro d hd
    have hd : d ∈ [logger, .root] := hd
    rw [LoadedClass.ownMethod?_eq_none_iff]
    rintro h ⟨⟨hmem, -, -, hname⟩, haccepts⟩
    have hnone : ∀ d ∈ [logger, .root], ∀ h : MethodHandle,
      h ∈ Handle.declared d .method d.methods → h.name = "log" →
        h.accepts (UInt64.size - 1) = false := by decide
    rw [hnone d hd h hmem hname] at haccepts
    cases haccepts
  rw [LoadedClass.declaredMember?, LoadedClass.searchMethod_eq, List.filterMap_eq_nil_iff.mpr hown]
  rfl

/-- The session knows the class, nothing was unloaded, and its first record describes the class. -/
theorem logger_described :
    let s : Session Unit := (start .slot fun _ _ => true).run loggerActions
    logger ∈ s.classes ∧ s.realm.space.HasFamily logger ∧ s.cache.Describes 0 logger := by
  intro s
  have hclasses : s.classes = [.root, logger] := rfl
  have hunloaded : s.realm.space.unloaded = [] := rfl
  refine ⟨by simp [hclasses], fun no _ => ?_, _, rfl, rfl⟩
  rw [ClassSpace.isLoaded, hunloaded]
  rfl

/-- The hierarchy of the class is found, but no method. -/
theorem logger_finds :
    let s : Session Unit := (start .slot fun _ _ => true).run loggerActions
    (View.hierarchy logger 0).FindsClasses s.realm logger.lineage ∧
      (Resolution.declaredMember logger 0 "log" (UInt64.size - 1)).Finds s.realm none := by
  intro s
  obtain ⟨-, hfamily, hdescribes⟩ := logger_described
  have hs : s.Orderly := (start_orderly _ _).run loggerActions
  refine ⟨hs.finds_hierarchy hdescribes hfamily, ?_⟩
  rw [← declaredMember?_logger]
  exact hs.finds_declaredMember hdescribes hfamily _ _

/-- In every session and through every record, a call finds the member that it has to find, for
every number of arguments with the exception of the largest. -/
theorem resolves_members_iff (k : UInt64) :
    (∀ (α : Type) (backend : ValueBackend) (permits : AccessPolicy) (actions : List Action)
      (c : LoadedClass)
      (name : String), let s : Session α := (start backend permits).run actions
      c ∈ s.classes → s.realm.space.HasFamily c → s.Resolves c name k.toNat) ↔
        k.toNat + 1 < UInt64.size := by
  constructor
  · intro hall
    by_contra hlarge
    have hk : k.toNat = UInt64.size - 1 := by
      have := k.toNat_lt_size
      omega
    obtain ⟨hmem, hfamily, d, hd, hcls⟩ := logger_described
    have hresolves := hall Unit .slot (fun _ _ => true) loggerActions logger "log" hmem hfamily
    rw [hk] at hresolves
    obtain ⟨cs, declared, found, hcs, hdeclared, hmeans, -⟩ := hresolves 0 d hd hcls
    -- the call finds nothing, although the class itself offers a method
    obtain rfl := hcs.unique logger_finds.1
    have hnone := hmeans.none_iff.mp (hdeclared.unique logger_finds.2)
    have hself : logger ∈ logger.lineage := logger.lineage_eq ▸ List.mem_cons_self
    obtain ⟨h, hoffers, -⟩ := logger_offers
    exact hnone.1 logger hself h hoffers
  · intro hk α backend permits actions c name s _ hfamily
    exact ((start_orderly backend permits).run actions).resolves hfamily name hk

/-- A method of one parameter with variable arguments does not take the largest number of
arguments. -/
theorem logger_largest :
    let s : Session Unit := (start .slot fun _ _ => true).run loggerActions
    logger ∈ s.classes ∧ s.realm.space.HasFamily logger ∧ s.cache.Describes 0 logger ∧
      (∃ h, LoadedClass.Offers "log" (UInt64.size - 1) logger h ∧ h.isAbstract = false) ∧
      (Resolution.declaredMember logger 0 "log" (UInt64.size - 1)).Finds s.realm none :=
  ⟨logger_described.1, logger_described.2.1, logger_described.2.2, logger_offers, logger_finds.2⟩

end Session

end Metaobject

import Metaobject.Proofs.Dispatch.Choices
import Metaobject.Proofs.Dispatch.Independence

/-!
# Which calls are marked

The code of a class has calls in the initializers of its fields, in the bodies of its constructors,
methods and closures, in its static initializer, and in the defaults of parameters. The walk that
marks a class meets all of them but those in defaults. Such a call keeps the marker it had, and in
code that was just read it has none.

* `Expr.calls` lists the calls in an expression with their places, `ClassDecl.calls` those in the
  code of a class.
* `ClassDecl.meets_calls`: the calls outside of defaults are the calls that a walk meets.
* `ClassDecl.sameDefaults_unmarked`: calls in defaults keep their markers, whatever happens to the
  others.
* `markClass_leaves`: the calls that marking a class leaves without a marker.
-/

namespace Metaobject

/-! ## Calls and their places -/

/-- Where a call stands. -/
inductive CallPlace where
  | body
  /-- In the default of a parameter, at any depth. -/
  | parameterDefault
deriving DecidableEq, Repr

/-- A call and where it stands. -/
structure PlacedCall where
  place : CallPlace
  call : Expr

namespace PlacedCall

/-- Whether a call carries no marker. -/
def isUnmarked (p : PlacedCall) : Bool := p.call.dispatch?.isNone

/-- Whether a call stands in the default of a parameter. -/
def inDefault (p : PlacedCall) : Bool := p.place = .parameterDefault

/-- The same call, seen from outside of a default around it. -/
def withinDefault (p : PlacedCall) : PlacedCall := { p with place := .parameterDefault }

end PlacedCall

mutual

/-- The calls in an expression. Annotations are no code. -/
def Expr.calls : Expr → List PlacedCall
  | .constant .. | .var .. | .field .. | .classRef .. | .annotationUse _ => []
  | .property o _ _ => o.calls
  | .closure ps body _ _ => Param.callsAll ps ++ Stmt.callsAll body
  | .list es _ => Expr.callsAll es
  | .map es _ => MapEntry.callsAll es
  | .entry e => e.calls
  | .call o n args i sf t d s =>
    ⟨.body, .call o n args i sf t d s⟩ :: (o.calls ++ n.calls ++ Expr.callsAll args)
  | .staticCall o on n args d s => ⟨.body, .staticCall o on n args d s⟩ :: Expr.callsAll args
  | .construct k args d s => ⟨.body, .construct k args d s⟩ :: Expr.callsAll args
  | .binary _ l r _ => l.calls ++ r.calls
  | .ternary c t e _ => c.calls ++ t.calls ++ e.calls
  | .index o i _ => o.calls ++ i.calls
  | .spread e _ => e.calls
  | .array _ es _ => Expr.callsAll es
  | .assign t v _ => t.calls ++ v.calls

/-- The calls in some expressions. -/
def Expr.callsAll : List Expr → List PlacedCall
  | [] => []
  | e :: es => e.calls ++ Expr.callsAll es

/-- The calls in the expression that computes a method name. -/
def MethodName.calls : MethodName → List PlacedCall
  | .named _ => []
  | .computed e => e.calls

/-- The calls in the key and the value of an entry. -/
def MapEntry.calls : MapEntry → List PlacedCall
  | ⟨k, v, _⟩ => k.calls ++ v.calls

def MapEntry.callsAll : List MapEntry → List PlacedCall
  | [] => []
  | e :: es => e.calls ++ MapEntry.callsAll es

/-- The calls in the default of a parameter. -/
def Param.calls : Param → List PlacedCall
  | ⟨_, _, none, _, _⟩ => []
  | ⟨_, _, some e, _, _⟩ => e.calls.map PlacedCall.withinDefault

/-- The calls in the defaults of some parameters. -/
def Param.callsAll : List Param → List PlacedCall
  | [] => []
  | p :: ps => p.calls ++ Param.callsAll ps

/-- The calls in a statement. -/
def Stmt.calls : Stmt → List PlacedCall
  | .expr e => e.calls
  | .declare _ _ none _ | .ret none _ => []
  | .declare _ _ (some e) _ | .ret (some e) _ => e.calls
  | .cond c t none _ => c.calls ++ Stmt.callsAll t
  | .cond c t (some e) _ => c.calls ++ Stmt.callsAll t ++ Stmt.callsAll e
  | .throw e _ => e.calls
  | .block b => Stmt.callsAll b

/-- The calls in some statements. -/
def Stmt.callsAll : List Stmt → List PlacedCall
  | [] => []
  | s :: ss => s.calls ++ Stmt.callsAll ss

end

/-- The calls in the initializer of a field. -/
def Field.calls (f : Field) : List PlacedCall := f.init.elim [] Expr.calls

/-- The calls in the parameters and the body of a constructor. -/
def Constructor.calls (k : Constructor) : List PlacedCall :=
  Param.callsAll k.params ++ Stmt.callsAll k.body

/-- The calls in the parameters and the body of a method. -/
def Method.calls (m : Method) : List PlacedCall :=
  Param.callsAll m.params ++ m.body.elim [] Stmt.callsAll

/-- The calls in the code of a class. -/
def ClassDecl.calls (c : ClassDecl) : List PlacedCall :=
  c.fields.flatMap Field.calls ++ c.constructors.flatMap Constructor.calls
    ++ c.methods.flatMap Method.calls
    ++ Stmt.callsAll c.staticInit

/-! ## Calls outside of defaults are met -/

/-- What is found in parameters stands in a default. -/
theorem Param.inDefault_of_mem_callsAll (ps : List Param) :
    ∀ p ∈ Param.callsAll ps, p.place = .parameterDefault := by
  induction ps with
  | nil => exact List.forall_mem_nil _
  | cons q ps ih =>
    rw [Param.callsAll, List.forall_mem_append]
    refine ⟨?_, ih⟩
    obtain ⟨name, type, default, annotations, span⟩ := q
    cases default with
    | none => exact List.forall_mem_nil _
    | some e => exact List.forall_mem_map.mpr fun _ _ => rfl

/-- The calls outside of defaults are the calls among the nodes. -/
def Meets (vs : List Visit) (ps : List PlacedCall) : Prop :=
  ∀ e, ⟨.body, e⟩ ∈ ps ↔ .expr e ∈ vs ∧ e.isCall

namespace Meets

variable {vs ws : List Visit} {ps qs : List PlacedCall} {x : Expr}

theorem nil : Meets [] [] := fun e => by simp

theorem append (h : Meets vs ps) (h' : Meets ws qs) : Meets (vs ++ ws) (ps ++ qs) := fun e => by
  rw [List.mem_append, List.mem_append, h e, h' e, or_and_right]

/-- The walk passes the parameters by. -/
theorem params (params : List Param) (h : Meets vs ps) : Meets vs (Param.callsAll params ++ ps) :=
  fun e => by
  have hno : ⟨.body, e⟩ ∉ Param.callsAll params :=
    fun hmem => CallPlace.noConfusion (Param.inDefault_of_mem_callsAll params _ hmem)
  rw [List.mem_append, or_iff_right hno, h e]

/-- A node that is no call is met and is no call. -/
theorem node (hx : x.isCall = false) (h : Meets vs ps) : Meets (.expr x :: vs) ps := fun e => by
  rw [h e, List.mem_cons, Visit.expr.injEq, or_and_right]
  refine (or_iff_right ?_).symm
  rintro ⟨rfl, hcall⟩
  exact Bool.noConfusion (hx.symm.trans hcall)

/-- A call is met where it stands. -/
theorem call (hx : x.isCall = true) (h : Meets vs ps) : Meets (.expr x :: vs) (⟨.body, x⟩ :: ps) :=
  fun e => by
  have hself : e = x → e.isCall = true := fun heq => heq ▸ hx
  simp only [List.mem_cons, PlacedCall.mk.injEq, true_and, Visit.expr.injEq, h e, or_and_right,
    and_iff_left_of_imp hself]

theorem stmt {s : Stmt} (h : Meets vs ps) : Meets (.stmt s :: vs) ps := fun e => by simp [h e]

theorem block {b : Block} (h : Meets vs ps) : Meets (.block b :: vs) ps := fun e => by simp [h e]

end Meets

mutual

/-- A walk through an expression meets its calls, except for those in defaults. -/
theorem Expr.meets_calls : (x : Expr) → Meets x.visits x.calls
  | .constant .. | .var .. | .field .. | .classRef .. | .annotationUse _ => .node rfl .nil
  | .property o _ _ => .node rfl o.meets_calls
  | .closure ps body _ _ => .node rfl (.params ps (.block (Stmt.meets_callsAll body)))
  | .list es _ => .node rfl (Expr.meets_callsAll es)
  | .map es _ => .node rfl (MapEntry.meets_callsAll es)
  | .entry e => .node rfl e.meets_calls
  | .call o n args .. =>
    .call rfl (.append (.append o.meets_calls n.meets_calls) (Expr.meets_callsAll args))
  | .staticCall _ _ _ args _ _ => .call rfl (Expr.meets_callsAll args)
  | .construct _ args _ _ => .call rfl (Expr.meets_callsAll args)
  | .binary _ l r _ => .node rfl (.append l.meets_calls r.meets_calls)
  | .ternary c t e _ => .node rfl (.append (.append c.meets_calls t.meets_calls) e.meets_calls)
  | .index o i _ => .node rfl (.append o.meets_calls i.meets_calls)
  | .spread e _ => .node rfl e.meets_calls
  | .array _ es _ => .node rfl (Expr.meets_callsAll es)
  | .assign t v _ => .node rfl (.append t.meets_calls v.meets_calls)

theorem Expr.meets_callsAll : (es : List Expr) → Meets (Expr.visitsAll es) (Expr.callsAll es)
  | [] => .nil
  | e :: es => .append e.meets_calls (Expr.meets_callsAll es)

theorem MethodName.meets_calls : (n : MethodName) → Meets n.visits n.calls
  | .named _ => .nil
  | .computed e => e.meets_calls

theorem MapEntry.meets_calls : (e : MapEntry) → Meets e.visits e.calls
  | ⟨k, v, _⟩ => .append k.meets_calls v.meets_calls

theorem MapEntry.meets_callsAll :
    (es : List MapEntry) → Meets (MapEntry.visitsAll es) (MapEntry.callsAll es)
  | [] => .nil
  | e :: es => .append e.meets_calls (MapEntry.meets_callsAll es)

theorem Stmt.meets_calls : (s : Stmt) → Meets s.visits s.calls
  | .expr e => .stmt e.meets_calls
  | .declare _ _ none _ | .ret none _ => .stmt .nil
  | .declare _ _ (some e) _ | .ret (some e) _ => .stmt e.meets_calls
  | .cond c t none _ => .stmt (.append c.meets_calls (.block (Stmt.meets_callsAll t)))
  | .cond c t (some e) _ =>
    .stmt (.append (.append c.meets_calls (.block (Stmt.meets_callsAll t)))
      (.block (Stmt.meets_callsAll e)))
  | .throw e _ => .stmt e.meets_calls
  | .block b => .stmt (.block (Stmt.meets_callsAll b))

theorem Stmt.meets_callsAll : (ss : List Stmt) → Meets (Stmt.visitsAll ss) (Stmt.callsAll ss)
  | [] => .nil
  | s :: ss => .append s.meets_calls (Stmt.meets_callsAll ss)

end

/-- One kind of member after the other. -/
theorem Meets.flatMap {α : Type} {nodes : α → List Visit} {calls : α → List PlacedCall}
    (h : ∀ a, Meets (nodes a) (calls a)) (as : List α) :
    Meets (as.flatMap nodes) (as.flatMap calls) := by
  induction as with
  | nil => exact .nil
  | cons a as ih =>
    rw [List.flatMap_cons, List.flatMap_cons]
    exact (h a).append ih

/-- The calls of a class outside of defaults are the calls that a walk over it meets. -/
theorem ClassDecl.meets_calls (c : ClassDecl) : Meets c.nodes c.calls := by
  have hfield (f : Field) : Meets f.nodes f.calls := by
    rw [Field.nodes, Field.calls]
    cases f.init with
    | none => exact .nil
    | some e => exact e.meets_calls
  have hconstructor (k : Constructor) : Meets k.nodes k.calls :=
    .params k.params (.block (Stmt.meets_callsAll k.body))
  have hmethod (m : Method) : Meets m.nodes m.calls := by
    rw [Method.nodes, Method.calls]
    cases m.body with
    | none => exact .params m.params .nil
    | some body => exact .params m.params (.block (Stmt.meets_callsAll body))
  exact .append
    (.append (.append (.flatMap hfield _) (.flatMap hconstructor _)) (.flatMap hmethod _))
    (Stmt.meets_callsAll c.staticInit)

/-! ## Calls in defaults are kept -/

/-- The same calls in defaults, with the same markers. -/
def SameDefaults (ps qs : List PlacedCall) : Prop :=
  ps.filter PlacedCall.inDefault = qs.filter PlacedCall.inDefault

namespace SameDefaults

variable {ps ps' qs qs' : List PlacedCall} {x y : Expr}

theorem refl (ps : List PlacedCall) : SameDefaults ps ps := rfl

theorem append (h : SameDefaults ps qs) (h' : SameDefaults ps' qs') :
    SameDefaults (ps ++ ps') (qs ++ qs') := by
  rw [SameDefaults, List.filter_append, List.filter_append, h, h']

/-- A call outside of defaults does not count. -/
theorem call (h : SameDefaults ps qs) : SameDefaults (⟨.body, x⟩ :: ps) (⟨.body, y⟩ :: qs) := h

end SameDefaults

mutual

/-- Taking the markers away from an expression leaves those in defaults. -/
theorem Expr.sameDefaults_unmarked : (x : Expr) → SameDefaults x.unmarked.calls x.calls
  | .constant .. | .var .. | .field .. | .classRef .. | .annotationUse _ => .refl _
  | .property o _ _ => o.sameDefaults_unmarked
  | .closure ps body _ _ => .append (.refl (Param.callsAll ps)) (Stmt.sameDefaults_unmarkedAll body)
  | .list es _ => Expr.sameDefaults_unmarkedAll es
  | .map es _ => MapEntry.sameDefaults_unmarkedAll es
  | .entry e => e.sameDefaults_unmarked
  | .call o n args .. =>
    .call (.append (.append o.sameDefaults_unmarked n.sameDefaults_unmarked)
      (Expr.sameDefaults_unmarkedAll args))
  | .staticCall _ _ _ args _ _ => .call (Expr.sameDefaults_unmarkedAll args)
  | .construct _ args _ _ => .call (Expr.sameDefaults_unmarkedAll args)
  | .binary _ l r _ => .append l.sameDefaults_unmarked r.sameDefaults_unmarked
  | .ternary c t e _ =>
    .append (.append c.sameDefaults_unmarked t.sameDefaults_unmarked) e.sameDefaults_unmarked
  | .index o i _ => .append o.sameDefaults_unmarked i.sameDefaults_unmarked
  | .spread e _ => e.sameDefaults_unmarked
  | .array _ es _ => Expr.sameDefaults_unmarkedAll es
  | .assign t v _ => .append t.sameDefaults_unmarked v.sameDefaults_unmarked

theorem Expr.sameDefaults_unmarkedAll : (es : List Expr) →
    SameDefaults (Expr.callsAll (Expr.unmarkedAll es)) (Expr.callsAll es)
  | [] => .refl _
  | e :: es => .append e.sameDefaults_unmarked (Expr.sameDefaults_unmarkedAll es)

theorem MethodName.sameDefaults_unmarked : (n : MethodName) → SameDefaults n.unmarked.calls n.calls
  | .named _ => .refl _
  | .computed e => e.sameDefaults_unmarked

theorem MapEntry.sameDefaults_unmarked : (e : MapEntry) → SameDefaults e.unmarked.calls e.calls
  | ⟨k, v, _⟩ => .append k.sameDefaults_unmarked v.sameDefaults_unmarked

theorem MapEntry.sameDefaults_unmarkedAll : (es : List MapEntry) →
    SameDefaults (MapEntry.callsAll (MapEntry.unmarkedAll es)) (MapEntry.callsAll es)
  | [] => .refl _
  | e :: es => .append e.sameDefaults_unmarked (MapEntry.sameDefaults_unmarkedAll es)

theorem Stmt.sameDefaults_unmarked : (s : Stmt) → SameDefaults s.unmarked.calls s.calls
  | .expr e => e.sameDefaults_unmarked
  | .declare _ _ none _ | .ret none _ => .refl _
  | .declare _ _ (some e) _ | .ret (some e) _ => e.sameDefaults_unmarked
  | .cond c t none _ => .append c.sameDefaults_unmarked (Stmt.sameDefaults_unmarkedAll t)
  | .cond c t (some e) _ =>
    .append (.append c.sameDefaults_unmarked (Stmt.sameDefaults_unmarkedAll t))
      (Stmt.sameDefaults_unmarkedAll e)
  | .throw e _ => e.sameDefaults_unmarked
  | .block b => Stmt.sameDefaults_unmarkedAll b

theorem Stmt.sameDefaults_unmarkedAll : (ss : List Stmt) →
    SameDefaults (Stmt.callsAll (Stmt.unmarkedAll ss)) (Stmt.callsAll ss)
  | [] => .refl _
  | s :: ss => .append s.sameDefaults_unmarked (Stmt.sameDefaults_unmarkedAll ss)

end

/-- What leaves the defaults in each element leaves them in all. -/
theorem SameDefaults.flatMap_map {α : Type} {strip : α → α} {calls : α → List PlacedCall}
    (h : ∀ a, SameDefaults (calls (strip a)) (calls a)) (as : List α) :
    SameDefaults ((as.map strip).flatMap calls) (as.flatMap calls) := by
  induction as with
  | nil => exact .refl _
  | cons a as ih =>
    rw [List.map_cons, List.flatMap_cons, List.flatMap_cons]
    exact (h a).append ih

/-- Taking the markers that a walk meets away does not touch the calls in defaults. -/
theorem ClassDecl.sameDefaults_unmarked (c : ClassDecl) :
    SameDefaults c.unmarked.calls c.calls := by
  have hfield (f : Field) : SameDefaults f.unmarked.calls f.calls := by
    rw [Field.calls, Field.calls, Field.unmarked]
    cases f.init with
    | none => exact .refl _
    | some e => exact e.sameDefaults_unmarked
  have hconstructor (k : Constructor) : SameDefaults k.unmarked.calls k.calls :=
    .append (.refl (Param.callsAll k.params)) (Stmt.sameDefaults_unmarkedAll k.body)
  have hmethod (m : Method) : SameDefaults m.unmarked.calls m.calls := by
    refine .append (.refl (Param.callsAll m.params)) ?_
    show SameDefaults ((m.body.map Stmt.unmarkedAll).elim [] Stmt.callsAll) _
    cases m.body with
    | none => exact .refl _
    | some body => exact Stmt.sameDefaults_unmarkedAll body
  exact .append
    (.append (.append (.flatMap_map hfield _) (.flatMap_map hconstructor _))
    (.flatMap_map hmethod _))
    (Stmt.sameDefaults_unmarkedAll c.staticInit)

/-! ## Marking a class -/

namespace ClassTable

variable {t : ClassTable} {id : ClassId} {c : ClassDecl}

/-- The calls that a class is left with unmarked: those in defaults that carried no marker
before. -/
theorem unmarked_calls_marked (hc : t.FiniteChains) (caching : Bool) (c : ClassDecl) :
    (t.marked caching c).calls.filter PlacedCall.isUnmarked
      = (c.calls.filter PlacedCall.inDefault).filter PlacedCall.isUnmarked := by
  obtain ⟨hrun, hsame⟩ := run_markMembers hc caching c
  obtain ⟨-, hanswered⟩ := (markMembers_answers hc caching c).of_run hrun
  -- outside of defaults every call is met, and carries the marker of its choice
  have hmarked : ∀ p ∈ (t.marked caching c).calls, p.isUnmarked = true → p.inDefault = true := by
    rintro ⟨place, e⟩ hp hunmarked
    cases place with
    | parameterDefault => rfl
    | body =>
      obtain ⟨hmet, hcall⟩ := ((t.marked caching c).meets_calls e).mp hp
      obtain ⟨inStatic, choice, d, -, -, hd⟩ := hanswered e hmet hcall
      rw [PlacedCall.isUnmarked, hd] at hunmarked
      cases hunmarked
  have hdefaults : SameDefaults (t.marked caching c).calls c.calls := by
    have hstrip := c.sameDefaults_unmarked
    rw [← hsame] at hstrip
    exact (t.marked caching c).sameDefaults_unmarked.symm.trans hstrip
  rw [← hdefaults, List.filter_filter]
  exact List.filter_congr fun p hp => by grind

/-- Marking a class succeeds, and the calls it leaves without a marker are the calls in defaults of
parameters that had none before. So every call in the code of the class carries a marker exactly if
those in defaults did. -/
theorem markClass_leaves (hc : t.FiniteChains) (caching : Bool) (hget : t.get? id = some c) :
    ∃ t' sites c', t.markClass caching id = .ok (t', sites) ∧ t'.get? id = some c' ∧
      c'.calls.filter PlacedCall.isUnmarked =
        (c.calls.filter PlacedCall.inDefault).filter PlacedCall.isUnmarked ∧
      ((∀ p ∈ c'.calls, p.call.dispatch? ≠ none) ↔
        ∀ p ∈ c.calls, p.place = .parameterDefault → p.call.dispatch? ≠ none) := by
  have hleft := unmarked_calls_marked hc caching c
  refine ⟨_, _, _, markClass_eq hc caching hget, get?_set_self hget _, hleft, ?_⟩
  have hall (ps : List PlacedCall) :
      (∀ p ∈ ps, p.call.dispatch? ≠ none) ↔ ps.filter PlacedCall.isUnmarked = [] := by
    simp [PlacedCall.isUnmarked]
  rw [hall, hleft, ← hall, List.forall_mem_filter]
  simp only [PlacedCall.inDefault, decide_eq_true_eq]

/-- A constructor call, with or without a marker. -/
def exceptionConstruction (d : Option Dispatch) : Expr :=
  .construct (.new (.resolved Builtin.illegalArgument "IllegalArgumentException")) [.string "x"] d
    .synthetic

/-- A class with one method, whose parameter has this default. -/
def defaultingClass (init : Expr) (body : Block) : ClassDecl :=
  { ClassDecl.empty "A" .ordinary with
    methods := [⟨"m", .publicOnly, Builtin.objectType,
      [⟨"p", Builtin.objectType, some init, [], .synthetic⟩], some body, none, [], .synthetic⟩] }

/-- The constructor call with its marker. -/
def boundConstruction : Expr :=
  exceptionConstruction (some (.directConstructor Builtin.illegalArgument 0))

/-- A call inside a closure in the body of a method, and a call in the default of its parameter that
has been bound. -/
def boundDefaultClass : ClassDecl :=
  defaultingClass boundConstruction [.expr (.closure [] [.expr (.callThis "f" [])] [] .synthetic)]

def boundDefaultTable : ClassTable := ClassTable.seeded.add boundDefaultClass

/-- The default is bound already, and so nothing is left without a marker. -/
theorem markClass_leaves_none :
    ∃ t' sites c', boundDefaultTable.markClass true 25 = .ok (t', sites) ∧ t'.get? 25 = some c' ∧
      ∀ p ∈ c'.calls, p.call.dispatch? ≠ none := by
  have hc : boundDefaultTable.FiniteChains := finiteChains_of_lt (by decide)
  have hget : boundDefaultTable.get? 25 = some { boundDefaultClass with id := 25 } := rfl
  obtain ⟨t', sites, c', hrun, hget', -, hall⟩ := markClass_leaves hc true hget
  refine ⟨t', sites, c', hrun, hget', hall.mpr ?_⟩
  show ∀ p ∈
    ([⟨.parameterDefault, boundConstruction⟩, ⟨.body, .callThis "f" []⟩] : List PlacedCall), _
  simp [boundConstruction, exceptionConstruction, Expr.dispatch?]

/-- The same call in a default, without a marker. -/
def openDefaultTable : ClassTable :=
  ClassTable.seeded.add (defaultingClass (exceptionConstruction none) [])

/-- A call in the default of a parameter: after its class is marked it has no marker. -/
theorem markClass_leaves_default :
    ∃ t' sites c', openDefaultTable.markClass true 25 = .ok (t', sites) ∧ t'.get? 25 = some c' ∧
      ⟨.parameterDefault, exceptionConstruction none⟩ ∈ c'.calls ∧
      (exceptionConstruction none).dispatch? = none :=
  ⟨_, _, _, rfl, rfl, .head _, rfl⟩

end ClassTable

end Metaobject

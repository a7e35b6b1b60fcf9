import Metaobject.Proofs.Dispatch.Numbering

/-!
# Code without any marker

A walk over a class passes some code by: the parameters of closures, methods and constructors with
their defaults, attribute defaults, and annotations. Calls in such code are never marked, but they
may carry markers. Erasing takes these away as well.

* `Expr.erased false` is code without any marker. `Expr.erased true` keeps the markers that a walk
  meets.
* `Expr.transform_erased`: a walk that reads no marker does the same to erased code, up to what it
  passes by.
* `choice?_erased`: the choice for a call reads no marker.
-/

namespace Metaobject

/-! ## Erasing markers -/

mutual

/-- Take the markers away: all of them, or with `keep` only those that a walk does not meet. -/
def Expr.erased (keep : Bool) : Expr → Expr
  | .constant v s => .constant v s
  | .var n b s => .var n b s
  | .property o n s => .property (o.erased keep) n s
  | .field o n s => .field o n s
  | .classRef ty s => .classRef ty s
  | .closure ps body cs s => .closure (Param.erasedAll ps) (Stmt.erasedAll keep body) cs s
  | .list es s => .list (Expr.erasedAll keep es) s
  | .map es s => .map (MapEntry.erasedAll keep es) s
  | .entry e => .entry (e.erased keep)
  | .annotationUse a => .annotationUse a.erased
  | .call o n args i sf t d s =>
    .call (o.erased keep) (n.erased keep) (Expr.erasedAll keep args) i sf t
      (if keep then d else none) s
  | .staticCall o on n args d s =>
    .staticCall o on n (Expr.erasedAll keep args) (if keep then d else none) s
  | .construct k args d s => .construct k (Expr.erasedAll keep args) (if keep then d else none) s
  | .binary op l r s => .binary op (l.erased keep) (r.erased keep) s
  | .ternary c t e s => .ternary (c.erased keep) (t.erased keep) (e.erased keep) s
  | .index o i s => .index (o.erased keep) (i.erased keep) s
  | .spread e s => .spread (e.erased keep) s
  | .array ty es s => .array ty (Expr.erasedAll keep es) s
  | .assign t v s => .assign (t.erased keep) (v.erased keep) s

/-- The same for some expressions. -/
def Expr.erasedAll (keep : Bool) : List Expr → List Expr
  | [] => []
  | e :: es => e.erased keep :: Expr.erasedAll keep es

def MethodName.erased (keep : Bool) : MethodName → MethodName
  | .named n => .named n
  | .computed e => .computed (e.erased keep)

def MapEntry.erased (keep : Bool) : MapEntry → MapEntry
  | ⟨k, v, s⟩ => ⟨k.erased keep, v.erased keep, s⟩

def MapEntry.erasedAll (keep : Bool) : List MapEntry → List MapEntry
  | [] => []
  | e :: es => e.erased keep :: MapEntry.erasedAll keep es

/-- The same for a statement. -/
def Stmt.erased (keep : Bool) : Stmt → Stmt
  | .expr e => .expr (e.erased keep)
  | .declare n ty none s => .declare n ty none s
  | .declare n ty (some e) s => .declare n ty (some (e.erased keep)) s
  | .ret none s => .ret none s
  | .ret (some e) s => .ret (some (e.erased keep)) s
  | .cond c t none s => .cond (c.erased keep) (Stmt.erasedAll keep t) none s
  | .cond c t (some e) s =>
    .cond (c.erased keep) (Stmt.erasedAll keep t) (some (Stmt.erasedAll keep e)) s
  | .throw e s => .throw (e.erased keep) s
  | .block b => .block (Stmt.erasedAll keep b)

/-- The same for some statements. -/
def Stmt.erasedAll (keep : Bool) : List Stmt → List Stmt
  | [] => []
  | s :: ss => s.erased keep :: Stmt.erasedAll keep ss

/-- No walk enters a parameter. -/
def Param.erased : Param → Param
  | ⟨n, ty, none, as, s⟩ => ⟨n, ty, none, AnnotationUse.erasedAll as, s⟩
  | ⟨n, ty, some e, as, s⟩ => ⟨n, ty, some (e.erased false), AnnotationUse.erasedAll as, s⟩

/-- Some parameters without markers. -/
def Param.erasedAll : List Param → List Param
  | [] => []
  | p :: ps => p.erased :: Param.erasedAll ps

/-- No walk enters an annotation. -/
def AnnotationUse.erased : AnnotationUse → AnnotationUse
  | ⟨type, members, validated, s⟩ => ⟨type, AnnotationUse.erasedMembers members, validated, s⟩

def AnnotationUse.erasedMembers : List (String × Expr) → List (String × Expr)
  | [] => []
  | (n, e) :: rest => (n, e.erased false) :: AnnotationUse.erasedMembers rest

/-- Some usages without markers. -/
def AnnotationUse.erasedAll : List AnnotationUse → List AnnotationUse
  | [] => []
  | a :: as => a.erased :: AnnotationUse.erasedAll as

end

/-! ## Erased code is unmarked code -/

mutual

/-- Markers that are taken away by the walk need not be erased. -/
theorem Expr.erased_unmarked : (e : Expr) → e.unmarked.erased false = e.erased false
  | .constant .. | .var .. | .field .. | .classRef .. | .annotationUse _ => rfl
  | .property o n s => congrArg (Expr.property · n s) o.erased_unmarked
  | .closure ps body cs s =>
    congrArg (Expr.closure (Param.erasedAll ps) · cs s) (Stmt.erasedAll_unmarked body)
  | .list es s => congrArg (Expr.list · s) (Expr.erasedAll_unmarked es)
  | .map es s => congrArg (Expr.map · s) (MapEntry.erasedAll_unmarked es)
  | .entry e => congrArg Expr.entry e.erased_unmarked
  | .call o n args i sf t d s => by
    show Expr.call (o.unmarked.erased false) (n.unmarked.erased false)
      (Expr.erasedAll false (Expr.unmarkedAll args)) i sf
      t none s = _
    rw [o.erased_unmarked, n.erased_unmarked, Expr.erasedAll_unmarked args]
    rfl
  | .staticCall o on n args d s =>
    congrArg (Expr.staticCall o on n · none s) (Expr.erasedAll_unmarked args)
  | .construct k args d s => congrArg (Expr.construct k · none s) (Expr.erasedAll_unmarked args)
  | .binary op l r s => congrArg₂ (Expr.binary op · · s) l.erased_unmarked r.erased_unmarked
  | .ternary c t e s => by
    show Expr.ternary (c.unmarked.erased false) (t.unmarked.erased false)
      (e.unmarked.erased false) s = _
    rw [c.erased_unmarked, t.erased_unmarked, e.erased_unmarked]
    rfl
  | .index o i s => congrArg₂ (Expr.index · · s) o.erased_unmarked i.erased_unmarked
  | .spread e s => congrArg (Expr.spread · s) e.erased_unmarked
  | .array ty es s => congrArg (Expr.array ty · s) (Expr.erasedAll_unmarked es)
  | .assign t v s => congrArg₂ (Expr.assign · · s) t.erased_unmarked v.erased_unmarked

theorem Expr.erasedAll_unmarked : (es : List Expr) →
    Expr.erasedAll false (Expr.unmarkedAll es) = Expr.erasedAll false es
  | [] => rfl
  | e :: es => congrArg₂ (· :: ·) e.erased_unmarked (Expr.erasedAll_unmarked es)

theorem MethodName.erased_unmarked : (n : MethodName) → n.unmarked.erased false = n.erased false
  | .named _ => rfl
  | .computed e => congrArg MethodName.computed e.erased_unmarked

theorem MapEntry.erased_unmarked : (e : MapEntry) → e.unmarked.erased false = e.erased false
  | ⟨k, v, s⟩ => congrArg₂ (MapEntry.mk · · s) k.erased_unmarked v.erased_unmarked

theorem MapEntry.erasedAll_unmarked : (es : List MapEntry) →
    MapEntry.erasedAll false (MapEntry.unmarkedAll es) = MapEntry.erasedAll false es
  | [] => rfl
  | e :: es => congrArg₂ (· :: ·) e.erased_unmarked (MapEntry.erasedAll_unmarked es)

theorem Stmt.erased_unmarked : (s : Stmt) → s.unmarked.erased false = s.erased false
  | .expr e => congrArg Stmt.expr e.erased_unmarked
  | .declare _ _ none _ | .ret none _ => rfl
  | .declare n ty (some e) s => congrArg (fun e => Stmt.declare n ty (some e) s) e.erased_unmarked
  | .ret (some e) s => congrArg (fun e => Stmt.ret (some e) s) e.erased_unmarked
  | .cond c t none s =>
    congrArg₂ (Stmt.cond · · none s) c.erased_unmarked (Stmt.erasedAll_unmarked t)
  | .cond c t (some e) s => by
    show Stmt.cond (c.unmarked.erased false) (Stmt.erasedAll false (Stmt.unmarkedAll t))
      (some (Stmt.erasedAll false (Stmt.unmarkedAll e))) s = _
    rw [c.erased_unmarked, Stmt.erasedAll_unmarked t, Stmt.erasedAll_unmarked e]
    rfl
  | .throw e s => congrArg (Stmt.throw · s) e.erased_unmarked
  | .block b => congrArg Stmt.block (Stmt.erasedAll_unmarked b)

theorem Stmt.erasedAll_unmarked : (ss : List Stmt) →
    Stmt.erasedAll false (Stmt.unmarkedAll ss) = Stmt.erasedAll false ss
  | [] => rfl
  | s :: ss => congrArg₂ (· :: ·) s.erased_unmarked (Stmt.erasedAll_unmarked ss)

end

/-! ## Walks over erased code -/

/-- A walk that does the same at a call whatever markers it meets there. -/
structure Transformer.Oblivious {m : Type → Type} [Monad m] (w : Transformer m) : Prop where
  look : ∀ v, w.look v = pure ()
  mark : ∀ e, e.isCall → w.mark (e.erased false) none = w.mark e e.dispatch?

section Walk

variable {m : Type → Type} [Monad m] [LawfulMonad m] {w : Transformer m}

mutual

/-- A walk that reads no marker makes the same of erased code, up to the code that it passes by. -/
theorem Expr.transform_erased (hw : w.Oblivious) : (e : Expr) →
    (e.erased false).transform w = Expr.erased true <$> e.transform w
  | .constant .. | .field .. | .classRef .. | .annotationUse _ | .var .. => by
    simp [Expr.erased, Expr.transform, hw.look]
  | .property o n s => by
    simp [Expr.erased, Expr.transform, hw.look, o.transform_erased hw]
  | .closure ps body cs s => by
    simp [Expr.erased, Expr.transform, hw.look, Stmt.transformAll_erased hw body]
  | .list es s => by
    simp [Expr.erased, Expr.transform, hw.look, Expr.transformAll_erased hw es]
  | .map es s => by
    simp [Expr.erased, Expr.transform, hw.look, MapEntry.transformAll_erased hw es]
  | .entry e => by
    simp [Expr.erased, Expr.transform, hw.look, e.transform_erased hw]
  | .call o n args i sf t d s => by
    have hmark :
      w.mark (.call (o.erased false) (n.erased false) (Expr.erasedAll false args) i sf t none s)
      none
        = w.mark (.call o n args i sf t d s) d := hw.mark (.call o n args i sf t d s) rfl
    simp [Expr.erased, Expr.transform, hw.look, o.transform_erased hw, n.transform_erased hw,
      Expr.transformAll_erased hw args, hmark]
  | .staticCall o on n args d s => by
    have hmark : w.mark (.staticCall o on n (Expr.erasedAll false args) none s) none
        = w.mark (.staticCall o on n args d s) d := hw.mark (.staticCall o on n args d s) rfl
    simp [Expr.erased, Expr.transform, hw.look, Expr.transformAll_erased hw args, hmark]
  | .construct k args d s => by
    have hmark : w.mark (.construct k (Expr.erasedAll false args) none s) none = w.mark
      (.construct k args d s) d :=
      hw.mark (.construct k args d s) rfl
    simp [Expr.erased, Expr.transform, hw.look, Expr.transformAll_erased hw args, hmark]
  | .binary op l r s => by
    simp [Expr.erased, Expr.transform, hw.look, l.transform_erased hw, r.transform_erased hw]
  | .ternary c t e s => by
    simp [Expr.erased, Expr.transform, hw.look, c.transform_erased hw, t.transform_erased hw,
      e.transform_erased hw]
  | .index o i s => by
    simp [Expr.erased, Expr.transform, hw.look, o.transform_erased hw, i.transform_erased hw]
  | .spread e s => by
    simp [Expr.erased, Expr.transform, hw.look, e.transform_erased hw]
  | .array ty es s => by
    simp [Expr.erased, Expr.transform, hw.look, Expr.transformAll_erased hw es]
  | .assign t v s => by
    simp [Expr.erased, Expr.transform, hw.look, t.transform_erased hw, v.transform_erased hw]

theorem Expr.transformAll_erased (hw : w.Oblivious) : (es : List Expr) →
    Expr.transformAll w (Expr.erasedAll false es) = Expr.erasedAll true <$> Expr.transformAll w es
  | [] => by simp [Expr.erasedAll, Expr.transformAll]
  | e :: es => by
    simp [Expr.erasedAll, Expr.transformAll, e.transform_erased hw, Expr.transformAll_erased hw es]

theorem MethodName.transform_erased (hw : w.Oblivious) : (n : MethodName) →
    (n.erased false).transform w = MethodName.erased true <$> n.transform w
  | .named _ => by simp [MethodName.erased, MethodName.transform]
  | .computed e => by simp [MethodName.erased, MethodName.transform, e.transform_erased hw]

theorem MapEntry.transform_erased (hw : w.Oblivious) : (e : MapEntry) →
    (e.erased false).transform w = MapEntry.erased true <$> e.transform w
  | ⟨k, v, s⟩ => by
    simp [MapEntry.erased, MapEntry.transform, k.transform_erased hw, v.transform_erased hw]

theorem MapEntry.transformAll_erased (hw : w.Oblivious) : (es : List MapEntry) →
    MapEntry.transformAll w
      (MapEntry.erasedAll false es) = MapEntry.erasedAll true <$> MapEntry.transformAll w es
  | [] => by simp [MapEntry.erasedAll, MapEntry.transformAll]
  | e :: es => by
    simp [MapEntry.erasedAll, MapEntry.transformAll, e.transform_erased hw,
      MapEntry.transformAll_erased hw es]

theorem Stmt.transform_erased (hw : w.Oblivious) : (s : Stmt) →
    (s.erased false).transform w = Stmt.erased true <$> s.transform w
  | .expr e => by simp [Stmt.erased, Stmt.transform, hw.look, e.transform_erased hw]
  | .declare _ _ none _ | .ret none _ => by simp [Stmt.erased, Stmt.transform, hw.look]
  | .declare n ty (some e) s =>
    by simp [Stmt.erased, Stmt.transform, hw.look, e.transform_erased hw]
  | .ret (some e) s => by simp [Stmt.erased, Stmt.transform, hw.look, e.transform_erased hw]
  | .cond c t none s => by
    simp [Stmt.erased, Stmt.transform, hw.look, c.transform_erased hw,
      Stmt.transformAll_erased hw t]
  | .cond c t (some e) s => by
    simp [Stmt.erased, Stmt.transform, hw.look, c.transform_erased hw,
      Stmt.transformAll_erased hw t, Stmt.transformAll_erased hw e]
  | .throw e s => by simp [Stmt.erased, Stmt.transform, hw.look, e.transform_erased hw]
  | .block b => by simp [Stmt.erased, Stmt.transform, hw.look, Stmt.transformAll_erased hw b]

theorem Stmt.transformAll_erased (hw : w.Oblivious) : (ss : List Stmt) →
    Stmt.transformAll w (Stmt.erasedAll false ss) = Stmt.erasedAll true <$> Stmt.transformAll w ss
  | [] => by simp [Stmt.erasedAll, Stmt.transformAll]
  | s :: ss => by
    simp [Stmt.erasedAll, Stmt.transformAll, s.transform_erased hw, Stmt.transformAll_erased hw ss]

end

end Walk

/-! ## The choice reads no marker -/

theorem Expr.erasedAll_eq_map (keep : Bool) (es : List Expr) :
    Expr.erasedAll keep es = es.map (Expr.erased keep) := by
  induction es with
  | nil => rfl
  | cons e es ih => rw [Expr.erasedAll, ih, List.map_cons]

@[simp]
theorem Expr.isSpread_erased (keep : Bool) (e : Expr) : (e.erased keep).isSpread = e.isSpread := by
  cases e <;> rfl

@[simp]
theorem Expr.isSuper_erased (keep : Bool) (e : Expr) : (e.erased keep).isSuper = e.isSuper := by
  cases e <;> rfl

/-- Erasing markers keeps the number of arguments. -/
@[simp]
theorem Expr.length_erasedAll (keep : Bool) (es : List Expr) :
    (Expr.erasedAll keep es).length = es.length := by
  rw [Expr.erasedAll_eq_map, List.length_map]

/-- Erasing markers keeps spread arguments. -/
@[simp]
theorem Expr.any_isSpread_erasedAll (keep : Bool) (es : List Expr) :
    (Expr.erasedAll keep es).any Expr.isSpread = es.any Expr.isSpread := by
  simp [Expr.erasedAll_eq_map, List.any_map, Function.comp_def]

namespace ClassTable

variable (t : ClassTable) (caching keep : Bool)

/-- The type of a receiver does not depend on markers. -/
@[simp]
theorem receiverType?_erased (ctx : CallContext) (e : Expr) :
    t.receiverType? ctx (e.erased keep) = t.receiverType? ctx e := by
  cases e with
  | construct kind args d span => cases kind <;> rfl
  | _ => rfl

theorem methodChoice_erased (ctx : CallContext) (object : Expr) (method : MethodName)
    (args : List Expr) (implicitThis : Bool) (target : Option MethodTarget) :
    t.methodChoice caching ctx (object.erased keep) (method.erased keep)
      (Expr.erasedAll keep args) implicitThis target
      = t.methodChoice caching ctx object method args implicitThis target := by
  simp only [methodChoice, Expr.any_isSpread_erasedAll, Expr.length_erasedAll, Expr.isSuper_erased,
    receiverType?_erased]
  -- what is left of the code is whether the name is written down
  generalize target.filter _ = bound
  cases bound <;> cases method <;> rfl

/-- The choice for a call reads no marker. -/
theorem choice?_erased (ctx : CallContext) (e : Expr) :
    t.choice? caching ctx (e.erased keep) = t.choice? caching ctx e := by
  cases e with
  | call o n args i sf tg d s => simp only [Expr.erased, choice?, methodChoice_erased]
  | staticCall o on n args d s =>
    simp only [Expr.erased, choice?, staticChoice, Expr.any_isSpread_erasedAll,
      Expr.length_erasedAll]
  | construct k args d s =>
    simp only [Expr.erased, choice?, constructorChoice, Expr.any_isSpread_erasedAll,
      Expr.length_erasedAll]
  | _ => rfl

theorem choice?_unmarked (ctx : CallContext) (e : Expr) :
    t.choice? caching ctx e.unmarked = t.choice? caching ctx e := by
  rw [← t.choice?_erased caching false, e.erased_unmarked, choice?_erased]

/-- A call is marked by its choice alone, whatever marker it carries. -/
theorem marker_congr {ctx : CallContext} {e e' : Expr} (he : e.isCall)
    (h : t.choice? caching ctx e' = t.choice? caching ctx e) (d d' : Option Dispatch) :
    t.marker caching ctx e' d' = t.marker caching ctx e d := by
  rw [marker, marker, h]
  cases e with
  | call => rfl
  | staticCall owner ownerName method args _ span =>
    rw [choice?]
    cases t.staticChoice caching owner method args <;> rfl
  | construct => rfl
  | _ => cases he

/-- The walk that marks calls does not see markers. -/
theorem markingWalk_oblivious (ctx : CallContext) : (t.markingWalk caching ctx).Oblivious where
  look _ := rfl
  mark e he := t.marker_congr caching he (t.choice?_erased caching false ctx e) e.dispatch? none

end ClassTable

end Metaobject

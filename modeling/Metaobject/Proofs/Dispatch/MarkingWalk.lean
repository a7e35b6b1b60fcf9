import Metaobject.Dispatch.Marking

/-!
# Walks that mark calls

A walk that only writes markers keeps the rest of the code, and what it does at each call shows in
the marked code when it is visited in order.

* `Expr.unmarked` is code without its markers; two pieces of code that differ in markers only have
  the same one.
* `Stmt.transformAll_marks` and `Expr.transform_marks` say that marking code succeeds and keeps the
  code up to markers, and that what holds at each call holds of the walk.
* `Registers keys vs keys'` is what holds for call sites: the sites met among `vs` are those that
  `keys'` adds to `keys`, in order.
-/

namespace Metaobject

/-! ## Calls and their markers -/

/-- The marker that a call expression carries. -/
def Expr.dispatch? : Expr → Option Dispatch
  | .call _ _ _ _ _ _ d _ | .staticCall _ _ _ _ d _ | .construct _ _ d _ => d
  | _ => none

/-- The name of the method that an expression calls, where it is written down. -/
def Expr.calledName? : Expr → Option String
  | .call _ m _ _ _ _ _ _ => m.known?
  | .staticCall _ _ m _ _ _ => some m
  | _ => none

/-- Whether an expression is a call of a method or a constructor. -/
def Expr.isCall : Expr → Bool
  | .call .. | .staticCall .. | .construct .. => true
  | _ => false

/-- The key and the number of the call site that a marker stands for. -/
def Dispatch.site? : Dispatch → Option (SiteKey × Nat)
  | .callSite index key => some (key, index)
  | _ => none

/-- The call site that is met, if it is one. -/
def Visit.site? : Visit → Option (SiteKey × Nat)
  | .expr e => e.dispatch?.bind Dispatch.site?
  | _ => none

/-- A call site that is met has the name of the called method. -/
def Visit.NamesSite (v : Visit) : Prop :=
  ∀ e key index, v = .expr e → e.dispatch? = some (.callSite index key) →
    e.calledName? = some key.name

/-! ## Code without markers -/

/-- The walk that takes all markers away. -/
def Transformer.unmark : Transformer Id := { mark := fun _ _ => pure none }

/-- An expression without the markers of its calls. -/
def Expr.unmarked (e : Expr) : Expr := (e.transform .unmark).run

/-- Some expressions without the markers of their calls. -/
def Expr.unmarkedAll (es : List Expr) : List Expr := (Expr.transformAll .unmark es).run

def MethodName.unmarked (n : MethodName) : MethodName := (n.transform .unmark).run

def MapEntry.unmarked (e : MapEntry) : MapEntry := (e.transform .unmark).run

def MapEntry.unmarkedAll (es : List MapEntry) : List MapEntry :=
  (MapEntry.transformAll .unmark es).run

/-- A statement without the markers of its calls. -/
def Stmt.unmarked (s : Stmt) : Stmt := (s.transform .unmark).run

/-- Some statements without the markers of their calls. -/
def Stmt.unmarkedAll (ss : List Stmt) : List Stmt := (Stmt.transformAll .unmark ss).run

theorem MethodName.known?_unmarked (n : MethodName) : n.unmarked.known? = n.known? := by
  cases n <;> rfl

/-- The name of a called method does not depend on markers. -/
theorem Expr.calledName?_unmarked (e : Expr) : e.unmarked.calledName? = e.calledName? := by
  cases e with
  | call o n args i sf t d s => exact n.known?_unmarked
  | _ => rfl

/-! ## Computations that succeed -/

/-- From `keys` the computation succeeds, with a result and keys that meet `post`. -/
def Marking.Succeeds {α : Type} (x : Marking α) (keys : List SiteKey)
    (post : α → List SiteKey → Prop) : Prop :=
  ∃ a keys', x.run keys = .ok (a, keys') ∧ post a keys'

/-- A computation succeeds if its first part does and its second part goes on from there. -/
theorem Marking.Succeeds.bind {α β : Type} {x : Marking α} {f : α → Marking β} {keys : List SiteKey}
    {mid : α → List SiteKey → Prop} {post : β → List SiteKey → Prop} (hx : x.Succeeds keys mid)
    (hf : ∀ a keys', mid a keys' → (f a).Succeeds keys' post) : (x >>= f).Succeeds keys post := by
  obtain ⟨a, keys', hrun, ha⟩ := hx
  obtain ⟨b, keys'', hrun', hb⟩ := hf a keys' ha
  refine ⟨b, keys'', ?_, hb⟩
  rw [StateT.run_bind, hrun]
  exact hrun'

theorem Marking.Succeeds.pure {α : Type} {a : α} {keys : List SiteKey}
    {post : α → List SiteKey → Prop} (h : post a keys) :
    (Pure.pure a : Marking α).Succeeds keys post :=
  ⟨a, keys, rfl, h⟩

/-- What holds of all results holds of the result of a run. -/
theorem Marking.Succeeds.of_run {α : Type} {x : Marking α} {keys keys' : List SiteKey} {a : α}
    {post : α → List SiteKey → Prop} (h : x.Succeeds keys post)
    (hrun : x.run keys = .ok (a, keys')) : post a keys' := by
  obtain ⟨b, keys'', hrun', hb⟩ := h
  rw [hrun] at hrun'
  cases hrun'
  exact hb

/-! ## Marking walks -/

/-- A walk that only marks calls. The relation holds between the keys before, the nodes of the
marked code and the keys after, because it holds at each node. -/
structure Transformer.OnlyMarks (w : Transformer Marking)
    (R : List SiteKey → List Visit → List SiteKey → Prop) :
    Prop where
  look : ∀ v, w.look v = pure ()
  rename : ∀ n, w.rename n = pure n
  nil : ∀ keys, R keys [] keys
  append : ∀ {keys keys' keys'' vs ws}, R keys vs keys' → R keys' ws keys'' →
    R keys (vs ++ ws) keys''
  other : ∀ {keys v}, (∀ e, v = .expr e → e.isCall = false) → R keys [v] keys
  mark : ∀ e d keys, e.isCall → (w.mark e d).Succeeds keys fun d' keys' =>
    ∀ e', e'.unmarked = e.unmarked → e'.dispatch? = d' → R keys [.expr e'] keys'

variable {keys keys' keys'' : List SiteKey} {v : Visit} {vs ws : List Visit} {e e' : Expr}
  {w : Transformer Marking} {R : List SiteKey → List Visit → List SiteKey → Prop}

namespace Transformer.OnlyMarks

theorem look_bind {α : Type} (hw : w.OnlyMarks R) (v : Visit) (x : Marking α) :
    (w.look v >>= fun _ => x) = x := by
  rw [hw.look, pure_bind]

/-- A node that is no call registers nothing. -/
theorem node (hw : w.OnlyMarks R) (he : e.isCall = false) (hvs : R keys vs keys') :
    R keys (.expr e :: vs) keys' :=
  hw.append (hw.other (by simp [he])) hvs

theorem stmt (hw : w.OnlyMarks R) {s : Stmt} (hvs : R keys vs keys') :
    R keys (.stmt s :: vs) keys' :=
  hw.append (hw.other (by simp)) hvs

theorem block (hw : w.OnlyMarks R) {b : Block} (hvs : R keys vs keys') :
    R keys (.block b :: vs) keys' :=
  hw.append (hw.other (by simp)) hvs

end Transformer.OnlyMarks

mutual

/-- Marking code succeeds and changes markers only, and what holds at each call holds of the
walk. -/
theorem Expr.transform_marks (hw : w.OnlyMarks R) : (e : Expr) → ∀ keys,
    (e.transform w).Succeeds keys fun e' keys' => e'.unmarked = e.unmarked ∧ R keys e'.visits keys'
  | .constant v s, keys | .field v n s, keys | .classRef v s, keys | .annotationUse a, keys => by
    rw [Expr.transform, hw.look_bind]
    exact .pure ⟨rfl, hw.node rfl (hw.nil _)⟩
  | .var n b s, keys => by
    rw [Expr.transform, hw.look_bind, hw.rename, pure_bind]
    exact .pure ⟨rfl, hw.node rfl (hw.nil _)⟩
  | .property o n s, keys => by
    rw [Expr.transform, hw.look_bind]
    refine (o.transform_marks hw keys).bind fun o' keys' ⟨ho, hsites⟩ => .pure
      ⟨?_, hw.node rfl hsites⟩
    exact congrArg (Expr.property · n s) ho
  | .closure ps body cs s, keys => by
    rw [Expr.transform, hw.look_bind, hw.look_bind]
    refine (Stmt.transformAll_marks hw body keys).bind fun b' keys' ⟨hb, hsites⟩ =>
      .pure ⟨?_, hw.node rfl (hw.block hsites)⟩
    exact congrArg (Expr.closure ps · cs s) hb
  | .list es s, keys => by
    rw [Expr.transform, hw.look_bind]
    refine (Expr.transformAll_marks hw es keys).bind fun es' keys' ⟨hes, hsites⟩ => .pure
      ⟨?_, hw.node rfl hsites⟩
    exact congrArg (Expr.list · s) hes
  | .map es s, keys => by
    rw [Expr.transform, hw.look_bind]
    refine (MapEntry.transformAll_marks hw es keys).bind fun es' keys' ⟨hes, hsites⟩ =>
      .pure ⟨?_, hw.node rfl hsites⟩
    exact congrArg (Expr.map · s) hes
  | .entry e, keys => by
    rw [Expr.transform, hw.look_bind]
    refine (e.transform_marks hw keys).bind fun e' keys' ⟨he, hsites⟩ => .pure
      ⟨?_, hw.node rfl hsites⟩
    exact congrArg Expr.entry he
  | .call o n args i sf t d s, keys => by
    rw [Expr.transform, hw.look_bind]
    refine (hw.mark (.call o n args i sf t d s) d keys rfl).bind fun d' k₁ hd => ?_
    refine (o.transform_marks hw k₁).bind fun o' k₂ ⟨ho, ho'⟩ => ?_
    refine (n.transform_marks hw k₂).bind fun n' k₃ ⟨hn, hn'⟩ => ?_
    refine (Expr.transformAll_marks hw args k₃).bind fun args' k₄ ⟨ha, ha'⟩ => ?_
    have hsame :
      (Expr.call o' n' args' i sf t d' s).unmarked = (Expr.call o n args i sf t d s).unmarked := by
      show Expr.call o'.unmarked n'.unmarked (Expr.unmarkedAll args') i sf t none s = _
      rw [ho, hn, ha]
      rfl
    exact .pure ⟨hsame, hw.append (hd _ hsame rfl) (hw.append (hw.append ho' hn') ha')⟩
  | .staticCall o on n args d s, keys => by
    rw [Expr.transform, hw.look_bind]
    refine (hw.mark (.staticCall o on n args d s) d keys rfl).bind fun d' k₁ hd => ?_
    refine (Expr.transformAll_marks hw args k₁).bind fun args' k₂ ⟨ha, ha'⟩ => ?_
    have hsame :
      (Expr.staticCall o on n args' d' s).unmarked = (Expr.staticCall o on n args d s).unmarked :=
      congrArg (Expr.staticCall o on n · none s) ha
    exact .pure ⟨hsame, hw.append (hd _ hsame rfl) ha'⟩
  | .construct k args d s, keys => by
    rw [Expr.transform, hw.look_bind]
    refine (hw.mark (.construct k args d s) d keys rfl).bind fun d' k₁ hd => ?_
    refine (Expr.transformAll_marks hw args k₁).bind fun args' k₂ ⟨ha, ha'⟩ => ?_
    have hsame : (Expr.construct k args' d' s).unmarked = (Expr.construct k args d s).unmarked :=
      congrArg (Expr.construct k · none s) ha
    exact .pure ⟨hsame, hw.append (hd _ hsame rfl) ha'⟩
  | .binary op l r s, keys => by
    rw [Expr.transform, hw.look_bind]
    refine (l.transform_marks hw keys).bind fun l' k₁ ⟨hl, hl'⟩ => ?_
    refine (r.transform_marks hw k₁).bind fun r' k₂ ⟨hr, hr'⟩ => .pure
      ⟨?_, hw.node rfl (hw.append hl' hr')⟩
    show Expr.binary op l'.unmarked r'.unmarked s = _
    rw [hl, hr]
    rfl
  | .ternary c t e s, keys => by
    rw [Expr.transform, hw.look_bind]
    refine (c.transform_marks hw keys).bind fun c' k₁ ⟨hc, hc'⟩ => ?_
    refine (t.transform_marks hw k₁).bind fun t' k₂ ⟨ht, ht'⟩ => ?_
    refine (e.transform_marks hw k₂).bind fun e' k₃ ⟨he, he'⟩ =>
      .pure ⟨?_, hw.node rfl (hw.append (hw.append hc' ht') he')⟩
    show Expr.ternary c'.unmarked t'.unmarked e'.unmarked s = _
    rw [hc, ht, he]
    rfl
  | .index o i s, keys => by
    rw [Expr.transform, hw.look_bind]
    refine (o.transform_marks hw keys).bind fun o' k₁ ⟨ho, ho'⟩ => ?_
    refine (i.transform_marks hw k₁).bind fun i' k₂ ⟨hi, hi'⟩ => .pure
      ⟨?_, hw.node rfl (hw.append ho' hi')⟩
    show Expr.index o'.unmarked i'.unmarked s = _
    rw [ho, hi]
    rfl
  | .spread e s, keys => by
    rw [Expr.transform, hw.look_bind]
    refine (e.transform_marks hw keys).bind fun e' keys' ⟨he, hsites⟩ => .pure
      ⟨?_, hw.node rfl hsites⟩
    exact congrArg (Expr.spread · s) he
  | .array ty es s, keys => by
    rw [Expr.transform, hw.look_bind]
    refine (Expr.transformAll_marks hw es keys).bind fun es' keys' ⟨hes, hsites⟩ => .pure
      ⟨?_, hw.node rfl hsites⟩
    exact congrArg (Expr.array ty · s) hes
  | .assign t v s, keys => by
    rw [Expr.transform, hw.look_bind]
    refine (t.transform_marks hw keys).bind fun t' k₁ ⟨ht, ht'⟩ => ?_
    refine (v.transform_marks hw k₁).bind fun v' k₂ ⟨hv, hv'⟩ => .pure
      ⟨?_, hw.node rfl (hw.append ht' hv')⟩
    show Expr.assign t'.unmarked v'.unmarked s = _
    rw [ht, hv]
    rfl

theorem Expr.transformAll_marks (hw : w.OnlyMarks R) : (es : List Expr) → ∀ keys,
    (Expr.transformAll w es).Succeeds keys fun es' keys' =>
      Expr.unmarkedAll es' = Expr.unmarkedAll es ∧ R keys (Expr.visitsAll es') keys'
  | [], keys => .pure ⟨rfl, hw.nil _⟩
  | e :: es, keys => by
    rw [Expr.transformAll]
    refine (e.transform_marks hw keys).bind fun e' k₁ ⟨he, he'⟩ => ?_
    refine (Expr.transformAll_marks hw es k₁).bind fun es' k₂ ⟨hes, hes'⟩ => .pure
      ⟨?_, hw.append he' hes'⟩
    show e'.unmarked :: Expr.unmarkedAll es' = _
    rw [he, hes]
    rfl

theorem MethodName.transform_marks (hw : w.OnlyMarks R) : (n : MethodName) → ∀ keys,
    (n.transform w).Succeeds keys fun n' keys' => n'.unmarked = n.unmarked ∧ R keys n'.visits keys'
  | .named _, keys => .pure ⟨rfl, hw.nil _⟩
  | .computed e, keys => by
    rw [MethodName.transform]
    refine (e.transform_marks hw keys).bind fun e' k₁ ⟨he, he'⟩ => .pure ⟨?_, he'⟩
    exact congrArg MethodName.computed he

theorem MapEntry.transform_marks (hw : w.OnlyMarks R) : (e : MapEntry) → ∀ keys,
    (e.transform w).Succeeds keys fun e' keys' => e'.unmarked = e.unmarked ∧ R keys e'.visits keys'
  | ⟨k, v, s⟩, keys => by
    rw [MapEntry.transform]
    refine (k.transform_marks hw keys).bind fun k' k₁ ⟨hk, hk'⟩ => ?_
    refine (v.transform_marks hw k₁).bind fun v' k₂ ⟨hv, hv'⟩ => .pure ⟨?_, hw.append hk' hv'⟩
    show MapEntry.mk k'.unmarked v'.unmarked s = _
    rw [hk, hv]
    rfl

theorem MapEntry.transformAll_marks (hw : w.OnlyMarks R) : (es : List MapEntry) → ∀ keys,
    (MapEntry.transformAll w es).Succeeds keys fun es' keys' =>
      MapEntry.unmarkedAll es' = MapEntry.unmarkedAll es ∧ R keys (MapEntry.visitsAll es') keys'
  | [], keys => .pure ⟨rfl, hw.nil _⟩
  | e :: es, keys => by
    rw [MapEntry.transformAll]
    refine (e.transform_marks hw keys).bind fun e' k₁ ⟨he, he'⟩ => ?_
    refine (MapEntry.transformAll_marks hw es k₁).bind fun es' k₂ ⟨hes, hes'⟩ => .pure
      ⟨?_, hw.append he' hes'⟩
    show e'.unmarked :: MapEntry.unmarkedAll es' = _
    rw [he, hes]
    rfl

theorem Stmt.transform_marks (hw : w.OnlyMarks R) : (st : Stmt) → ∀ keys,
    (st.transform w).Succeeds keys fun st' keys' => st'.unmarked = st.unmarked ∧
      R keys st'.visits keys'
  | .expr e, keys => by
    rw [Stmt.transform, hw.look_bind]
    refine (e.transform_marks hw keys).bind fun e' k₁ ⟨he, he'⟩ => .pure ⟨?_, hw.stmt he'⟩
    exact congrArg Stmt.expr he
  | .declare n ty none s, keys | .ret none s, keys => by
    rw [Stmt.transform, hw.look_bind]
    exact .pure ⟨rfl, hw.stmt (hw.nil _)⟩
  | .declare n ty (some e) s, keys => by
    rw [Stmt.transform, hw.look_bind]
    refine (e.transform_marks hw keys).bind fun e' k₁ ⟨he, he'⟩ => .pure ⟨?_, hw.stmt he'⟩
    exact congrArg (fun e => Stmt.declare n ty (some e) s) he
  | .ret (some e) s, keys => by
    rw [Stmt.transform, hw.look_bind]
    refine (e.transform_marks hw keys).bind fun e' k₁ ⟨he, he'⟩ => .pure ⟨?_, hw.stmt he'⟩
    exact congrArg (fun e => Stmt.ret (some e) s) he
  | .cond c t none s, keys => by
    rw [Stmt.transform, hw.look_bind]
    refine (c.transform_marks hw keys).bind fun c' k₁ ⟨hc, hc'⟩ => ?_
    rw [hw.look_bind]
    refine (Stmt.transformAll_marks hw t k₁).bind fun t' k₂ ⟨ht, ht'⟩ =>
      .pure ⟨?_, hw.stmt (hw.append hc' (hw.block ht'))⟩
    show Stmt.cond c'.unmarked (Stmt.unmarkedAll t') none s = _
    rw [hc, ht]
    rfl
  | .cond c t (some e) s, keys => by
    rw [Stmt.transform, hw.look_bind]
    refine (c.transform_marks hw keys).bind fun c' k₁ ⟨hc, hc'⟩ => ?_
    rw [hw.look_bind]
    refine (Stmt.transformAll_marks hw t k₁).bind fun t' k₂ ⟨ht, ht'⟩ => ?_
    rw [hw.look_bind]
    refine (Stmt.transformAll_marks hw e k₂).bind fun e' k₃ ⟨he, he'⟩ =>
      .pure ⟨?_, hw.stmt (hw.append (hw.append hc' (hw.block ht')) (hw.block he'))⟩
    show Stmt.cond c'.unmarked (Stmt.unmarkedAll t') (some (Stmt.unmarkedAll e')) s = _
    rw [hc, ht, he]
    rfl
  | .throw e s, keys => by
    rw [Stmt.transform, hw.look_bind]
    refine (e.transform_marks hw keys).bind fun e' k₁ ⟨he, he'⟩ => .pure ⟨?_, hw.stmt he'⟩
    exact congrArg (Stmt.throw · s) he
  | .block b, keys => by
    rw [Stmt.transform, hw.look_bind, hw.look_bind]
    refine (Stmt.transformAll_marks hw b keys).bind fun b' k₁ ⟨hb, hb'⟩ => .pure
      ⟨?_, hw.stmt (hw.block hb')⟩
    exact congrArg Stmt.block hb

theorem Stmt.transformAll_marks (hw : w.OnlyMarks R) : (ss : List Stmt) → ∀ keys,
    (Stmt.transformAll w ss).Succeeds keys fun ss' keys' =>
      Stmt.unmarkedAll ss' = Stmt.unmarkedAll ss ∧ R keys (Stmt.visitsAll ss') keys'
  | [], keys => .pure ⟨rfl, hw.nil _⟩
  | st :: ss, keys => by
    rw [Stmt.transformAll]
    refine (st.transform_marks hw keys).bind fun st' k₁ ⟨hst, hst'⟩ => ?_
    refine (Stmt.transformAll_marks hw ss k₁).bind fun ss' k₂ ⟨hss, hss'⟩ => .pure
      ⟨?_, hw.append hst' hss'⟩
    show st'.unmarked :: Stmt.unmarkedAll ss' = _
    rw [hst, hss]
    rfl

end

/-! ## Registered sites -/

/-- The sites met among `vs` are those that `keys'` has beyond `keys`, numbered in order. -/
def Registers (keys : List SiteKey) (vs : List Visit) (keys' : List SiteKey) : Prop :=
  ∃ new, keys' = keys ++ new ∧ vs.filterMap Visit.site? = new.zipIdx keys.length ∧
    ∀ v ∈ vs, v.NamesSite

namespace Registers

theorem nil (keys : List SiteKey) : Registers keys [] keys := ⟨[], by simp, by simp, by simp⟩

/-- Registering in two parts is registering in one. -/
theorem append (hv : Registers keys vs keys') (hw : Registers keys' ws keys'') :
    Registers keys (vs ++ ws) keys'' := by
  obtain ⟨new, rfl, hsites, hnames⟩ := hv
  obtain ⟨new', rfl, hsites', hnames'⟩ := hw
  refine ⟨new ++ new', by simp, ?_, ?_⟩
  · -- the second part goes on counting where the first one stops
    rw [List.filterMap_append, hsites, hsites', List.zipIdx_append, List.length_append]
  · intro v hv
    rcases List.mem_append.mp hv with hv | hv
    · exact hnames v hv
    · exact hnames' v hv

end Registers

/-- What is no call has no marker. -/
theorem Expr.dispatch?_of_not_isCall (h : e.isCall = false) : e.dispatch? = none := by
  cases e <;> first | rfl | cases h

/-- A node that is no call registers nothing. -/
theorem registers_other (h : ∀ e, v = .expr e → e.isCall = false) : Registers keys [v] keys := by
  have hdispatch : ∀ e, v = .expr e → e.dispatch? = none :=
    fun e he => Expr.dispatch?_of_not_isCall (h e he)
  have hsite : v.site? = none := by
    cases v with
    | expr e => rw [Visit.site?, hdispatch e rfl, Option.bind_none]
    | _ => rfl
  refine ⟨[], by simp, by simp [hsite], ?_⟩
  intro u hu e key index he hd
  rw [List.mem_singleton.mp hu] at he
  rw [hdispatch e he] at hd
  cases hd

/-- A call with the marker `d` registers at most one site, under its own name. -/
def TakesSite (name : Option String) (keys : List SiteKey) (d : Option Dispatch)
    (keys' : List SiteKey) : Prop :=
  (keys' = keys ∧ d.bind Dispatch.site? = none) ∨
    ∃ key, name = some key.name ∧ d = some (.callSite keys.length key) ∧ keys' = keys ++ [key]

/-- A call that takes a site registers it. -/
theorem TakesSite.registers {name : Option String} (h : TakesSite name keys e.dispatch? keys')
    (hname : e.calledName? = name) : Registers keys [.expr e] keys' := by
  obtain ⟨rfl, hd⟩ | ⟨key, hkey, hd, rfl⟩ := h
  · -- the marker stands for no site
    refine ⟨[], by simp, by simp [Visit.site?, hd], ?_⟩
    intro v hv e' key index he hd'
    simp only [List.mem_singleton] at hv
    obtain rfl : e = e' := by simpa [hv] using he
    simp [hd', Dispatch.site?] at hd
  · -- the marker stands for the site that was registered last
    refine ⟨[key], rfl, by simp [Visit.site?, hd, Dispatch.site?], ?_⟩
    intro v hv e' key' index he hd'
    simp only [List.mem_singleton] at hv
    obtain rfl : e = e' := by simpa [hv] using he
    obtain ⟨-, rfl⟩ : keys.length = index ∧ key = key' := by simpa [hd] using hd'
    rw [hname, hkey]

end Metaobject

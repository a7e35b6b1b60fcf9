import Metaobject.Proofs.Dispatch.Selection
import Metaobject.Reflection.CallSite

/-!
# The numbers of call sites

After a class is marked, the call sites met on a walk over it are numbered from zero without gaps,
in the order of its site table, and each has the name of the called method. So the sites made from
the table at run time are the sites that the markers mean.

* `markMembers_marks`: marking the members of a class succeeds, changes markers only, and registers
  the sites that a walk over the marked class meets.
* `markClass_numbers_sites`: the same for a class in its table, with the sites made from the site
  table.
-/

namespace Metaobject

/-! ## The code of a class -/

/-- The nodes of an initializer, in the order a walk meets them. -/
def Field.nodes (f : Field) : List Visit := f.init.elim [] Expr.visits

/-- The nodes of the body of a constructor. -/
def Constructor.nodes (k : Constructor) : List Visit := Block.visits k.body

/-- The nodes of the body of a method. -/
def Method.nodes (m : Method) : List Visit := m.body.elim [] Block.visits

/-- The nodes in the code of a class, in the order a walk meets them. -/
def ClassDecl.nodes (c : ClassDecl) : List Visit :=
  c.fields.flatMap Field.nodes ++ c.constructors.flatMap Constructor.nodes
    ++ c.methods.flatMap Method.nodes
    ++ Stmt.visitsAll c.staticInit

/-- The call site that a walk over a class meets, if it is one. -/
def ClassVisit.site? : ClassVisit → Option (SiteKey × Nat)
  | .node v => v.site?
  | _ => none

namespace ClassDecl

/-- A walk through a class meets its nodes. -/
theorem node_mem_visits {c : ClassDecl} {v : Visit} : .node v ∈ c.visits ↔ v ∈ c.nodes := by
  simp [visits, nodes, Field.nodes, Constructor.nodes, Method.nodes]

/-- The sites of a class are the sites at its nodes. -/
theorem filterMap_site?_visits (c : ClassDecl) :
    c.visits.filterMap ClassVisit.site? = c.nodes.filterMap Visit.site? := by
  have hnodes (vs : List Visit) : (vs.map ClassVisit.node).filterMap ClassVisit.site? = vs.filterMap
    Visit.site? := by
    rw [List.filterMap_map]
    rfl
  -- the class, its fields and its annotations are met too, but they are no sites
  simp only [visits, nodes, List.cons_append, List.filterMap_cons, List.filterMap_append,
    List.filterMap_flatMap, hnodes, ClassVisit.site?]
  rfl

end ClassDecl

/-! ## Classes without markers -/

/-- A field without the markers in its initializer. -/
def Field.unmarked (f : Field) : Field := { f with init := f.init.map Expr.unmarked }

/-- A constructor without the markers in its body. -/
def Constructor.unmarked (k : Constructor) : Constructor :=
  { k with body := Stmt.unmarkedAll k.body }

/-- A method without the markers in its body. -/
def Method.unmarked (m : Method) : Method := { m with body := m.body.map Stmt.unmarkedAll }

/-- A class without the markers in its code. -/
def ClassDecl.unmarked (c : ClassDecl) : ClassDecl :=
  { c with
    fields := c.fields.map Field.unmarked
    constructors := c.constructors.map Constructor.unmarked
    methods := c.methods.map Method.unmarked
    staticInit := Stmt.unmarkedAll c.staticInit }

/-! ## Marking a class -/

/-- Marking one member after the other. -/
theorem Transformer.OnlyMarks.mapM_marks {w : Transformer Marking}
    {R : List SiteKey → List Visit → List SiteKey → Prop} (hw : w.OnlyMarks R) {α : Type}
    {f : α → Marking α} (strip : α → α) (nodes : α → List Visit)
    (hf : ∀ a keys, (f a).Succeeds keys fun a' keys' => strip a' = strip a ∧
      R keys (nodes a') keys')
    (as : List α) : ∀ keys, (as.mapM f).Succeeds keys fun as' keys' =>
      as'.map strip = as.map strip ∧ R keys (as'.flatMap nodes) keys' := by
  induction as with
  | nil => exact fun keys => .pure ⟨rfl, hw.nil _⟩
  | cons a as ih =>
    intro keys
    rw [List.mapM_cons]
    refine (hf a keys).bind fun a' k₁ ⟨ha, ha'⟩ => ?_
    refine (ih k₁).bind fun as' k₂ ⟨has, has'⟩ => .pure ⟨?_, ?_⟩
    · rw [List.map_cons, List.map_cons, ha, has]
    · rw [List.flatMap_cons]
      exact hw.append ha' has'

/-- Registering a choice takes at most one site. -/
theorem Choice.register_succeeds {choice : Choice} {name : Option String} (h : choice.Suits name)
    (keys : List SiteKey) :
    choice.register.Succeeds keys fun d => TakesSite name keys (some d) := by
  cases choice with
  | settled d => exact ⟨d, keys, rfl, .inl ⟨rfl, h⟩⟩
  | site key => exact ⟨_, _, rfl, .inr ⟨key, h, rfl, rfl⟩⟩

/-- The site made from a key of a table has its number and its name. -/
theorem CallSite.ofTable_getElem? {sites : SiteTable} {key : SiteKey} {index : Nat}
    (h : (key, index) ∈ sites.keys.zipIdx) :
    (CallSite.ofTable sites)[index]? = some { index, name := key.name } := by
  rw [List.mem_zipIdx_iff_getElem?] at h
  rw [CallSite.ofTable, List.getElem?_map, List.getElem?_zipIdx, h]
  simp

namespace ClassTable

/-- Marking a class replaces it by what the walk gives. -/
theorem markClass_of_run {t : ClassTable} {caching : Bool} {id : ClassId} {c c' : ClassDecl}
    {keys : List SiteKey} (hget : t.get? id = some c)
    (hrun : (t.markMembers caching c).run [] = .ok (c', keys)) :
    t.markClass caching id = .ok (t.set id c', ⟨c.name, keys⟩) := by
  rw [markClass, get_eq_ok_iff.mpr hget]
  show ((t.markMembers caching c).run [] >>= _) = _
  rw [hrun]
  rfl

/-- Marking the members of a class succeeds and changes markers only, and what holds at each call
holds of the whole class. -/
theorem markMembers_walks {t : ClassTable} {caching : Bool} {c : ClassDecl}
    {R : List SiteKey → List Visit → List SiteKey → Prop}
    (hwalk : ∀ inStatic, (t.markingWalk caching ⟨c.id, inStatic⟩).OnlyMarks R) :
    (t.markMembers caching c).Succeeds [] fun c' keys' => c'.unmarked = c.unmarked ∧
      R [] c'.nodes keys' := by
  have hany := hwalk false
  unfold markMembers
  -- each kind of member goes on with the keys that the one before it has left
  refine (hany.mapM_marks Field.unmarked Field.nodes ?_ c.fields []).bind fun fs k₁ ⟨hfs, hfs'⟩ =>
    ?_
  · intro f keys
    cases hinit : f.init with
    | none => exact .pure ⟨rfl, by rw [Field.nodes, hinit]; exact hany.nil _⟩
    | some e =>
      refine (e.transform_marks (hwalk f.isStatic) keys).bind
        fun e' keys' ⟨he, he'⟩ => .pure ⟨?_, he'⟩
      simp [Field.unmarked, hinit, he]
  refine (hany.mapM_marks Constructor.unmarked Constructor.nodes ?_ c.constructors k₁).bind
    fun ks k₂ ⟨hks, hks'⟩ => ?_
  · intro k keys
    refine (Stmt.transformAll_marks (hwalk false) k.body keys).bind
      fun b keys' ⟨hb, hb'⟩ => .pure ⟨?_, hany.block hb'⟩
    simp [Constructor.unmarked, hb]
  refine (hany.mapM_marks Method.unmarked Method.nodes ?_ c.methods k₂).bind
    fun ms k₃ ⟨hms, hms'⟩ => ?_
  · intro m keys
    cases hbody : m.body with
    | none => exact .pure ⟨rfl, by rw [Method.nodes, hbody]; exact hany.nil _⟩
    | some body =>
      refine (Stmt.transformAll_marks (hwalk m.isStatic) body keys).bind
        fun b keys' ⟨hb, hb'⟩ => .pure ⟨?_, hany.block hb'⟩
      simp [Method.unmarked, hbody, hb]
  refine (Stmt.transformAll_marks (hwalk true) c.staticInit k₃).bind
    fun si k₄ ⟨hsi, hsi'⟩ => .pure ⟨?_, ?_⟩
  · rw [ClassDecl.unmarked, ClassDecl.unmarked, hfs, hks, hms, hsi]
  · exact hany.append (hany.append (hany.append hfs' hks') hms') hsi'

section Marked

variable {t : ClassTable} (hc : t.FiniteChains) (caching : Bool)

include hc

/-- The walk registers the sites that it leaves. -/
theorem markingWalk_registers (ctx : CallContext) :
    (t.markingWalk caching ctx).OnlyMarks Registers where
  look _ := rfl
  rename _ := rfl
  nil := .nil
  append := .append
  other := registers_other
  mark e d keys he := by
    obtain ⟨choice, hchoice, hsuits⟩ := choice?_ok hc caching ctx he
    show (t.marker caching ctx e d).Succeeds keys _
    rw [marker, hchoice]
    show (choice.register >>= fun d => pure (some d)).Succeeds keys _
    refine (choice.register_succeeds hsuits keys).bind fun d' keys' htakes =>
      .pure fun e' hsame hd => ?_
    have hname : e'.calledName? = e.calledName? := by
      rw [← e'.calledName?_unmarked, hsame, e.calledName?_unmarked]
    exact TakesSite.registers (hd ▸ htakes) hname

/-- Marking the members of a class succeeds, changes markers only, and registers the sites that are
met afterwards. -/
theorem markMembers_marks (c : ClassDecl) : (t.markMembers caching c).Succeeds [] fun c' keys' =>
    c'.unmarked = c.unmarked ∧ Registers [] c'.nodes keys' :=
  markMembers_walks fun inStatic => markingWalk_registers hc caching ⟨c.id, inStatic⟩

/-- A marked class differs from the class in markers only, and its site table lists the sites that
are met in it. -/
theorem markClass_marks {id : ClassId} {c : ClassDecl} (hget : t.get? id = some c) :
    ∃ c' keys, t.markClass caching id = .ok (t.set id c', ⟨c.name, keys⟩) ∧
      c'.unmarked = c.unmarked ∧
      Registers [] c'.nodes keys := by
  obtain ⟨c', keys, hrun, hsame, hsites⟩ := markMembers_marks hc caching c
  exact ⟨c', keys, markClass_of_run hget hrun, hsame, hsites⟩

end Marked

/-- The call sites met on a walk over a marked class carry the numbers from zero up in order, their
keys form the site table, each has the name of the method that its call names, and the sites made
from the table are found under the same numbers with the same names. -/
theorem markClass_numbers_sites {t : ClassTable} (hc : t.FiniteChains) (caching : Bool)
    {id : ClassId} {c : ClassDecl} (hget : t.get? id = some c) :
    ∃ t' sites c', t.markClass caching id = .ok (t', sites) ∧ t'.get? id = some c' ∧
      c'.visits.filterMap ClassVisit.site? = sites.keys.zipIdx ∧
      ∀ e index key, .node (.expr e) ∈ c'.visits → e.dispatch? = some (.callSite index key) →
        e.calledName? = some key.name ∧
          ∃ site, (CallSite.ofTable sites)[index]? = some site ∧ site.index = index ∧
            site.name = key.name := by
  -- the table starts empty, so the registered keys are all its keys
  obtain ⟨c', keys, hrun, -, new, hkeys, hsites, hnames⟩ := markClass_marks hc caching hget
  rw [List.nil_append] at hkeys
  subst hkeys
  have hvisits : c'.visits.filterMap ClassVisit.site? = keys.zipIdx := by
    rw [c'.filterMap_site?_visits, hsites, List.length_nil]
  refine ⟨_, _, c', hrun, ?_, hvisits, ?_⟩
  · rw [get?_set, if_pos ⟨rfl, lt_size_of_get? hget⟩]
  · intro e index key hmem hd
    -- the marker is one of the sites met, so its key stands in the table under its number
    have hkey : (key, index) ∈ keys.zipIdx := by
      rw [← hvisits, List.mem_filterMap]
      exact ⟨_, hmem, by simp [ClassVisit.site?, Visit.site?, hd, Dispatch.site?]⟩
    refine ⟨hnames _ (ClassDecl.node_mem_visits.mp hmem) e key index rfl hd, ?_⟩
    exact ⟨_, CallSite.ofTable_getElem? hkey, rfl, rfl⟩

/-- Two calls in a static initializer, one inside the other. -/
def nestedCallTable : ClassTable := ClassTable.seeded.add
  { ClassDecl.empty "A" .ordinary with
    staticInit := [.expr (.call (.var "x" none .synthetic) (.named "f")
      [.staticCall 25 "A" "g" [] none .synthetic] false false none none .synthetic)] }

/-- The sites of both calls are numbered in the order of the walk. -/
theorem markClass_numbers_sites_nested :
    ∃ t' sites c', nestedCallTable.markClass true 25 = .ok (t', sites) ∧ t'.get? 25 = some c' ∧
      c'.visits.filterMap ClassVisit.site? = sites.keys.zipIdx ∧
      ∀ e index key, .node (.expr e) ∈ c'.visits → e.dispatch? = some (.callSite index key) →
        e.calledName? = some key.name ∧
          ∃ site, (CallSite.ofTable sites)[index]? = some site ∧ site.index = index ∧
            site.name = key.name :=
  markClass_numbers_sites (finiteChains_of_lt (by decide)) true rfl

end ClassTable

end Metaobject

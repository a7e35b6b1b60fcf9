import Metaobject.Proofs.ClassTable.WellFormed
import Metaobject.Proofs.Reflection.DeclaredLoading

/-!
# The history of a loader

A class of a table brings its built-in ancestors with it, and they are defined before it is known
whether the class itself can be. Classes are unloaded in any order, and their names are taken again.
Whatever is tried, and whether it succeeds or not, the loader stays in order: the numbers of the
classes tell in which order they were defined, and a class that is entered finds all its parents
among those that came before.

* `Loading.Ends`: what a computation that loads classes comes to, without a fault.
* `Loading.defineDeclared_ends`: an attempt to load a class of a table adds built-in classes, and
  the class itself last.
* `LoaderHistory.Orderly`: the invariant; `LoaderHistory.Orderly.step` carries it through every
  action.
* `LoaderHistory.stays_orderly`: the state of the loader after any history, and what a failure
  leaves behind.
-/

namespace Metaobject

/-! ## Computations that end -/

namespace Loading

variable {α β : Type} {s : LoadingState}

/-- The computation comes to an answer and a state as stated. -/
def Ends (x : Loading α) (s : LoadingState)
    (post : Except ReflectionError α → LoadingState → Prop) : Prop :=
  ∃ found s', x.run.run s = .ok (found, s') ∧ post found s'

namespace Ends

theorem pure {post : Except ReflectionError α → LoadingState → Prop} {a : α} (h : post (.ok a) s) :
    Ends (Pure.pure a) s post := ⟨.ok a, s, rfl, h⟩

theorem throw {post : Except ReflectionError α → LoadingState → Prop} {e : ReflectionError}
    (h : post (.error e) s) :
    Ends (MonadExcept.throw e) s post := ⟨.error e, s, rfl, h⟩

/-- A loading step ends if its first part does and its second part goes on from there. -/
theorem bind {x : Loading α} {f : α → Loading β}
    {mid : Except ReflectionError α → LoadingState → Prop}
    {post : Except ReflectionError β → LoadingState → Prop} (hx : Ends x s mid)
    (hfail : ∀ e s', mid (.error e) s' → post (.error e) s')
    (hnext : ∀ a s', mid (.ok a) s' → Ends (f a) s' post) : Ends (x >>= f) s post := by
  obtain ⟨first, s', hrun, hmid⟩ := hx
  unfold Ends
  cases first with
  | error e => exact ⟨.error e, s', run_bind_of_error hrun f, hfail e s' hmid⟩
  | ok a =>
    rw [run_bind_of_ok hrun]
    exact hnext a s' hmid

theorem get_bind {f : LoadingState → Loading β}
    {post : Except ReflectionError β → LoadingState → Prop} (h : Ends (f s) s post) :
    Ends (MonadState.get >>= f) s post :=
  h

theorem lift_bind {x : Except Fault α} {a : α} {f : α → Loading β}
    {post : Except ReflectionError β → LoadingState → Prop} (hx : x = .ok a)
    (h : Ends (f a) s post) : Ends (liftM x >>= f) s post := by
  rw [hx]
  exact h

/-- A loop keeps what each of its rounds keeps. -/
theorem forM {items : List α} {f : α → Loading PUnit} (inv : LoadingState → Prop) (hs : inv s)
    (h : ∀ item ∈ items, ∀ s, inv s → Ends (f item) s fun _ => inv) :
    Ends (items.forM f) s fun _ => inv := by
  induction items generalizing s with
  | nil => exact .pure hs
  | cons item items ih =>
    refine .bind (h item List.mem_cons_self s hs) (fun _ _ => id) fun _ s' hs' => ?_
    exact ih hs' fun item hitem => h item (List.mem_cons_of_mem _ hitem)

end Ends

end Loading

/-! ## New classes -/

/-- Some classes were defined, one after another, and each from a definition of the given kind. -/
inductive LoadingState.Defines (allowed : ClassDefinition → Prop) (s : LoadingState) :
    LoadingState → Prop
  | nothing : Defines allowed s s
  | enter {s' : LoadingState} {d : ClassDefinition} {k : LoadedClass}
      (before : Defines allowed s s') (hd : allowed d)
      (hk : s'.loader.classOf s'.space.next d = .ok k) : Defines allowed s (s'.enter k)

namespace LoadingState.Defines

variable {allowed allowed' : ClassDefinition → Prop} {s s' s'' : LoadingState}

theorem trans (h : s.Defines allowed s') (h' : s'.Defines allowed s'') : s.Defines allowed s'' := by
  induction h' with
  | nothing => exact h
  | enter _ hd hk ih => exact .enter ih hd hk

/-- A weaker condition allows the same definitions. -/
theorem mono (h : s.Defines allowed s') (himp : ∀ d, allowed d → allowed' d) :
    s.Defines allowed' s' := by
  induction h with
  | nothing => exact .nothing
  | enter _ hd hk ih => exact .enter ih (himp _ hd) hk

/-- The classes are added at the end, each under the name in its definition. -/
theorem registered_eq (h : s.Defines allowed s') :
    ∃ added, s'.loader.registered = s.loader.registered ++ added ∧
      ∀ p ∈ added, ∃ d, allowed d ∧ p.1 = d.name ∧ ∃ l no, Loader.classOf l no d = .ok p.2 := by
  induction h with
  | nothing => exact ⟨[], (List.append_nil _).symm, fun p hp => absurd hp List.not_mem_nil⟩
  | @enter mid d k _ hd hk ih =>
    obtain ⟨added, hadded, hfrom⟩ := ih
    refine ⟨added ++ [(k.name, k)], ?_, ?_⟩
    · show mid.loader.registered ++ [(k.name, k)] = _
      rw [hadded, List.append_assoc]
    · intro p hp
      rcases List.mem_append.mp hp with hp | hp
      · exact hfrom p hp
      · obtain rfl := List.mem_singleton.mp hp
        obtain ⟨-, -, -, -, hname, -⟩ := Loader.classOf_eq_ok hk
        exact ⟨d, hd, hname, _, _, hk⟩

end LoadingState.Defines

/-! ## Attempts to load a class of a table -/

namespace ClassTable

/-- The table starts with the built-in classes and has no others, and the parents of its classes are
in it. -/
structure Loadable (t : ClassTable) : Prop where
  seeded : ∃ sources, t.classes = ClassTable.seeded.classes ++ sources ∧ ∀ c ∈ sources,
    c.builtin = false
  closed : ∀ c ∈ t.classes, ∀ id ∈ c.parentIds, id < t.size

/-- Built-in classes are ranked by number, and all source classes come after them. -/
def rank (t : ClassTable) (id : ClassId) : Nat := if (t.get? id).any (·.builtin) then id else t.size

/-- The definition of a built-in class with a number below the bound. -/
def DefinesBuiltin (t : ClassTable) (bound : Nat) (d : ClassDefinition) : Prop :=
  ∃ id c, t.get? id = some c ∧ c.builtin = true ∧ id < bound ∧ d = c.definition

/-- Built-in classes have parents with smaller numbers. -/
theorem parentIds_seeded : ∀ id c, seeded.get? id = some c → ∀ parent ∈ c.parentIds, parent < id :=
  forall_get?_iff.mpr (by decide +kernel)

variable {t : ClassTable} {id parent : ClassId} {c p : ClassDecl}

/-- A built-in class ranks by its number. -/
theorem rank_of_builtin (hc : t.get? id = some c) (hbuiltin : c.builtin = true) :
    t.rank id = id := by
  unfold rank
  rw [hc, Option.any_some, if_pos hbuiltin]

/-- A source class ranks above all built-in ones. -/
theorem rank_of_source (hc : t.get? id = some c) (hsource : c.builtin = false) :
    t.rank id = t.size := by
  unfold rank
  rw [hc, Option.any_some, hsource]
  rfl

/-- A class has no smaller rank than itself. -/
theorem DefinesBuiltin.other {d : ClassDefinition} (h : t.DefinesBuiltin (t.rank id) d) :
    ∃ b c, t.get? b = some c ∧ c.builtin = true ∧ b ≠ id ∧ d = c.definition := by
  obtain ⟨b, c, hc, hbuiltin, hlt, hd⟩ := h
  refine ⟨b, c, hc, hbuiltin, ?_, hd⟩
  rintro rfl
  rw [rank_of_builtin hc hbuiltin] at hlt
  exact Nat.lt_irrefl b hlt

theorem rank_le_size (t : ClassTable) (id : ClassId) : t.rank id ≤ t.size := by
  unfold rank
  split
  · rename_i hbuiltin
    cases hc : t.get? id with
    | none =>
      rw [hc] at hbuiltin
      cases hbuiltin
    | some c => exact Nat.le_of_lt (lt_size_of_get? hc)
  · exact Nat.le_refl _

namespace Loadable

/-- The built-in classes of a loadable table are the ones that it starts with. -/
theorem get?_seeded (ht : t.Loadable) (hc : t.get? id = some c) (hbuiltin : c.builtin = true) :
    ClassTable.seeded.get? id = some c := by
  obtain ⟨sources, hclasses, hsources⟩ := ht.seeded
  unfold get? at hc ⊢
  rw [hclasses] at hc
  rcases Nat.lt_or_ge id ClassTable.seeded.classes.length with hlt | hge
  · rwa [List.getElem?_append_left hlt] at hc
  · rw [List.getElem?_append_right hge] at hc
    have hsource := hsources c (List.mem_of_getElem? hc)
    rw [hbuiltin] at hsource
    cases hsource

/-- A built-in parent comes before the class. -/
theorem rank_parent_lt (ht : t.Loadable) (hc : t.get? id = some c) (hparent : parent ∈ c.parentIds)
    (hp : t.get? parent = some p) (hbuiltin : p.builtin = true) : t.rank parent < t.rank id := by
  rw [rank_of_builtin hp hbuiltin]
  cases hkind : c.builtin with
  | true =>
    rw [rank_of_builtin hc hkind]
    exact parentIds_seeded id c (ht.get?_seeded hc hkind) parent hparent
  | false =>
    rw [rank_of_source hc hkind]
    exact ht.closed c (List.mem_of_getElem? hc) parent hparent

/-- The parents of a class of a loadable table are there. -/
theorem get_parent (ht : t.Loadable) (hc : t.get? id = some c) (hparent : parent ∈ c.parentIds) :
    ∃ p, t.get? parent = some p ∧ t.get parent = .ok p := by
  have hlt := ht.closed c (List.mem_of_getElem? hc) parent hparent
  have hp : t.get? parent = some t.classes[parent] := List.getElem?_eq_getElem hlt
  refine ⟨_, hp, ?_⟩
  unfold get
  rw [hp]

end Loadable

end ClassTable

namespace Loading

/-- What an attempt to load a class of a table may come to. -/
inductive Attempt (t : ClassTable) (id : ClassId) (s : LoadingState) :
    Except ReflectionError LoadedClass → LoadingState → Prop
  /-- Only built-in classes are new, each with a smaller rank. -/
  | short {found : Except ReflectionError LoadedClass} {s' : LoadingState}
      (before : s.Defines (t.DefinesBuiltin (t.rank id)) s') : Attempt t id s found s'
  /-- The class itself is new, and it came last. -/
  | whole {s' : LoadingState} {c : ClassDecl} {k : LoadedClass}
      (before : s.Defines (t.DefinesBuiltin (t.rank id)) s')
      (hc : t.get? id = some c) (hk : s'.loader.classOf s'.space.next c.definition = .ok k) :
      Attempt t id s (.ok k) (s'.enter k)

variable {t : ClassTable} {id parent : ClassId} {c p : ClassDecl} {s s' : LoadingState}

/-- Whatever becomes of an attempt, it only defines classes. -/
theorem Attempt.defines {found : Except ReflectionError LoadedClass} (h : Attempt t id s found s') :
    s.Defines (fun _ => True) s' := by
  cases h with
  | short before => exact before.mono fun _ _ => trivial
  | whole before _ hk => exact .enter (before.mono fun _ _ => trivial) trivial hk

/-- A failed attempt only defines built-in classes of a smaller rank. -/
theorem Attempt.of_error {e : ReflectionError} (h : Attempt t id s (.error e) s') :
    s.Defines (t.DefinesBuiltin (t.rank id)) s' := by
  cases h with
  | short before => exact before

/-- A built-in parent adds built-in classes only, all of them before the class. -/
theorem Attempt.builtin_parent {found : Except ReflectionError LoadedClass}
    (h : Attempt t parent s found s') (hp : t.get? parent = some p) (hbuiltin : p.builtin = true)
    (hrank : t.rank parent < t.rank id) : s.Defines (t.DefinesBuiltin (t.rank id)) s' := by
  have hmono : ∀ d, t.DefinesBuiltin (t.rank parent) d → t.DefinesBuiltin (t.rank id) d := by
    rintro d ⟨b, c, hc, hb, hlt, hd⟩
    exact ⟨b, c, hc, hb, hlt.trans hrank, hd⟩
  cases h with
  | short before => exact before.mono hmono
  | @whole mid c k before hc hk =>
    obtain rfl : p = c := Option.some.inj (hp.symm.trans hc)
    rw [ClassTable.rank_of_builtin hp hbuiltin] at hrank
    exact .enter (before.mono hmono) ⟨parent, p, hp, hbuiltin, hrank, rfl⟩ hk

/-- A definition fails and leaves everything, or enters one class. -/
theorem define_ends (d : ClassDefinition) (s : LoadingState) :
    Ends (define d) s fun found s' =>
      (∃ e, found = .error e ∧ s' = s) ∨
        ∃ k, found = .ok k ∧ s.loader.classOf s.space.next d = .ok k ∧ s' = s.enter k := by
  rw [Ends, run_define]
  cases hk : s.loader.classOf s.space.next d with
  | error e => exact ⟨_, _, rfl, .inl ⟨e, rfl, rfl⟩⟩
  | ok k => exact ⟨_, _, rfl, .inr ⟨k, rfl, rfl, rfl⟩⟩

/-- An attempt ends, whatever the loader has, as long as the rank of the class is below the fuel. -/
theorem defineDeclared_ends (ht : t.Loadable) {fuel : Nat} (hfuel : t.rank id < fuel)
    (s : LoadingState) : Ends (defineDeclared t fuel id) s (Attempt t id s) := by
  -- on the fuel: the rank goes down from the class to the parents that are loaded on the way
  induction fuel generalizing id s with
  | zero => exact absurd hfuel (Nat.not_lt_zero _)
  | succ fuel ih =>
    unfold defineDeclared
    cases hc : t.get? id with
    | none => exact .throw (.short .nothing)
    | some c =>
      refine .get_bind ?_
      cases s.loader.lookup c.name with
      | some existing =>
        dsimp only
        split
        · exact .pure (.short .nothing)
        · exact .throw (.short .nothing)
      | none =>
        dsimp only
        split
        · exact .throw (.short .nothing)
        -- the parents add built-in classes of smaller rank, also where one of them fails
        refine .bind (.forM (s.Defines (t.DefinesBuiltin (t.rank id))) .nothing ?_) ?_ ?_
        · intro reference hreference now hnow
          cases hid : reference.classId? with
          | none => exact .throw hnow
          | some parent =>
            have hparent : parent ∈ c.parentIds :=
              ClassDecl.mem_parentIds.mpr ⟨reference, hreference, hid⟩
            obtain ⟨p, hp, hget⟩ := ht.get_parent hc hparent
            refine .lift_bind hget (.get_bind ?_)
            split
            · rename_i hmissing
              have hbuiltin : p.builtin = true := (Bool.and_eq_true_iff.mp hmissing).1
              have hrank := ht.rank_parent_lt hc hparent hp hbuiltin
              have hattempt := ih (Nat.lt_of_lt_of_le hrank (Nat.le_of_lt_succ hfuel)) now
              refine .bind hattempt (fun e s' h => ?_) (fun k s' h => .pure ?_)
              · exact hnow.trans (h.builtin_parent hp hbuiltin hrank)
              · exact hnow.trans (h.builtin_parent hp hbuiltin hrank)
            · exact .pure hnow
        · exact fun e s' h => .short h
        · intro _ mid hmid
          obtain ⟨found, s', hrun, ⟨e, -, rfl⟩ | ⟨k, rfl, hk, rfl⟩⟩ := define_ends c.definition mid
          · exact ⟨found, s', hrun, .short hmid⟩
          · exact ⟨.ok k, _, hrun, .whole hmid hc hk⟩

/-- Defining a declared class ends, and is an attempt. -/
theorem declared_ends (ht : t.Loadable) (id : ClassId) (s : LoadingState) :
    Ends (declared t id) s (Attempt t id s) :=
  defineDeclared_ends ht (Nat.lt_succ_of_le (t.rank_le_size id)) s

end Loading

/-! ## Histories -/

/-- Classes may have been defined and unloaded before, but the root is loaded. -/
structure ClassSpace.Usable (space : ClassSpace) : Prop where
  root : space.isLoaded LoadedClass.root.no = true
  next : LoadedClass.root.no < space.next
  unloaded : ∀ no ∈ space.unloaded, no < space.next

/-- Something that is asked of a loader. -/
inductive LoaderAction where
  | define (d : ClassDefinition)
  | declare (t : ClassTable) (id : ClassId)
  | unload (name : String)

/-- Classes are loaded only from tables that start with the built-in classes. -/
def LoaderAction.OnLoadable : LoaderAction → Prop
  | .declare t _ => t.Loadable
  | .define _ | .unload _ => True

/-- A loader and all the classes that it ever had, in the order in which they were defined. -/
structure LoaderHistory where
  state : LoadingState
  defined : List LoadedClass

namespace LoaderHistory

/-- A new loader, which has the root class. -/
def start (space : ClassSpace) : LoaderHistory := ⟨⟨space, {}⟩, [.root]⟩

/-- The loader has got to this state, in which new classes stand at the end. -/
def advance (h : LoaderHistory) (s : LoadingState) : LoaderHistory :=
  ⟨s, h.defined ++ (s.loader.registered.drop h.state.loader.registered.length).map (·.2)⟩

/-- What the loader does, whether it succeeds or not. -/
def step (h : LoaderHistory) : LoaderAction → Except Fault LoaderHistory
  | .define d => do
    let r ← (Loading.define d).run.run h.state
    return h.advance r.2
  | .declare t id => do
    let r ← (Loading.declared t id).run.run h.state
    return h.advance r.2
  | .unload name => return ⟨((Loading.unload name).run h.state).2, h.defined⟩

/-- A new loader, after all that is asked of it. -/
def run (space : ClassSpace) (actions : List LoaderAction) : Except Fault LoaderHistory :=
  actions.foldlM step (start space)

def enter (h : LoaderHistory) (k : LoadedClass) : LoaderHistory :=
  ⟨h.state.enter k, h.defined ++ [k]⟩

theorem advance_state (h : LoaderHistory) : h.advance h.state = h := by
  unfold advance
  rw [List.drop_length, List.map_nil, List.append_nil]

/-- Entering a class after a run is a run that enters one class more. -/
theorem advance_enter {allowed : ClassDefinition → Prop} {h : LoaderHistory} {s : LoadingState}
    (hs : h.state.Defines allowed s) (k : LoadedClass) :
    h.advance (s.enter k) = (h.advance s).enter k := by
  obtain ⟨added, hadded, -⟩ := hs.registered_eq
  have hle : h.state.loader.registered.length ≤ s.loader.registered.length := by
    rw [hadded, List.length_append]
    exact Nat.le_add_right _ _
  unfold advance enter
  show LoaderHistory.mk _
    (h.defined ++ ((s.loader.registered ++ [(k.name, k)]).drop _).map (·.2)) = _
  rw [List.drop_append_of_le_length hle, List.map_append, ← List.append_assoc]
  rfl

/-- The class with the first number has the class with the second as a parent. -/
def Link (h : LoaderHistory) (a b : ClassNo) : Prop :=
  ∃ c ∈ h.defined, ∃ p ∈ c.parents, c.no = a ∧ p.no = b

/-! ## The invariant -/

/-- The loader has the root and loaded classes under their own names. The parents of a class were
defined before it, and numbers were given in the order of definition. -/
structure Orderly (h : LoaderHistory) : Prop where
  root : h.state.loader.lookup LoadedClass.root.name = some .root
  names : (h.state.loader.registered.map (·.1)).Nodup
  named : ∀ p ∈ h.state.loader.registered, p.2.name = p.1
  loaded : ∀ p ∈ h.state.loader.registered, h.state.space.isLoaded p.2.no = true
  recorded : ∀ p ∈ h.state.loader.registered, p.2 ∈ h.defined
  parents : ∀ i c, h.defined[i]? = some c → ∀ p ∈ c.parents, p ∈ h.defined.take i
  increasing : h.defined.Pairwise fun c d => c.no < d.no
  bounded : ∀ c ∈ h.defined, c.no < h.state.space.next
  /-- A number that was not given yet is not the number of an unloaded class. -/
  unloaded : ∀ no ∈ h.state.space.unloaded, no < h.state.space.next

namespace Orderly

variable {h : LoaderHistory} {d : ClassDefinition} {k : LoadedClass}

/-- A history that has just started is orderly. -/
theorem start {space : ClassSpace} (hspace : space.Usable) : (start space).Orderly where
  root := by simp [LoaderHistory.start, Loader.lookup]
  names := List.nodup_singleton _
  named := fun p hp => by rw [List.mem_singleton.mp hp]
  loaded := fun p hp => by
    rw [List.mem_singleton.mp hp]
    exact hspace.root
  recorded := fun p hp => by
    rw [List.mem_singleton.mp hp]
    exact List.mem_singleton_self _
  parents := by
    intro i c hc p hp
    have hroot : c ∈ [LoadedClass.root] := List.mem_of_getElem? hc
    rw [List.mem_singleton.mp hroot] at hp
    exact absurd hp List.not_mem_nil
  increasing := List.pairwise_singleton _ _
  bounded := fun c hc => by
    rw [List.mem_singleton.mp hc]
    exact hspace.next
  unloaded := hspace.unloaded

theorem root_mem (ho : h.Orderly) :
    (LoadedClass.root.name, LoadedClass.root) ∈ h.state.loader.registered :=
  Loader.mem_of_lookup ho.root

/-- A class that can be defined now has its parents among the defined ones. -/
theorem parents_classOf (ho : h.Orderly)
    (hk : h.state.loader.classOf h.state.space.next d = .ok k) :
    ∀ p ∈ k.parents, p ∈ h.defined := by
  intro p hp
  obtain ⟨-, hsuperclass, hinterfaces⟩ := Loader.parents_of_classOf hk
  have hregistered : p = .root ∨ ∃ name, (name, p) ∈ h.state.loader.registered := by
    rcases LoadedClass.mem_parents.mp hp with hp | hp
    · exact hsuperclass p hp
    · exact .inr (hinterfaces p hp)
  rcases hregistered with rfl | ⟨name, hmem⟩
  · exact ho.recorded _ ho.root_mem
  · exact ho.recorded _ hmem

/-- A class whose parents were defined may come next. -/
theorem parents_concat (ho : h.Orderly) (hparents : ∀ p ∈ k.parents, p ∈ h.defined) :
    ∀ i c, (h.defined ++ [k])[i]? = some c → ∀ p ∈ c.parents, p ∈ (h.defined ++ [k]).take i := by
  intro i c hc p hp
  rcases Nat.lt_or_ge i h.defined.length with hlt | hge
  · rw [List.getElem?_append_left hlt] at hc
    rw [List.take_append_of_le_length (Nat.le_of_lt hlt)]
    exact ho.parents i c hc p hp
  · rw [List.getElem?_append_right hge] at hc
    rw [List.mem_singleton.mp (List.mem_of_getElem? hc)] at hp
    rw [List.take_append, List.take_of_length_le hge]
    exact List.mem_append_left _ (hparents p hp)

/-- Entering a class that fits keeps the history orderly. -/
theorem enter (ho : h.Orderly) (hk : h.state.loader.classOf h.state.space.next d = .ok k) :
    (h.enter k).Orderly := by
  obtain ⟨hfree, -, -, hno, hname, -⟩ := Loader.classOf_eq_ok hk
  have hmem : ∀ p ∈ (h.enter k).state.loader.registered, p ∈ h.state.loader.registered ∨
    p = (k.name, k) := by
    intro p hp
    exact (List.mem_append.mp hp).imp_right List.mem_singleton.mp
  -- the number is new, and numbers of unloaded classes were given before
  have hnew : k.no ∉ h.state.space.unloaded := by
    intro hin
    have hlt := ho.unloaded _ hin
    rw [hno] at hlt
    exact Nat.lt_irrefl _ hlt
  refine ⟨LoadingState.lookup_enter_of_some ho.root k, ?_, ?_, ?_, ?_, ?_, ?_, ?_, ?_⟩
  · show ((h.state.loader.registered ++ [(k.name, k)]).map (·.1)).Nodup
    rw [List.map_append, List.nodup_append]
    refine ⟨ho.names, List.nodup_singleton _, ?_⟩
    rintro name hold _ hk' rfl
    obtain ⟨p, hp, hpname⟩ := List.mem_map.mp hold
    have hne := List.lookup_eq_none_iff.mp hfree p hp
    have hlast : name = k.name := List.mem_singleton.mp hk'
    exact bne_iff_ne.mp hne (hname.symm.trans (hlast.symm.trans hpname.symm))
  · intro p hp
    rcases hmem p hp with hp | rfl
    · exact ho.named p hp
    · rfl
  · intro p hp
    rcases hmem p hp with hp | rfl
    · exact ho.loaded p hp
    · exact decide_eq_true hnew
  · intro p hp
    rcases hmem p hp with hp | rfl
    · exact List.mem_append_left _ (ho.recorded p hp)
    · exact List.mem_append_right _ (List.mem_singleton_self _)
  · exact ho.parents_concat (ho.parents_classOf hk)
  · refine List.pairwise_append.mpr ⟨ho.increasing, List.pairwise_singleton _ _, ?_⟩
    intro c hc c' hc'
    rw [List.mem_singleton.mp hc', hno]
    exact ho.bounded c hc
  · intro c hc
    show c.no < h.state.space.next + 1
    rcases List.mem_append.mp hc with hc | hc
    · exact Nat.lt_succ_of_lt (ho.bounded c hc)
    · rw [List.mem_singleton.mp hc, hno]
      exact Nat.lt_succ_self _
  · intro no hin
    exact Nat.lt_succ_of_lt (ho.unloaded no hin)

/-- Any number of definitions keep the loader in order. -/
theorem advance {allowed : ClassDefinition → Prop} (ho : h.Orderly) {s : LoadingState}
    (hs : h.state.Defines allowed s) : (h.advance s).Orderly := by
  induction hs with
  | nothing =>
    rw [advance_state]
    exact ho
  | @enter s d k before _ hk ih =>
    rw [advance_enter before]
    exact ih.enter hk

/-- Different names stand for classes with different numbers. -/
theorem no_ne (ho : h.Orderly) {p q : String × LoadedClass} (hp : p ∈ h.state.loader.registered)
    (hq : q ∈ h.state.loader.registered) (hname : p.1 ≠ q.1) : p.2.no ≠ q.2.no := by
  intro hno
  have hnodup : (h.defined.map (·.no)).Nodup :=
    (List.pairwise_map.mpr ho.increasing).imp Nat.ne_of_lt
  have heq : p.2 = q.2 := List.inj_on_of_nodup_map hnodup (ho.recorded p hp) (ho.recorded q hq) hno
  exact hname ((ho.named p hp).symm.trans (heq ▸ ho.named q hq))

theorem unload (ho : h.Orderly) (name : String) :
    Orderly ⟨((Loading.unload name).run h.state).2, h.defined⟩ := by
  rw [Loading.run_unload]
  split
  · exact ho
  · rename_i hname
    cases hc : h.state.loader.lookup name with
    | none => exact ho
    | some c =>
      have hin := Loader.mem_of_lookup hc
      have hkeep : ∀ p ∈ h.state.loader.registered.filter (·.1 != name),
          p ∈ h.state.loader.registered ∧ p.1 ≠ name := fun p hp =>
        (List.mem_filter.mp hp).imp_right bne_iff_ne.mp
      -- the class stays among the defined ones, as a parent of classes that are still loaded
      refine ⟨?_, ?_, ?_, ?_, ?_, ho.parents, ho.increasing, ho.bounded, ?_⟩
      · exact (List.lookup_filter (by intro c; exact bne_iff_ne.mpr (Ne.symm hname)) _).trans
          ho.root
      · exact ho.names.sublist (List.filter_sublist.map _)
      · exact fun p hp => ho.named p (hkeep p hp).1
      · intro p hp
        obtain ⟨hp, hother⟩ := hkeep p hp
        show (h.state.space.markUnloaded c.no).isLoaded p.2.no = true
        rw [ClassSpace.isLoaded_markUnloaded, Bool.and_eq_true_iff]
        exact ⟨bne_iff_ne.mpr (ho.no_ne hp hin hother), ho.loaded p hp⟩
      · exact fun p hp => ho.recorded p (hkeep p hp).1
      · intro no hno
        rcases List.mem_cons.mp hno with rfl | hno
        · exact ho.bounded c (ho.recorded _ hin)
        · exact ho.unloaded no hno

/-- So does every action on a loadable table. -/
theorem step (ho : h.Orderly) {a : LoaderAction} (ha : a.OnLoadable) :
    ∃ h', h.step a = .ok h' ∧ h'.Orderly := by
  cases a with
  | define d =>
    obtain ⟨found, s, hrun, hend⟩ := Loading.define_ends d h.state
    have hdefines : h.state.Defines (fun _ => True) s := by
      rcases hend with ⟨-, -, rfl⟩ | ⟨k, -, hk, rfl⟩
      · exact .nothing
      · exact .enter .nothing trivial hk
    refine ⟨h.advance s, ?_, ho.advance hdefines⟩
    show ((Loading.define d).run.run h.state >>= _) = _
    rw [hrun]
    rfl
  | declare t id =>
    obtain ⟨found, s, hrun, hattempt⟩ := Loading.declared_ends ha id h.state
    refine ⟨h.advance s, ?_, ho.advance hattempt.defines⟩
    show ((Loading.declared t id).run.run h.state >>= _) = _
    rw [hrun]
    rfl
  | unload name => exact ⟨_, rfl, ho.unload name⟩

/-- So every run ends with an orderly history. -/
theorem run {space : ClassSpace} (hspace : space.Usable) (actions : List LoaderAction)
    (hactions : ∀ a ∈ actions, a.OnLoadable) : ∃ h, run space actions = .ok h ∧ h.Orderly := by
  have hall : ∀ h : LoaderHistory, h.Orderly → ∃ h', actions.foldlM LoaderHistory.step h = .ok h' ∧
    h'.Orderly := by
    induction actions with
    | nil => exact fun h ho => ⟨h, rfl, ho⟩
    | cons a actions ih =>
      intro h ho
      obtain ⟨h', hstep, ho'⟩ := ho.step (hactions a List.mem_cons_self)
      rw [List.foldlM_cons, hstep]
      exact ih (fun a ha => hactions a (List.mem_cons_of_mem _ ha)) h' ho'
  exact hall _ (.start hspace)

/-- Links lead to smaller numbers. -/
theorem lt_of_link (ho : h.Orderly) {a b : ClassNo} (hlink : h.Link a b) : b < a := by
  obtain ⟨c, hc, p, hp, rfl, rfl⟩ := hlink
  obtain ⟨i, hi⟩ := List.mem_iff_getElem?.mp hc
  have hsplit : h.defined.take i ++ h.defined.drop i = h.defined :=
    List.take_append_drop i h.defined
  have hlater : c ∈ h.defined.drop i := by
    refine List.mem_of_getElem? (i := 0) ?_
    rw [List.getElem?_drop]
    exact hi
  have hpairs := ho.increasing
  rw [← hsplit, List.pairwise_append] at hpairs
  exact hpairs.2.2 p (ho.parents i c hi p hp) c hlater

/-- No class is its own ancestor. -/
theorem acyclic (ho : h.Orderly) (no : ClassNo) : ¬ Relation.TransGen h.Link no no := by
  have hlt : ∀ {a b}, Relation.TransGen h.Link a b → b < a := by
    intro a b hab
    induction hab with
    | single hlink => exact ho.lt_of_link hlink
    | tail _ hlink ih => exact Nat.lt_trans (ho.lt_of_link hlink) ih
  exact fun hcycle => Nat.lt_irrefl no (hlt hcycle)

end Orderly

/-- Whatever is asked of a new loader, and whether it succeeds or not: the root is registered and
loaded, and so is every registered class under its own name. Every class that was ever defined has
its parents before it, so that no class is its own ancestor. A definition that fails changes
nothing; a class of a table that fails to load leaves at most built-in classes of the table behind,
and not itself. -/
theorem stays_orderly (space : ClassSpace) (hspace : space.Usable) (actions : List LoaderAction)
    (hactions : ∀ a ∈ actions, a.OnLoadable) :
    ∃ h, run space actions = .ok h ∧
      (h.state.loader.lookup LoadedClass.root.name = some .root ∧
        h.state.space.isLoaded LoadedClass.root.no = true) ∧
      (h.state.loader.registered.map (·.1)).Nodup ∧
      (∀ p ∈ h.state.loader.registered,
        p.2.name = p.1 ∧ h.state.space.isLoaded p.2.no = true ∧ p.2 ∈ h.defined) ∧
      (∀ i c, h.defined[i]? = some c → ∀ p ∈ c.parents, p ∈ h.defined.take i) ∧
      (∀ no, ¬ Relation.TransGen h.Link no no) ∧
      (∀ d, Loading.Ends (Loading.define d) h.state fun found s => ∀ e, found = .error e →
        s = h.state) ∧
      ∀ t id, t.Loadable → Loading.Ends (Loading.declared t id) h.state fun found s => ∀ e,
        found = .error e →
        ∃ added, s.loader.registered = h.state.loader.registered ++ added ∧
          ∀ p ∈ added, ∃ b c, t.get? b = some c ∧ c.builtin = true ∧ b ≠ id ∧ p.1 = c.name ∧
            ∃ l no, Loader.classOf l no c.definition = .ok p.2 := by
  obtain ⟨h, hrun, ho⟩ := Orderly.run hspace actions hactions
  refine ⟨h, hrun, ⟨ho.root, ho.loaded _ ho.root_mem⟩, ho.names,
    fun p hp => ⟨ho.named p hp, ho.loaded p hp, ho.recorded p hp⟩, ho.parents, ho.acyclic, ?_, ?_⟩
  · intro d
    obtain ⟨found, s, hd, hend⟩ := Loading.define_ends d h.state
    refine ⟨found, s, hd, ?_⟩
    rintro e rfl
    rcases hend with ⟨-, -, hs⟩ | ⟨k, hk, -⟩
    · exact hs
    · cases hk
  · intro t id ht
    obtain ⟨found, s, hdeclared, hattempt⟩ := Loading.declared_ends ht id h.state
    refine ⟨found, s, hdeclared, ?_⟩
    rintro e rfl
    obtain ⟨added, hadded, hfrom⟩ := hattempt.of_error.registered_eq
    refine ⟨added, hadded, fun p hp => ?_⟩
    obtain ⟨d, hd, hname, hmade⟩ := hfrom p hp
    obtain ⟨b, c, hc, hbuiltin, hne, rfl⟩ := hd.other
    exact ⟨b, c, hc, hbuiltin, hne, hname, hmade⟩

/-- Loads that come too early or fail for good, a class whose name is taken again, and attempts to
define it twice and to unload the root. -/
def attempts : List LoaderAction := [
  .declare Loading.leafTable 27, .declare Loading.leafTable 28, .declare Loading.leafTable 25,
  .declare Loading.leafTable 26, .declare Loading.leafTable 27, .unload "Base",
  .define { name := "Base" },
  .define { name := "Base" }, .define { name := "Orphan", superclass := some "Missing" },
  .declare Loading.leafTable 99, .unload "Object", .unload "Map", .unload "Shape", .unload "Leaf"]

theorem leafTable_loadable : Loading.leafTable.Loadable where
  seeded := ⟨Loading.leafTable.classes.drop 25, rfl, by decide⟩
  closed := by decide +kernel

/-- `Leaf` is tried once more without `Shape`, which brings `Map` back. -/
theorem stays_orderly_attempts :
    ∃ h, run {} attempts = .ok h ∧
      h.defined.map (·.name) =
        ["Object", "Map", "Shape", "Number", "Integer", "Base", "Leaf", "Base"] ∧
      h.state.loader.registered.map (·.1) = ["Object", "Number", "Integer", "Base"] ∧
      (∀ no, ¬ Relation.TransGen h.Link no no) ∧
      ∃ e s added, (Loading.declared Loading.leafTable 27).run.run h.state = .ok (.error e, s) ∧
        s.loader.registered = h.state.loader.registered ++ added ∧ added.length = 1 ∧
        ∀ p ∈ added, ∃ b c, Loading.leafTable.get? b = some c ∧ c.builtin = true ∧ b ≠ 27 ∧
          p.1 = c.name ∧
          ∃ l no, Loader.classOf l no c.definition = .ok p.2 := by
  have hactions : ∀ a ∈ attempts, a.OnLoadable := by
    simp [attempts, LoaderAction.OnLoadable, leafTable_loadable]
  obtain ⟨h, hrun, -, -, -, -, hacyclic, -, hdeclared⟩ :=
    stays_orderly {} ⟨by decide, by decide, by decide⟩ attempts hactions
  obtain ⟨found, s, hlast, hfail⟩ := hdeclared Loading.leafTable 27 leafTable_loadable
  have hcheck : (run {} attempts).toOption.any (fun h =>
      h.defined.map (·.name) =
        ["Object", "Map", "Shape", "Number", "Integer", "Base", "Leaf", "Base"] ∧
      h.state.loader.registered.map (·.1) = ["Object", "Number", "Integer", "Base"] ∧
      ((Loading.declared Loading.leafTable 27).run.run h.state).toOption.any (fun r =>
        !r.1.isOk && r.2.loader.size = h.state.loader.size + 1)) = true := by decide +kernel
  rw [hrun] at hcheck
  obtain ⟨hdefined, hregistered, hresult⟩ := of_decide_eq_true hcheck
  rw [hlast] at hresult
  obtain ⟨hfailed, hsize⟩ := Bool.and_eq_true_iff.mp hresult
  cases found with
  | ok k => cases hfailed
  | error e =>
    obtain ⟨added, hadded, hfrom⟩ := hfail e rfl
    have hone : added.length = 1 := by
      have hlength := of_decide_eq_true hsize
      unfold Loader.size at hlength
      rw [hadded, List.length_append] at hlength
      exact Nat.add_left_cancel hlength
    exact ⟨h, hrun, hdefined, hregistered, hacyclic, e, s, added, hlast, hadded, hone, hfrom⟩

end LoaderHistory

end Metaobject

import Metaobject.Proofs.Reflection.Resemblance

/-!
# Memory pressure goes unnoticed

Under memory pressure a cache takes parts of its records back, and computes them again when somebody
asks. Nobody can tell: what is answered about classes that stay loaded is the same with and without
the pressure.

A `Dialogue` is a session together with the records that were given out in it; requests go to these
records. Two dialogues are followed side by side, one of them without pressure (`Dialogue.Twins`).
Their records need not have the same numbers, only the same classes.

The main statement is `Dialogue.reclaim_transparent`.
-/

theorem List.Forall₂.getElem?_cases {α β : Type} {R : α → β → Prop} {as : List α} {bs : List β}
    (h : List.Forall₂ R as bs) (i : Nat) :
    as[i]? = none ∧ bs[i]? = none ∨ ∃ a b, as[i]? = some a ∧ bs[i]? = some b ∧ R a b := by
  induction h generalizing i with
  | nil => exact .inl ⟨rfl, rfl⟩
  | @cons a b _ _ hab _ ih =>
    cases i with
    | zero => exact .inr ⟨a, b, rfl, rfl, hab⟩
    | succ i => exact ih i

/-- Two lists that belong to a third one belong together. -/
theorem List.Forall₂.common {α β γ : Type} {P : α → γ → Prop} {Q : β → γ → Prop} {as : List α}
    {bs : List β} {cs : List γ} (h : List.Forall₂ P as cs) (h' : List.Forall₂ Q bs cs) :
    List.Forall₂ (fun a b => ∃ c, P a c ∧ Q b c) as bs := by
  induction h generalizing bs with
  | nil =>
    cases h'
    exact .nil
  | cons hac _ ih =>
    cases h' with
    | cons hbc hrest => exact .cons ⟨_, hac, hbc⟩ (ih hrest)

namespace Metaobject

/-! ## Dialogues -/

/-- What can be asked for in a dialogue. Records are told by their positions among those given
out. -/
inductive Request where
  | addLoader
  | addSite (index : Nat) (name : String)
  | define (loader : Nat) (d : ClassDefinition)
  | unload (loader : Nat) (name : String)
  /-- Tell the cache that a class was unloaded. A class that is still loaded is passed over. -/
  | forget (no : ClassNo)
  | clear (site : Nat)
  | reclaim (held : List RecordNo) (p : Pressure)
  /-- Ask the cache for the record of a class. -/
  | describe (no : ClassNo)
  | ask (i : Nat) (aspect : Aspect)
  /-- Ask a record for the methods that were added to its class. -/
  | added (i : Nat)
  | addMethod (i : Nat) (m : MethodSignature)
  | call (site : Nat) (no : ClassNo) (arity : Nat)
deriving DecidableEq, Repr

def Request.isReclaim : Request → Bool
  | reclaim _ _ => true
  | _ => false

/-- A session, and the records that were given out in it. -/
structure Dialogue (α : Type) where
  session : Session α
  given : List RecordNo := []

/-- What a computation came to; a failure is an answer too. -/
def Finding.ofResult : Except ReflectionError Finding → Finding
  | .ok v => v
  | .error e => { answer := .failure e }

namespace Dialogue

variable {α : Type}

def start (backend : ValueBackend) (permits : AccessPolicy) : Dialogue α where
  session := .start backend permits

/-- Let the session act. -/
def act (k : Dialogue α) (action : Action) : Dialogue α :=
  { k with session := k.session.step action }

/-- Look at classes, and give out the records that are found. -/
def see (k : Dialogue α) (x : Viewing Finding) : Option Answer × Dialogue α :=
  let seen := k.session.world.view 0 x
  let finding := Finding.ofResult seen.1
  (some finding.answer, ⟨{ k.session with world := seen.2 }, k.given ++ finding.given⟩)

/-- Ask for the record of a class. -/
def describe (k : Dialogue α) (no : ClassNo) : Option Answer × Dialogue α :=
  (k.session.class? no).elim (none, k) fun c => k.see do Viewing.named [← Viewing.recordOf c]

/-- Ask a record for a part of it. -/
def ask (k : Dialogue α) (i : Nat) (aspect : Aspect) : Option Answer × Dialogue α :=
  (k.given[i]?).elim (none, k) fun r => k.see (aspect.ask (k.session.cache.record r).cls r)

def added (k : Dialogue α) (i : Nat) : Option Answer × Dialogue α :=
  (k.given[i]?).elim (none, k) fun r => (some (.added (k.session.cache.record r).added), k)

/-- Add a method to the class of a record. -/
def addMethod (k : Dialogue α) (i : Nat) (m : MethodSignature) : Option Answer × Dialogue α :=
  (k.given[i]?).elim (none, k) fun r =>
    (some (.added [(k.session.realm.addMethod r m).1]), k.act (.addMethod r m))

/-- Call a method, and ask what was called. -/
def call (k : Dialogue α) (i : Nat) (no : ClassNo) (arity : Nat) : Option Answer × Dialogue α :=
  (k.session.sites[i]?).elim (none, k) fun site =>
    (k.session.class? no).elim (none, k) fun c =>
      (some (.call (site.resolve k.session.realm c arity).1), k.act (.resolve i no arity))

/-- The answer to a request, if there is one, and the dialogue after it. -/
def serve (k : Dialogue α) : Request → Option Answer × Dialogue α
  | .addLoader => (none, k.act .addLoader)
  | .addSite index name => (none, k.act (.addSite index name))
  | .define i d => (none, k.act (.define i d))
  | .unload i name => (none, k.act (.unload i name))
  | .forget no => (none, if k.session.realm.space.isLoaded no then k else k.act (.forget no))
  | .clear i => (none, k.act (.clear i))
  | .reclaim held p => (none, k.act (.reclaim held p))
  | .describe no => k.describe no
  | .ask i aspect => k.ask i aspect
  | .added i => k.added i
  | .addMethod i m => k.addMethod i m
  | .call i no arity => k.call i no arity

/-- What is answered to requests, one after the other. Memory pressure asks for nothing. -/
def transcript (k : Dialogue α) : List Request → List (Option Answer)
  | [] => []
  | request :: rest =>
    if request.isReclaim then (k.serve request).2.transcript rest
    else (k.serve request).1 :: (k.serve request).2.transcript rest

/-- A request that is answered comes first in the transcript. -/
theorem transcript_cons {request : Request} (h : request.isReclaim = false) (k : Dialogue α)
    (rest : List Request) :
    k.transcript
      (request :: rest) = (k.serve request).1 :: (k.serve request).2.transcript rest := by
  rw [transcript, h, if_neg Bool.false_ne_true]

/-- The dialogue after some requests. -/
def after (k : Dialogue α) (requests : List Request) : Dialogue α :=
  requests.foldl (fun k request => (k.serve request).2) k

/-- The class that a request is about. -/
def subject? (k : Dialogue α) : Request → Option LoadedClass
  | .describe no => k.session.class? no
  | .call _ no _ => k.session.class? no
  | .ask i _ => (k.given[i]?).map fun r => (k.session.cache.record r).cls
  | .added i => (k.given[i]?).map fun r => (k.session.cache.record r).cls
  | .addMethod i _ => (k.given[i]?).map fun r => (k.session.cache.record r).cls
  | _ => none

/-- The classes that requests are about. -/
def subjects (k : Dialogue α) : List Request → List LoadedClass
  | [] => []
  | request :: rest => (k.subject? request).toList ++ (k.serve request).2.subjects rest

/-! ## One dialogue -/

/-- The session is settled, and the records that were given out are there. -/
structure Settled (k : Dialogue α) : Prop where
  session : k.session.Settled
  given : ∀ r ∈ k.given, ∃ c, k.session.cache.Describes r c

variable {k l : Dialogue α}

/-- Looking is not noticed. It gives out records of the right classes, and it does answer if `live`
holds. -/
theorem see_spec {x : Viewing Finding} {live : Prop} {a : Answer} {cs : List LoadedClass}
    (hk : k.session.Settled)
    (hx : Viewing.Yields k.session.classes x k.session.realm live fun t v => v.answer = a ∧
      List.Forall₂ t.cache.Describes v.given cs) :
    (k.session.Continues (k.see x).2.session ∧ k.session.Alike (k.see x).2.session) ∧
      ∃ rs ds, (k.see x).2.given = k.given ++ rs ∧
        List.Forall₂ (k.see x).2.session.cache.Describes rs ds ∧
        (live → (k.see x).1 = some a ∧ ds = cs) := by
  refine ⟨⟨hk.setRealm hx.coherent hx.grows, hk.toOrderly.alike_of_grows hx.grows rfl⟩, ?_⟩
  unfold Viewing.Yields at hx
  cases hrun : x.run.run k.session.realm with
  | mk found t =>
    rw [hrun] at hx
    have hview : k.session.world.view 0 x = (found, k.session.world.setRealm 0 t) := by
      show (match x.run.run k.session.realm with
        | (found, t) => (found, k.session.world.setRealm 0 t)) = _
      rw [hrun]
    have hcache : (k.see x).2.session.cache = t.cache := by
      show ((k.session.world.view 0 x).2.realm 0).cache = t.cache
      rw [hview, World.realm_setRealm hk.cached]
    rw [hcache]
    unfold see
    rw [hview]
    cases found with
    | error e => exact ⟨[], [], rfl, .nil, fun hl => absurd hl hx.2.2⟩
    | ok v => exact ⟨v.given, cs, rfl, hx.2.2.2, fun _ => ⟨congrArg some hx.2.2.1, rfl⟩⟩

theorem describe_yields {live : Prop} (hk : k.session.Orderly) {c : LoadedClass}
    (hc : c ∈ k.session.classes) (hlive : live → k.session.realm.space.isLoaded c.no = true) :
    Viewing.Yields k.session.classes
      (do Viewing.named [← Viewing.recordOf c]) k.session.realm live fun t v =>
      v.answer = .classes [c] ∧ List.Forall₂ t.cache.Describes v.given [c] := by
  refine .bind (Viewing.recordOf_yields hk.population hk.coherent hc hlive) ?_
  intro r t ht _ hr
  exact Viewing.named_yields ht (.cons hr.1 .nil)

/-- What is asked for is answered by the class, and the records that are given describe it. -/
theorem ask_yields {live : Prop} (hk : k.session.Orderly) {r : RecordNo} {c : LoadedClass}
    (hr : k.session.cache.Describes r c) (hlive : live → k.session.realm.space.HasFamily c)
    (aspect : Aspect) :
    Viewing.Yields k.session.classes
      (aspect.ask (k.session.cache.record r).cls r) k.session.realm live fun t v =>
      v.answer = aspect.answer (k.session.cache.record r).added c ∧
        List.Forall₂ t.cache.Describes v.given (aspect.shown c) := by
  obtain ⟨d, hd, rfl⟩ := hr
  rw [ReflectionCache.record_of_getElem? hd]
  exact aspect.ask_yields hk.population hk.coherent hd hlive

/-- What a dialogue turns into. -/
structure Follows (k l : Dialogue α) : Prop where
  continues : k.session.Continues l.session
  given : ∀ r ∈ l.given, ∃ c, l.session.cache.Describes r c

theorem Follows.settled (h : k.Follows l) : l.Settled := ⟨h.continues.settled, h.given⟩

namespace Settled

theorem refl (hk : k.Settled) : k.Follows k := ⟨hk.session.refl, hk.given⟩

theorem act (hk : k.Settled) {action : Action} (h : k.session.Continues (k.session.step action)) :
    k.Follows (k.act action) := by
  refine ⟨h, ?_⟩
  intro r hr
  obtain ⟨c, hc⟩ := hk.given r hr
  exact ⟨c, h.describes r c hc⟩

/-- A dialogue goes on after any view. -/
theorem see (hk : k.Settled) {x : Viewing Finding} {live : Prop} {a : Answer}
    {cs : List LoadedClass}
    (hx : Viewing.Yields k.session.classes x k.session.realm live fun t v => v.answer = a ∧
      List.Forall₂ t.cache.Describes v.given cs) : k.Follows (k.see x).2 := by
  obtain ⟨⟨hcontinues, -⟩, rs, ds, hgiven, hrs, -⟩ := see_spec hk.session hx
  refine ⟨hcontinues, ?_⟩
  intro r hr
  rw [hgiven] at hr
  rcases List.mem_append.mp hr with hr | hr
  · obtain ⟨c, hc⟩ := hk.given r hr
    exact ⟨c, hcontinues.describes r c hc⟩
  · obtain ⟨c, -, hc⟩ := hrs.flip.exists_of_mem_right hr
    exact ⟨c, hc⟩

/-- Whatever is asked for, a settled dialogue stays settled. -/
theorem serve (hk : k.Settled) (request : Request) : k.Follows (k.serve request).2 := by
  have hs := hk.session
  -- the first requests are single actions of the session; the others look up a record or a site
  -- first and do nothing where there is none
  cases request with
  | addLoader => exact hk.act hs.addLoader
  | addSite index name => exact hk.act (hs.addSite index name)
  | define i d => exact hk.act (hs.define i d)
  | unload i name => exact hk.act (hs.unload i name)
  | forget no =>
    show k.Follows (if k.session.realm.space.isLoaded no then k else k.act (.forget no))
    split
    · exact hk.refl
    · rename_i hno
      exact hk.act (hs.forget (Bool.eq_false_iff.mpr hno)).1
  | clear i => exact hk.act (hs.clear i).1
  | reclaim held p => exact hk.act (hs.reclaim held p).1
  | describe no =>
    show k.Follows (k.describe no).2
    unfold Dialogue.describe
    cases hc : k.session.class? no with
    | none => exact hk.refl
    | some c => exact hk.see (describe_yields hs.toOrderly (Session.mem_of_class? hc) False.elim)
  | ask i aspect =>
    show k.Follows (k.ask i aspect).2
    unfold Dialogue.ask
    cases hr : k.given[i]? with
    | none => exact hk.refl
    | some r =>
      obtain ⟨c, hc⟩ := hk.given r (List.mem_of_getElem? hr)
      exact hk.see (ask_yields hs.toOrderly hc False.elim aspect)
  | added i =>
    show k.Follows (k.added i).2
    unfold Dialogue.added
    cases k.given[i]? <;> exact hk.refl
  | addMethod i m =>
    show k.Follows (k.addMethod i m).2
    unfold Dialogue.addMethod
    cases k.given[i]? with
    | none => exact hk.refl
    | some r => exact hk.act (hs.addMethod r m)
  | call i no arity =>
    show k.Follows (k.call i no arity).2
    unfold Dialogue.call
    cases k.session.sites[i]? with
    | none => exact hk.refl
    | some site =>
      cases k.session.class? no with
      | none => exact hk.refl
      | some c => exact hk.act (hs.resolve i no arity).1

/-- Classes that are loaded in the end were loaded all the time. -/
theorem isLoaded_of_after (hk : k.Settled) (requests : List Request) {no : ClassNo}
    (h : (k.after requests).session.realm.space.isLoaded no = true) :
    k.session.realm.space.isLoaded no = true := by
  induction requests generalizing k with
  | nil => exact h
  | cons request rest ih =>
    have hserve := hk.serve request
    exact hserve.continues.isLoaded no (ih hserve.settled h)

end Settled

/-- A dialogue that has just started is settled. -/
theorem start_settled (backend : ValueBackend) (permits : AccessPolicy) :
    (start backend permits : Dialogue α).Settled where
  session := by
    refine ⟨Session.start_sound backend permits, ?_⟩
    rintro r c ⟨d, hd, -⟩
    cases hd
  given r hr := absurd hr List.not_mem_nil

/-! ## Two dialogues -/

/-- Two settled dialogues whose sessions are alike, and in which records of the same classes were
given out. -/
structure Twins (k l : Dialogue α) : Prop where
  left : k.session.Settled
  right : l.session.Settled
  alike : k.session.Alike l.session
  given : List.Forall₂ (fun r q => ∃ c, k.session.cache.Describes r c ∧
    l.session.cache.Describes q c) k.given l.given

namespace Twins

theorem settled (h : k.Twins l) : k.Settled := by
  refine ⟨h.left, ?_⟩
  intro r hr
  obtain ⟨q, -, c, hc, -⟩ := h.given.flip.exists_of_mem_right hr
  exact ⟨c, hc⟩

/-- A settled dialogue is its own twin. -/
theorem of_settled (hk : k.Settled) : k.Twins k := by
  refine ⟨hk.session, hk.session, .refl _, List.forall₂_same.mpr ?_⟩
  intro r hr
  obtain ⟨c, hc⟩ := hk.given r hr
  exact ⟨c, hc, hc⟩

/-- Both dialogues go on, and give out records of the same classes. -/
theorem give (h : k.Twins l) {k' l' : Dialogue α} (hk : k.session.Continues k'.session)
    (hl : l.session.Continues l'.session) (halike : k'.session.Alike l'.session)
    {rs qs : List RecordNo} {cs : List LoadedClass} (hrs : k'.given = k.given ++ rs)
    (hqs : l'.given = l.given ++ qs) (hrs' : List.Forall₂ k'.session.cache.Describes rs cs)
    (hqs' : List.Forall₂ l'.session.cache.Describes qs cs) : k'.Twins l' := by
  refine ⟨hk.settled, hl.settled, halike, ?_⟩
  rw [hrs, hqs]
  refine List.rel_append (h.given.imp ?_) (hrs'.common hqs')
  rintro r q ⟨c, hr, hq⟩
  exact ⟨c, hk.describes r c hr, hl.describes q c hq⟩

theorem act (h : k.Twins l) {s t : Session α} (hk : k.session.Continues s)
    (hl : l.session.Continues t) (halike : s.Alike t) :
    Twins { k with session := s } { l with session := t } :=
  h.give hk hl halike (List.append_nil _).symm (List.append_nil _).symm .nil .nil

/-- Steps that nobody notices may be taken on both sides, or on one. -/
theorem act_quiet (h : k.Twins l) {s t : Session α} (hk : k.session.Continues s ∧ k.session.Alike s)
    (hl : l.session.Continues t ∧ l.session.Alike t) :
    Twins { k with session := s } { l with session := t } :=
  h.act hk.1 hl.1 (hk.2.symm.trans (h.alike.trans hl.2))

/-- Twins that see the same get the same answer and stay twins. -/
theorem see (h : k.Twins l) {x y : Viewing Finding} {a : Answer} {cs : List LoadedClass}
    (hx : Viewing.Yields k.session.classes x k.session.realm True fun t v =>
      v.answer = a ∧ List.Forall₂ t.cache.Describes v.given cs)
    (hy : Viewing.Yields l.session.classes y l.session.realm True fun t v =>
      v.answer = a ∧ List.Forall₂ t.cache.Describes v.given cs) :
    (k.see x).1 = (l.see y).1 ∧ (k.see x).2.Twins (l.see y).2 := by
  obtain ⟨⟨hk, hkalike⟩, rs, ds, hrs, hrs', hkanswer⟩ := see_spec h.left hx
  obtain ⟨⟨hl, hlalike⟩, qs, es, hqs, hqs', hlanswer⟩ := see_spec h.right hy
  obtain ⟨hka, rfl⟩ := hkanswer trivial
  obtain ⟨hla, rfl⟩ := hlanswer trivial
  exact ⟨hka.trans hla.symm, h.give hk hl (hkalike.symm.trans (h.alike.trans hlalike))
    hrs hqs hrs' hqs'⟩

/-- A record knows the same added methods in both dialogues, if its class is loaded. -/
theorem added_record (h : k.Twins l) {r q : RecordNo} {c : LoadedClass}
    (hr : k.session.cache.Describes r c) (hq : l.session.cache.Describes q c)
    (hc : k.session.realm.space.isLoaded c.no = true) :
    (l.session.cache.record q).added = (k.session.cache.record r).added := by
  have hc' : l.session.realm.space.isLoaded c.no = true := by
    rw [h.alike.isLoaded]
    exact hc
  have hk : (k.session.cache.record r).added = k.session.realm.addedTo c.no :=
    h.left.current.added_record hr hc
  have hl : (l.session.cache.record q).added = l.session.realm.addedTo c.no :=
    h.right.current.added_record hq hc'
  rw [hk, hl, h.alike.added c.no hc]

/-! ### One request -/

theorem describe (h : k.Twins l) (no : ClassNo)
    (hlive : ∀ c ∈ k.session.class? no, k.session.realm.space.HasFamily c) :
    (k.describe no).1 = (l.describe no).1 ∧ (k.describe no).2.Twins (l.describe no).2 := by
  unfold Dialogue.describe
  rw [h.alike.class?_eq]
  cases hc : k.session.class? no with
  | none => exact ⟨rfl, h⟩
  | some c =>
    have hfamily := hlive c hc
    have hmem := Session.mem_of_class? hc
    have hmem' : c ∈ l.session.classes := by
      rw [h.alike.classes]
      exact hmem
    exact h.see (describe_yields h.left.toOrderly hmem fun _ => hfamily.self)
      (describe_yields h.right.toOrderly hmem' fun _ => (h.alike.hasFamily hfamily).self)

/-- The record that a request goes to is there in both dialogues or in none, and describes the same
class. -/
theorem given_cases (h : k.Twins l) (i : Nat)
    (hlive : ∀ c ∈ (k.given[i]?).map fun r => (k.session.cache.record r).cls,
      k.session.realm.space.HasFamily c) :
    k.given[i]? = none ∧ l.given[i]? = none ∨ ∃ r q c, k.given[i]? = some r ∧ l.given[i]? = some q ∧
      k.session.cache.Describes r c ∧ l.session.cache.Describes q c ∧
        k.session.realm.space.HasFamily c := by
  rcases h.given.getElem?_cases i with hnone | ⟨r, q, hr, hq, c, hc, hc'⟩
  · exact .inl hnone
  · refine .inr ⟨r, q, c, hr, hq, hc, hc', hlive c ?_⟩
    rw [hr]
    exact congrArg some hc.record_cls

/-- Twins answer the same about a part of a record. -/
theorem ask (h : k.Twins l) (i : Nat) (aspect : Aspect)
    (hlive : ∀ c ∈ (k.given[i]?).map fun r => (k.session.cache.record r).cls,
      k.session.realm.space.HasFamily c) :
    (k.ask i aspect).1 = (l.ask i aspect).1 ∧ (k.ask i aspect).2.Twins (l.ask i aspect).2 := by
  unfold Dialogue.ask
  rcases h.given_cases i hlive with ⟨hr, hq⟩ | ⟨r, q, c, hr, hq, hc, hc', hfamily⟩
  · rw [hr, hq]
    exact ⟨rfl, h⟩
  · rw [hr, hq]
    have hy := ask_yields h.right.toOrderly hc' (fun _ : True => h.alike.hasFamily hfamily) aspect
    rw [h.added_record hc hc' hfamily.self] at hy
    exact h.see (ask_yields h.left.toOrderly hc (fun _ => hfamily) aspect) hy

theorem added (h : k.Twins l) (i : Nat)
    (hlive : ∀ c ∈ (k.given[i]?).map fun r => (k.session.cache.record r).cls,
      k.session.realm.space.HasFamily c) :
    (k.added i).1 = (l.added i).1 ∧ (k.added i).2.Twins (l.added i).2 := by
  unfold Dialogue.added
  rcases h.given_cases i hlive with ⟨hr, hq⟩ | ⟨r, q, c, hr, hq, hc, hc', hfamily⟩
  · rw [hr, hq]
    exact ⟨rfl, h⟩
  · rw [hr, hq]
    dsimp only [Option.elim_some]
    rw [h.added_record hc hc' hfamily.self]
    exact ⟨rfl, h⟩

theorem addMethod (h : k.Twins l) (i : Nat) (m : MethodSignature)
    (hlive : ∀ c ∈ (k.given[i]?).map fun r => (k.session.cache.record r).cls,
      k.session.realm.space.HasFamily c) :
    (k.addMethod i m).1 = (l.addMethod i m).1 ∧ (k.addMethod i m).2.Twins (l.addMethod i m).2 := by
  unfold Dialogue.addMethod
  rcases h.given_cases i hlive with ⟨hr, hq⟩ | ⟨r, q, c, hr, hq, hc, hc', hfamily⟩
  · rw [hr, hq]
    exact ⟨rfl, h⟩
  · rw [hr, hq]
    obtain ⟨hhandle, halike⟩ := h.alike.addMethod h.left h.right hc hc' hfamily.self m
    dsimp only [Option.elim_some]
    rw [hhandle]
    exact ⟨rfl, h.act (h.left.addMethod r m) (h.right.addMethod q m) halike⟩

/-- Twins answer a call the same. -/
theorem call (h : k.Twins l) (i : Nat) (no : ClassNo) (arity : Nat)
    (hlive : ∀ c ∈ k.session.class? no, k.session.realm.space.HasFamily c) :
    (k.call i no arity).1 = (l.call i no arity).1 ∧
      (k.call i no arity).2.Twins (l.call i no arity).2 := by
  -- the sites of the two dialogues may hold different entries, but they have the same names
  have hnames : (l.session.sites[i]?).map (·.name) = (k.session.sites[i]?).map (·.name) := by
    rw [← List.getElem?_map, ← List.getElem?_map, h.alike.names]
  unfold Dialogue.call
  rw [h.alike.class?_eq]
  cases hsite : k.session.sites[i]? with
  | none =>
    rw [hsite, Option.map_none, Option.map_eq_none_iff] at hnames
    rw [hnames]
    exact ⟨rfl, h⟩
  | some site =>
    rw [hsite, Option.map_some, Option.map_eq_some_iff] at hnames
    obtain ⟨site', hsite', hname⟩ := hnames
    rw [hsite']
    cases hc : k.session.class? no with
    | none => exact ⟨rfl, h⟩
    | some c =>
      have hcalls := h.alike.resolve_fst h.left.toSound h.right.toSound (List.mem_of_getElem? hsite)
        (List.mem_of_getElem? hsite') hname (Session.mem_of_class? hc) (hlive c hc) arity
      dsimp only [Option.elim_some]
      rw [hcalls]
      exact ⟨rfl, h.act_quiet (h.left.resolve i no arity) (h.right.resolve i no arity)⟩

/-- A request about a class that is loaded with all its ancestors is answered alike. -/
theorem serve (h : k.Twins l) (request : Request) (hpressure : request.isReclaim = false)
    (hlive : ∀ c ∈ k.subject? request, k.session.realm.space.HasFamily c) :
    (k.serve request).1 = (l.serve request).1 ∧ (k.serve request).2.Twins (l.serve request).2 := by
  cases request with
  | addLoader => exact ⟨rfl, h.act h.left.addLoader h.right.addLoader h.alike.addLoader⟩
  | addSite index name =>
    exact ⟨rfl,
      h.act (h.left.addSite index name) (h.right.addSite index name) (h.alike.addSite index name)⟩
  | define i d => exact ⟨rfl, h.act (h.left.define i d) (h.right.define i d) (h.alike.define i d)⟩
  | unload i name =>
    exact ⟨rfl, h.act (h.left.unload i name) (h.right.unload i name)
      (h.alike.unload h.left.toOrderly h.right.toOrderly i name)⟩
  | forget no =>
    refine ⟨rfl, ?_⟩
    show Twins (if k.session.realm.space.isLoaded no then k else k.act (.forget no))
      (if l.session.realm.space.isLoaded no then l else l.act (.forget no))
    rw [h.alike.isLoaded]
    cases hno : k.session.realm.space.isLoaded no with
    | true => exact h
    | false =>
      have hno' : l.session.realm.space.isLoaded no = false := by
        rw [h.alike.isLoaded]
        exact hno
      exact h.act_quiet (h.left.forget hno) (h.right.forget hno')
  | clear i => exact ⟨rfl, h.act_quiet (h.left.clear i) (h.right.clear i)⟩
  | reclaim held p => cases hpressure
  | describe no => exact h.describe no hlive
  | ask i aspect => exact h.ask i aspect hlive
  | added i => exact h.added i hlive
  | addMethod i m => exact h.addMethod i m hlive
  | call i no arity => exact h.call i no arity hlive

/-- Pressure on one of two dialogues is not noticed. -/
theorem reclaim (h : k.Twins l) (held : List RecordNo) (p : Pressure) :
    (k.serve (.reclaim held p)).2.Twins l :=
  h.act_quiet (h.left.reclaim held p) ⟨h.right.refl, .refl _⟩

/-! ### All requests -/

/-- Twins have the same transcript, whether values are taken back in one of them or not. -/
theorem transcript_eq (h : k.Twins l) (requests : List Request)
    (hlast : ∀ c ∈ k.subjects requests, (k.after requests).session.realm.space.HasFamily c) :
    k.transcript requests = l.transcript (requests.filter (!·.isReclaim)) := by
  induction requests generalizing k l with
  | nil => rfl
  | cons request rest ih =>
    have hrest : ∀ c ∈ (k.serve request).2.subjects rest,
        ((k.serve request).2.after rest).session.realm.space.HasFamily c :=
      fun c hc => hlast c (List.mem_append_right _ hc)
    cases hpressure : request.isReclaim with
    | true =>
      cases request with
      | reclaim held p => exact ih (h.reclaim held p) hrest
      | _ => cases hpressure
    | false =>
      -- the subject is loaded in the end, so it is now
      have hlive : ∀ c ∈ k.subject? request, k.session.realm.space.HasFamily c := by
        intro c hc no hno
        have hmem : c ∈ k.subjects (request :: rest) :=
          List.mem_append_left _ (Option.mem_toList.mpr hc)
        exact h.settled.isLoaded_of_after (request :: rest) (hlast c hmem no hno)
      obtain ⟨hanswer, htwins⟩ := h.serve request hpressure hlive
      rw [List.filter_cons_of_pos (by rw [hpressure]; rfl), transcript_cons hpressure,
        transcript_cons hpressure, hanswer, ih htwins hrest]

end Twins

/-- Take any requests, with memory pressure at any points between them, about classes that are
loaded with all their ancestors to the end. Every answer is what it is without the pressure. -/
theorem reclaim_transparent (backend : ValueBackend) (permits : AccessPolicy)
    (requests : List Request)
    (hlast : ∀ c ∈ (start backend permits : Dialogue α).subjects requests,
      ((start backend permits : Dialogue α).after requests).session.realm.space.HasFamily c) :
    (start backend permits : Dialogue α).transcript requests =
      (start backend permits : Dialogue α).transcript (requests.filter (!·.isReclaim)) :=
  (Twins.of_settled (start_settled backend permits)).transcript_eq requests hlast

/-- A class is asked about, called and given a method, and all parts of its record are taken back in
between. Another class comes and goes. -/
def childRequests : List Request := [
  .addLoader,
  .addSite 0 "run",
  .define 0 { name := "Job", modifiers := ClassDefinition.interfaceModifiers },
  .define 0 { name := "Base", methods := [⟨"run", [], "void", .publicOnly⟩] },
  .define 0 { name := "Child", superclass := some "Base", interfaces := ["Job"] },
  .define 0 { name := "Other" },
  .describe 3,
  .ask 0 .hierarchy,
  .reclaim [0] .high,
  .ask 4 .methods,
  .unload 0 "Other",
  .forget 4,
  .call 0 3 0,
  .reclaim [] .low,
  .addMethod 1 ⟨"run", [], "int", .publicOnly⟩,
  .reclaim [0, 1] .high,
  .call 0 3 0,
  .added 0,
  .ask 0 (.member "run" 0)]

/-- Values are taken back in between, and the subjects are answered as if they had not been. -/
theorem reclaim_transparent_child :
    ((start .slot fun _ _ => true : Dialogue Unit).subjects childRequests).map (·.no) =
        [3, 3, 2, 3, 3, 3, 3, 3] ∧
      (start .slot fun _ _ => true : Dialogue Unit).transcript childRequests =
        (start .slot fun _ _ => true : Dialogue Unit).transcript
          (childRequests.filter (!·.isReclaim)) := by
  have hunloaded :
      ((start .slot fun _ _ => true : Dialogue Unit).after
        childRequests).session.realm.space.unloaded = [4] := by
    decide +kernel
  have hsubjects :
      ((start .slot fun _ _ => true : Dialogue Unit).subjects childRequests).all
        (!·.derivesFrom 4) = true := by
    decide +kernel
  refine ⟨by decide +kernel, reclaim_transparent .slot _ childRequests ?_⟩
  intro c hc no hno
  have hother := List.all_eq_true.mp hsubjects c hc
  have hne : no ≠ 4 := by
    rintro rfl
    rw [hno] at hother
    cases hother
  rw [ClassSpace.isLoaded, hunloaded]
  simpa using hne

end Dialogue

end Metaobject

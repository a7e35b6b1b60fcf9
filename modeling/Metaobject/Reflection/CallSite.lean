import Metaobject.Dispatch.Marking
import Metaobject.Reflection.Resolution

/-!
# Call sites at run time

A call site remembers the member that it found for a receiver class and a number of arguments. An
entry is good as long as the cache counts no change since it was made; a doubtful entry is resolved
again and replaced.
-/

namespace Metaobject

/-- A resolved call. -/
structure SiteEntry where
  receiver : ClassNo
  arity : Nat
  member : MemberHandle
  /-- How many changes the cache counted when the call was resolved. -/
  stamp : Nat

/-- A call location. -/
structure CallSite where
  index : Nat
  name : String
  /-- At most one entry for each receiver class and number of arguments. -/
  entries : List SiteEntry := []
  hits : Nat := 0
  misses : Nat := 0
  /-- How many entries were found to be doubtful. -/
  invalidations : Nat := 0

namespace CallSite

/-- A site for constructor calls. -/
def ofConstructor (index : Nat) : CallSite where
  index
  name := constructorName

def isConstructor (s : CallSite) : Bool := s.name == constructorName

/-- The sites of a class, one for each key of its table. -/
def ofTable (t : SiteTable) : List CallSite :=
  t.keys.zipIdx.map fun (key, index) => { index, name := key.name }

def entry? (s : CallSite) (receiver : ClassNo) (arity : Nat) : Option SiteEntry :=
  s.entries.find? fun e => e.receiver == receiver && e.arity == arity

/-- Remember a resolved call in place of an older entry for the same call. -/
def remember (s : CallSite) (e : SiteEntry) : CallSite :=
  { s with
    entries := s.entries.filter (fun old => !(old.receiver == e.receiver && old.arity == e.arity))
      ++ [e] }

/-- Forget all entries. The counts stay. -/
def clear (s : CallSite) : CallSite := { s with entries := [] }

/-- The failure of a call that finds no member. -/
def missing (s : CallSite) (receiver : LoadedClass) (arity : Nat) : DispatchError :=
  if s.isConstructor then .missingConstructor receiver.name arity
    else .missingMethod receiver.name s.name arity

/-- Look the member up, whatever is remembered. -/
def lookup (s : CallSite) (receiver : LoadedClass) (arity : Nat) :
    Viewing (Option MemberHandle) := do
  let r ← Viewing.recordOf receiver
  if s.isConstructor then Resolution.constructor receiver r arity
    else Resolution.member receiver r s.name arity

/-- Look the member up and remember it. -/
def miss (s : CallSite) (realm : Realm) (receiver : LoadedClass) (arity : Nat) :
    Except DispatchError MemberHandle × CallSite × Realm :=
  let s := { s with misses := s.misses + 1 }
  match (s.lookup receiver arity).run realm with
  | (.error e, after) => (.error (.reflection e), s, after)
  | (.ok none, after) => (.error (s.missing receiver arity), s, after)
  | (.ok (some member), after) =>
    (.ok member, s.remember ⟨receiver.no, arity, member, realm.cache.changes⟩, after)

/-- The member that a call on this receiver means. -/
def resolve (s : CallSite) (realm : Realm) (receiver : LoadedClass) (arity : Nat) :
    Except DispatchError MemberHandle × CallSite × Realm :=
  match s.entry? receiver.no arity with
  | none => s.miss realm receiver arity
  | some e =>
    if e.stamp = realm.cache.changes then (.ok e.member, { s with hits := s.hits + 1 }, realm)
    else { s with invalidations := s.invalidations + 1 }.miss realm receiver arity

end CallSite

end Metaobject

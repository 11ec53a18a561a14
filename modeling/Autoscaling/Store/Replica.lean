import Autoscaling.Store.Basic

/-!
# Replicas

A replica is a copy of the views in a scope.  It starts as the list that comes with a watch and
takes in the changes that the watch delivers.
-/

namespace Autoscaling

/-- A copy of some views, by key. -/
structure Replica where
  views : OrderedMap Key View
  deriving Inhabited

namespace Replica

def ofViews (views : List View) : Replica := ⟨.ofList (views.map fun v => (v.key, v))⟩

def apply (r : Replica) (c : Change) : Replica :=
  match c.kind with
  | .deleted => ⟨r.views.erase c.view.key⟩
  | .added | .modified => ⟨r.views.insert c.view.key c.view⟩

def applyAll (r : Replica) (changes : List Change) : Replica := changes.foldl apply r

/-- The views by ascending key. -/
def list (r : Replica) : List View := r.views.values

end Replica

/-- A reader that keeps a replica of a scope by a watch of it. -/
structure Follower where
  scope : String
  watch : Nat
  replica : Replica

namespace Follower

/-- List a scope and watch it from then on. -/
def start (scope : String) (s : Store) : Except Abort (Follower × Store) := do
  let (views, _, id, s) ← s.listAndWatch scope
  .ok (⟨scope, id, .ofViews views⟩, s)

/-- Receive once, without waiting: take in a change, or at the end of the watch list and watch
anew. -/
def read (f : Follower) (s : Store) : Except Abort (Receipt × Follower × Store) :=
  match s.receive f.watch with
  | (.change c, s) => .ok (.change c, { f with replica := f.replica.apply c }, s)
  | (.pending, s) => .ok (.pending, f, s)
  | (.ended, s) => do
      let (f, s) ← start f.scope s
      .ok (.ended, f, s)

/-- Receive until nothing is queued; `fuel` bounds the number of receives. -/
def readWith : Nat → Follower → Store → Except Abort (Follower × Store)
  | 0, f, s => .ok (f, s)
  | fuel + 1, f, s => do
      let (receipt, f, s) ← f.read s
      match receipt with
      | .pending => .ok (f, s)
      | _ => readWith fuel f s

/-- Receive until nothing is queued. -/
def catchUp (f : Follower) (s : Store) : Except Abort (Follower × Store) :=
  -- what is queued now, the end of the watch, and one receive from the new watch
  readWith ((s.hub.queued f.watch).length + 2) f s

end Follower

end Autoscaling

import Autoscaling.Autoscaler.Basic

/-!
# Plans

A plan is the list of steps that turn a set of stored autoscalers into a desired one.  It is made
from a snapshot, before any step is taken, so no step depends on how another one went.

Of several entries with the same key the last one counts, on either side.  A stored specification
is left alone when the desired one is equal to it as data.
-/

namespace Autoscaling

/-- One step of a plan. -/
inductive Step where
  /-- remove what is stored under a key -/
  | delete (key : Key)
  /-- replace the specification that is stored under its key -/
  | update (spec : Spec)
  /-- store a new autoscaler of a specification -/
  | add (spec : Spec)

/-- What a step does. -/
inductive StepKind where
  | delete
  | update
  | add
  deriving DecidableEq

namespace StepKind

def text : StepKind → String
  | delete => "delete"
  | update => "update"
  | add => "add"

end StepKind

namespace Step

def kind : Step → StepKind
  | delete _ => .delete
  | update _ => .update
  | add _ => .add

def key : Step → Key
  | delete k => k
  | update spec => spec.key
  | add spec => spec.key

end Step

namespace Plan

/-- The specifications by key; of several with the same key the last one counts. -/
def byKey (specs : List Spec) : OrderedMap Key Spec :=
  .ofList (specs.map fun s => (s.key, s))

/-- The stored keys that are not desired. -/
def deletions (stored desired : OrderedMap Key Spec) : List Step :=
  (stored.keys.filter fun k => !desired.contains k).map .delete

/-- The desired specifications that differ from the stored ones. -/
def updates (stored desired : OrderedMap Key Spec) : List Step :=
  (desired.entries.filter fun e =>
    match stored.find? e.1 with
    | some current => current != e.2
    | none => false).map fun e => .update e.2

/-- The desired specifications of keys that nothing is stored under. -/
def additions (stored desired : OrderedMap Key Spec) : List Step :=
  (desired.entries.filter fun e => !stored.contains e.1).map fun e => .add e.2

/-- All steps: deletions, then updates, then additions, each by ascending key. -/
def between (stored desired : OrderedMap Key Spec) : List Step :=
  deletions stored desired ++ updates stored desired ++ additions stored desired

end Plan

/-- The plan that turns the stored autoscalers into the desired ones. -/
def plan (stored : List Autoscaler) (desired : List Spec) : List Step :=
  Plan.between (Plan.byKey (stored.map Autoscaler.spec)) (Plan.byKey desired)

end Autoscaling

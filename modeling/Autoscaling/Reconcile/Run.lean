import Autoscaling.Operation
import Autoscaling.Reconcile.Plan
import Autoscaling.Store.Basic

/-!
# Carrying out a plan

A plan is carried out step by step on anything that keeps autoscalers.  A step that fails does not
keep the others from being taken; all failures are reported together, in the order of the steps.
-/

namespace Autoscaling

universe u

/-- What reconciling needs of something that keeps autoscalers. -/
structure Keeper (σ : Type u) where
  /-- the autoscalers that are kept, in any order -/
  autoscalers : σ → List Autoscaler × σ
  /-- keep a new autoscaler -/
  add : Autoscaler → Operation σ StateError Unit
  /-- replace what is declared of one that is kept, and not its status -/
  updateSpec : Spec → Operation σ StateError Unit
  /-- keep an autoscaler no more -/
  delete : Key → Operation σ StateError Unit

/-- A step that failed. -/
structure StepFailure where
  kind : StepKind
  key : Key
  error : StateError
  deriving DecidableEq

def StepFailure.message (f : StepFailure) : String :=
  f.kind.text ++ " " ++ f.key.text ++ ": " ++ f.error.message

/-- The steps of a pass that failed. -/
structure ReconcileError where
  failures : List StepFailure
  deriving DecidableEq

/-- The wording of all failures, each on a line of its own. -/
def ReconcileError.message (e : ReconcileError) : String :=
  "\n".intercalate (e.failures.map StepFailure.message)

def ReconcileError.outcome : List StepFailure → Except ReconcileError Unit
  | [] => .ok ()
  | failures => .error ⟨failures⟩

namespace Keeper

variable {σ : Type u}

/-- Take one step. -/
def take (keeper : Keeper σ) : Step → Operation σ StateError Unit
  | .delete k => keeper.delete k
  | .update spec => keeper.updateSpec spec
  -- an added autoscaler starts with the initial status
  | .add spec => keeper.add (.declared spec)

/-- Take all steps and collect the failures. -/
def takeAll (keeper : Keeper σ) : List Step → σ → List StepFailure × σ
  | [], s => ([], s)
  | step :: rest, s =>
      let (outcome, s) := keeper.take step s
      -- the rest is taken whether or not this step failed
      let (failures, s) := takeAll keeper rest s
      match outcome with
      | .ok () => (failures, s)
      | .error error => (⟨step.kind, step.key, error⟩ :: failures, s)

/-- Make what is kept equal to what is desired, as far as every step can be taken. -/
def reconcile (keeper : Keeper σ) (desired : List Spec) : Operation σ ReconcileError Unit :=
  fun s =>
    let (stored, s) := keeper.autoscalers s
    let (failures, s) := keeper.takeAll (plan stored desired) s
    (ReconcileError.outcome failures, s)

end Keeper

namespace Store

/-- The outcome of a mutation that notifies nobody: the store after it, or the same store. -/
def settle (s : Store) : Except StateError Commit → Except StateError Unit × Store
  | .ok commit => (.ok (), commit.store)
  | .error error => (.error error, s)

def keeper : Keeper Store where
  autoscalers s := (s.autoscalers, s)
  add a s := s.settle (s.add a)
  updateSpec spec s := s.settle (s.updateSpec spec)
  delete k s := s.settle (s.delete k)

/-- Make the stored autoscalers equal to the desired ones. -/
def reconcile (s : Store) (desired : List Spec) : Except ReconcileError Unit × Store :=
  keeper.reconcile desired s

end Store

end Autoscaling

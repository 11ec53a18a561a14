import Autoscaling.Control.Observer
import Autoscaling.Store.Replica

/-!
# Background tasks

Three tasks run in the background of a hub.  One loads what is declared, at the start and then at
the interval that the storage backend asks for, if any.  One observes every stored autoscaler once
in a period, for the first time after one period.  One follows the changes of the store.

Time is counted in milliseconds from the start.  Loads and observations fall on the multiples of
their periods, and the tasks are advanced from one point of time to a later one by doing what falls
between them in the order of time.  A period is what the settings ask for, but a task never waits
longer than `longestWait` for its next turn.
-/

namespace Autoscaling

/-- The longest time between two turns of a task: thirty years of 365 days. -/
def longestWait : Nat := 30 * 365 * 24 * 60 * 60 * 1000

/-- The period between two turns of a task that is to wait for so many milliseconds. -/
def periodOf (millis : Nat) : Nat := min millis longestWait

/-- The period of the loads, if a storage backend asks for more than the first one. -/
def StorageClient.period {β : Type} (storage : StorageClient β) : Option Nat :=
  storage.intervalMillis.map fun millis => periodOf millis.toNat

/-- The period of the observations. -/
def Config.observationPeriod (c : Config) : Nat := periodOf (1000 * c.resyncPeriodSecs.toNat)

/-- The multiples of a period after one point of time, up to another. -/
def multiples (period start stop : Nat) : List Nat :=
  (List.range' (start / period + 1) (stop / period - start / period)).map (· * period)

inductive Due where
  | load
  | observation
  deriving DecidableEq

/-- What falls due after one point of time, up to another, in the order of time. -/
def agenda (loadPeriod : Option Nat) (observationPeriod : Nat) (start stop : Nat) : List Due :=
  let loads := match loadPeriod with
    | some period => (multiples period start stop).map fun t => (t, Due.load)
    | none => []
  let observations := (multiples observationPeriod start stop).map fun t => (t, Due.observation)
  -- the sort is stable, so what is due at the same time is loaded before it is observed
  ((loads ++ observations).mergeSort fun a b => a.1 ≤ b.1).map Prod.snd

/-- The task that keeps the store equal to what is declared. -/
structure SyncTask (β : Type) where
  storage : StorageClient β
  site : Site β
  /-- milliseconds since the start -/
  time : Nat

namespace SyncTask

variable {β : Type}

/-- Load once; a failure is left to the next load. -/
def load (t : SyncTask β) : SyncTask β := { t with site := (t.site.syncOnce t.storage).2 }

def start (storage : StorageClient β) (site : Site β) : SyncTask β :=
  load ⟨storage, site, 0⟩

def advance (t : SyncTask β) (millis : Nat) : SyncTask β :=
  let due := match t.storage.period with
    | some period => multiples period t.time (t.time + millis)
    | none => []
  { due.foldl (fun t _ => t.load) t with time := t.time + millis }

/-- Whether the task has ended: without a period the first load is the last. -/
def finished (t : SyncTask β) : Bool := t.storage.period.isNone

end SyncTask

/-- The background tasks of a hub. -/
structure Tasks (β : Type) where
  config : Config
  backends : Backends β
  site : Site β
  /-- milliseconds since the start -/
  time : Nat
  /-- whether the observing task still runs -/
  observing : Bool
  /-- the following task, while it runs -/
  follower : Option Follower

namespace Tasks

variable {β : Type}

/-- Keep what a follower and the store have become. -/
def keep (t : Tasks β) : Except Abort (Follower × Store) → Tasks β
  | .ok (f, store) => { t with follower := some f, site := { t.site with store := store } }
  -- a task that aborts has ended
  | .error _ => { t with follower := none }

/-- Let the following task take in what is queued. -/
def follow (t : Tasks β) : Tasks β :=
  match t.follower with
  | some f => t.keep (f.catchUp t.site.store)
  | none => t

/-- Load what is declared; a failure is left to the next load. -/
def load (t : Tasks β) : Tasks β :=
  { t with site := (t.site.syncOnce t.backends.storage).2 }

/-- Observe every stored autoscaler, while the observing task runs. -/
def observe (t : Tasks β) : Tasks β :=
  if t.observing then
    match t.site.observeAll t.backends (UInt64.ofNat (t.time / 1000)) t.config.workers.toNat with
    | .ok (_, site) => { t with site := site }
    | .error _ => { t with observing := false }
  else t

/-- Do what is due, then take in the changes. -/
def perform (t : Tasks β) : Due → Tasks β
  | .load => t.load.follow
  | .observation => t.observe.follow

def start (config : Config) (backends : Backends β) (outside : β) : Tasks β :=
  let t := load ⟨config, backends, .start config outside, 0, true, none⟩
  t.keep (Follower.start everyNamespace t.site.store)

def advance (t : Tasks β) (millis : Nat) : Tasks β :=
  let due := agenda t.backends.storage.period t.config.observationPeriod t.time (t.time + millis)
  { due.foldl perform t with time := t.time + millis }

/-- Which tasks have ended: loading, observing, following. -/
def finished (t : Tasks β) : List Bool :=
  [t.backends.storage.period.isNone, !t.observing, t.follower.isNone]

end Tasks

end Autoscaling

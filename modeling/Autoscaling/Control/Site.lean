import Autoscaling.Provider.Backends
import Autoscaling.Reconcile.Run

/-!
# The site

A site is a store together with the world outside of the hub, on which the clients of the
backends work.  Calls through a client change the outside only; a status that is written changes
the store and is then told to the storage backend and to the listener of its namespace.
-/

namespace Autoscaling

/-- A store and what is outside of it. -/
structure Site (β : Type) where
  store : Store
  outside : β
  /-- what the listeners of namespaces were told, by name, oldest first -/
  told : List (String × Autoscaler)

/-- Why a synchronization with the declared autoscalers failed. -/
inductive SyncError where
  /-- nothing could be loaded -/
  | load (error : BackendError)
  /-- some autoscalers could not be stored as declared -/
  | reconcile (error : ReconcileError)
  deriving DecidableEq

def SyncError.message : SyncError → String
  | load error => error.message
  | reconcile error => error.message

namespace Site

variable {β : Type}

/-- The site at the start: an empty store with the tuning of a configuration. -/
def start (config : Config) (outside : β) : Site β :=
  -- the handler of the store is the storage backend
  ⟨.create config.store true, outside, []⟩

def call {α : Type} (operation : Operation β BackendError α) :
    Operation (Site β) ProviderError α := fun s =>
  match operation s.outside with
  | (.ok x, b) => (.ok x, { s with outside := b })
  | (.error e, b) => (.error (.backend e), { s with outside := b })

/-- Tell someone of a status that was written. -/
def tell (storage : StorageClient β) (s : Site β) : Notification → Site β
  | .handler a => { s with outside := storage.statusUpdated a s.outside }
  | .listener name a => { s with told := s.told ++ [(name, a)] }

/-- Write the status of a view back through a sink for one namespace, and tell those who are to
know.  The stored view is the answer. -/
def updateStatus (storage : StorageClient β) (sink : String) (v : View) :
    Operation (Site β) StateError View := fun s =>
  match s.store.updateStatus sink v with
  | .ok commit =>
      (.ok commit.change.view,
        commit.notifications.foldl (tell storage) { s with store := commit.store })
  | .error e => (.error e, s)

def reconcile (desired : List Spec) : Operation (Site β) ReconcileError Unit := fun s =>
  let (outcome, store) := s.store.reconcile desired
  (outcome, { s with store := store })

/-- Load what is declared and make the store equal to it. -/
def syncOnce (storage : StorageClient β) : Operation (Site β) SyncError Unit := fun s =>
  match storage.load s.outside with
  | (.error e, b) => (.error (.load e), { s with outside := b })
  | (.ok desired, b) =>
      match reconcile desired { s with outside := b } with
      | (.ok (), s) => (.ok (), s)
      | (.error e, s) => (.error (.reconcile e), s)

end Site

end Autoscaling

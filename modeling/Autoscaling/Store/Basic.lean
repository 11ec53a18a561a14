import Autoscaling.Abort
import Autoscaling.Store.Hub
import Autoscaling.View.Derive

/-!
# The store

The store files every autoscaler under its namespace and name, together with its view.  It counts
the mutations that it accepts; the count is the version of the store, and each autoscaler carries
the version of its last mutation.

Every accepted mutation is published to the watches at once.  A status that is written also goes
to the listener of its namespace, if there is one, and to the handler of the store, if it has one.
A refused mutation changes nothing.
-/

namespace Autoscaling

/-- An autoscaler with its view. -/
structure Entry where
  autoscaler : Autoscaler
  view : View
  deriving Inhabited

/-- Someone is told that a status was written. -/
inductive Notification where
  /-- the listener of that name, off the writer's path -/
  | listener (name : String) (a : Autoscaler)
  /-- the handler of the store, before the write returns -/
  | handler (a : Autoscaler)

/-- The state of a store. -/
structure Store where
  /-- by namespace, then by name -/
  entries : OrderedMap String (OrderedMap String Entry)
  /-- how many mutations were accepted -/
  version : UInt64
  hub : Hub
  /-- the name of the listener of a namespace -/
  listeners : OrderedMap String String
  /-- whether the store has a handler -/
  handled : Bool
  deriving Inhabited

/-- An accepted mutation. -/
structure Commit where
  store : Store
  /-- what was published -/
  change : Change
  /-- who was told, in this order -/
  notifications : List Notification

namespace Store

def create (tuning : Tuning) (handled : Bool) : Store :=
  ⟨.empty, 0, .create tuning, .empty, handled⟩

/-! ## Reading -/

def find? (s : Store) (k : Key) : Option Entry :=
  match s.entries.find? k.ns with
  | some named => named.find? k.name
  | none => none

/-- The refusal of a request for a key that nothing is stored under. -/
def notFound (k : Key) : StateError := .notFound k.text

def get (s : Store) (k : Key) : Except StateError Autoscaler :=
  match s.find? k with
  | some entry => .ok entry.autoscaler
  | none => .error (notFound k)

def getView (s : Store) (k : Key) : Except StateError View :=
  match s.find? k with
  | some entry => .ok entry.view
  | none => .error (notFound k)

/-- The entries in the scope, by namespace and name. -/
def entriesIn (s : Store) (scope : String) : List Entry :=
  (s.entries.entries.filter fun e => covers scope e.1).flatMap fun e => e.2.values

/-- The views in a scope, by namespace and name. -/
def list (s : Store) (scope : String) : List View := (s.entriesIn scope).map Entry.view

/-- All autoscalers, by namespace and name. -/
def autoscalers (s : Store) : List Autoscaler :=
  (s.entriesIn everyNamespace).map Entry.autoscaler

def size (s : Store) : Nat := s.entries.values.foldl (fun n named => n + named.size) 0

def isEmpty (s : Store) : Bool := s.size == 0

/-! ## Writing -/

def file (s : Store) (k : Key) (entry : Entry) : Store :=
  let named := (s.entries.find? k.ns).getD .empty
  { s with entries := s.entries.insert k.ns (named.insert k.name entry) }

/-- Remove the entry of a key, and its namespace with the last one. -/
def remove (s : Store) (k : Key) : Store :=
  match s.entries.find? k.ns with
  | none => s
  | some named =>
      let rest := named.erase k.name
      -- a namespace that holds nothing is not kept
      { s with
        entries := if rest.isEmpty then s.entries.erase k.ns else s.entries.insert k.ns rest }

/-- Count an accepted mutation and publish its change. -/
def publish (s : Store) (c : Change) : Store :=
  { s with version := s.version + 1, hub := s.hub.publish c }

/-- File an autoscaler under its key with the next version, and publish its view. -/
def put (s : Store) (kind : ChangeKind) (a : Autoscaler) (notify : Autoscaler → List Notification) :
    Except StateError Commit := do
  let a := { a with version := s.version + 1 }
  -- an autoscaler without a view is refused here, before anything is filed
  let view ← a.view
  let change : Change := ⟨kind, view⟩
  .ok ⟨(s.file a.key ⟨a, view⟩).publish change, change, notify a⟩

/-- Nobody is told. -/
def nobody : Autoscaler → List Notification := fun _ => []

/-- Store a new autoscaler. -/
def add (s : Store) (a : Autoscaler) : Except StateError Commit :=
  match s.find? a.key with
  | some _ => .error (.alreadyExists a.key.text)
  | none => s.put .added a nobody

/-- Replace a stored autoscaler, specification and status. -/
def update (s : Store) (a : Autoscaler) : Except StateError Commit :=
  match s.find? a.key with
  | some _ => s.put .modified a nobody
  | none => .error (notFound a.key)

/-- Replace what is declared of a stored autoscaler and keep its status. -/
def updateSpec (s : Store) (spec : Spec) : Except StateError Commit :=
  match s.find? spec.key with
  | some entry => s.put .modified { entry.autoscaler with spec := spec } nobody
  | none => .error (notFound spec.key)

/-- Remove a stored autoscaler and publish its last view. -/
def delete (s : Store) (k : Key) : Except StateError Commit :=
  match s.find? k with
  | some entry =>
      -- the view is the one that was stored, but it tells the version of the removal
      let change : Change := ⟨.deleted, { entry.view with resourceVersion := s.version + 1 }⟩
      .ok ⟨(s.remove k).publish change, change, []⟩
  | none => .error (notFound k)

/-- Those who are told of a status that was written in a namespace. -/
def audience (s : Store) (ns : String) (a : Autoscaler) : List Notification :=
  (match s.listeners.find? ns with
    | some name => [.listener name a]
    | none => []) ++
  (if s.handled then [.handler a] else [])

/-- Replace the status of a stored autoscaler and keep what is declared. -/
def mergeStatus (s : Store) (k : Key) (status : Status) : Except StateError Commit :=
  match s.find? k with
  | some entry =>
      s.put .modified { entry.autoscaler with status := status } (s.audience k.ns)
  | none => .error (notFound k)

/-- The refusal of a view of another namespace by a sink. -/
def foreign (sink : String) (v : View) : StateError :=
  .conflict ("status for " ++ v.name ++ " targets namespace " ++ v.ns ++
    ", sink is scoped to " ++ sink)

/-- Write the status of a view back through a sink for one namespace. -/
def updateStatus (s : Store) (sink : String) (v : View) : Except StateError Commit := do
  if v.ns ≠ sink then .error (foreign sink v)
  else
    let status ← v.status.toStatus
    -- nothing but the name and the status is taken from the view
    s.mergeStatus ⟨sink, v.name⟩ status

/-- A sink for one namespace in diagnostic messages. -/
def describeSink (sink : String) : String :=
  "StatusSink \x7b namespace: " ++ quoted sink ++ " \x7d"

/-! ## Watching and listening -/

/-- Open a watch on a scope. -/
def watch (s : Store) (scope : String) : Except Abort (Nat × Store) :=
  -- the queue is made here, and one that would be too long cannot be
  if Abort.greatestCount < s.hub.capacity then .error .tooManyPermits
  else
    let (id, hub) := s.hub.subscribe scope
    .ok (id, { s with hub := hub })

/-- The views in a scope, the version, and a watch on what follows. -/
def listAndWatch (s : Store) (scope : String) :
    Except Abort (List View × UInt64 × Nat × Store) := do
  let (id, s') ← s.watch scope
  -- opening the watch changes neither, so nothing can fall between the list and the watch
  .ok (s.list scope, s.version, id, s')

/-- Take the oldest queued change of a watch. -/
def receive (s : Store) (id : Nat) : Receipt × Store :=
  let (receipt, hub) := s.hub.receive id
  (receipt, { s with hub := hub })

def stop (s : Store) (id : Nat) : Store := { s with hub := s.hub.stop id }

/-- The end of the store, which its watches outlive. -/
def teardown (s : Store) : Store := { s with hub := s.hub.teardown }

def watchCount (s : Store) : Nat := s.hub.registered.size

/-- Have a listener told of the statuses written in a namespace, instead of any other. -/
def listen (s : Store) (ns name : String) : Store :=
  { s with listeners := s.listeners.insert ns name }

/-- Have nobody told of the statuses written in a namespace; whether there was someone. -/
def unlisten (s : Store) (ns : String) : Bool × Store :=
  (s.listeners.contains ns, { s with listeners := s.listeners.erase ns })

end Store

end Autoscaling

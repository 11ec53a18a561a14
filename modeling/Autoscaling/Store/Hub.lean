import Autoscaling.Config.Basic
import Autoscaling.Text.Quoted
import Autoscaling.View.Basic

/-!
# Watches

A watch is a queue of changes between the store, which publishes them, and one reader.  The hub
has both ends of every watch that was opened: the registrations by which the store finds the
watches to publish to, and the queues from which the readers take.

A reader stops a watch by itself.  A watch also ends without its reader when its registration is
removed, because it fell behind or because the store is gone; then the reader still gets what is
queued, and its next receive reports the end.  What a reader does changes no watch but its own.
-/

namespace Autoscaling

/-- The scope that covers every namespace. -/
def everyNamespace : String := ""

/-- Whether a scope covers a namespace: it is that namespace or stands for every one. -/
def covers (scope ns : String) : Bool := scope == everyNamespace || scope == ns

/-- What happened to an autoscaler. -/
inductive ChangeKind where
  | added
  | modified
  | deleted
  deriving DecidableEq, Inhabited

namespace ChangeKind

def text : ChangeKind → String
  | added => "Added"
  | modified => "Modified"
  | deleted => "Deleted"

end ChangeKind

/-- A change, with the view of the autoscaler after it, or the last view of a deleted one. -/
structure Change where
  kind : ChangeKind
  view : View
  deriving BEq, Inhabited

/-- The reader's end of a watch. -/
structure Watch where
  /-- the namespace whose changes are watched -/
  scope : String
  /-- the changes that are not read yet, oldest first -/
  queue : List Change
  /-- whether the reader has stopped the watch -/
  stopped : Bool
  /-- whether the end has been reported -/
  closed : Bool
  deriving Inhabited

/-- The outcome of a receive that does not wait. -/
inductive Receipt where
  | change (c : Change)
  /-- nothing is queued now -/
  | pending
  /-- nothing will come any more -/
  | ended

/-- What publishing a change does to a registered watch. -/
inductive Delivery where
  /-- the change is out of its scope -/
  | outOfScope
  /-- the change is queued -/
  | queued
  /-- the change does not fit and is lost -/
  | lost
  /-- the change does not fit or nobody reads any more; the registration is removed -/
  | ended
  deriving DecidableEq

/-- All watches of a store. -/
structure Hub where
  /-- how many changes a watch may have unread -/
  capacity : Nat
  overflow : Overflow
  /-- the id of the watch opened last; ids count from one -/
  lastId : Nat
  /-- the scope of every registered watch, by its id -/
  registered : OrderedMap Nat String
  /-- every watch that was opened, by its id -/
  watches : OrderedMap Nat Watch
  deriving Inhabited

namespace Hub

/-- A hub without watches. -/
def create (tuning : Tuning) : Hub :=
  -- a queue has room for at least one change, whatever the tuning says
  ⟨max tuning.watchQueueCapacity.toNat 1, tuning.watchOverflow, 0, .empty, .empty⟩

/-- Open a watch: the new id and the hub with it. -/
def subscribe (h : Hub) (scope : String) : Nat × Hub :=
  let id := h.lastId + 1
  (id, { h with
    lastId := id
    registered := h.registered.insert id scope
    watches := h.watches.insert id ⟨scope, [], false, false⟩ })

/-- What publishing a change of an autoscaler in a namespace does to a watch that is registered
for a scope. -/
def delivery (h : Hub) (ns scope : String) (watch : Option Watch) : Delivery :=
  if covers scope ns then
    match watch with
    | none => .ended
    | some w =>
        -- a reader that is gone counts before a queue that is full
        if w.stopped then .ended
        else if w.queue.length < h.capacity then .queued
        else match h.overflow with
          | .disconnect => .ended
          | .dropNewest => .lost
  else .outOfScope

/-- Queue a change for every registered watch in whose scope it is. -/
def publish (h : Hub) (c : Change) : Hub :=
  -- both maps are made from the hub as it was, so the order of the watches does not matter
  { h with
    registered := h.registered.filter fun id scope =>
      h.delivery c.view.ns scope (h.watches.find? id) != .ended
    watches := h.watches.mapValues fun id w =>
      match h.registered.find? id with
      | some scope =>
          if h.delivery c.view.ns scope (some w) = .queued then { w with queue := w.queue ++ [c] }
          else w
      | none => w }

/-- Take the oldest queued change of a watch. -/
def receive (h : Hub) (id : Nat) : Receipt × Hub :=
  match h.watches.find? id with
  | none => (.ended, h)
  | some w =>
      if w.closed then (.ended, h)
      else match w.queue with
        | c :: rest =>
            (.change c, { h with watches := h.watches.insert id { w with queue := rest } })
        | [] =>
            -- the registration alone tells whether more can follow
            if h.registered.contains id then (.pending, h)
            else (.ended, { h with watches := h.watches.insert id { w with closed := true } })

/-- Receive until nothing is queued; `fuel` bounds the number of changes. -/
def drainWith (id : Nat) : Nat → Hub → List Change × Hub
  | 0, h => ([], h)
  | fuel + 1, h =>
      match h.receive id with
      | (.change c, h) =>
          let (rest, h) := drainWith id fuel h
          (c :: rest, h)
      | (_, h) => ([], h)

/-- The changes that are queued for the reader of a watch. -/
def queued (h : Hub) (id : Nat) : List Change :=
  match h.watches.find? id with
  | some w => w.queue
  | none => []

/-- Receive until nothing is queued. -/
def drain (h : Hub) (id : Nat) : List Change × Hub := drainWith id ((h.queued id).length + 1) h

/-- Stop a watch: remove its registration and forget what is queued. -/
def stop (h : Hub) (id : Nat) : Hub :=
  match h.watches.find? id with
  | none => h
  | some w =>
      if w.stopped then h
      else
        { h with
          registered := h.registered.erase id
          watches := h.watches.insert id { w with queue := [], stopped := true, closed := true } }

/-- The end of the store: nothing is published any more. -/
def teardown (h : Hub) : Hub := { h with registered := .empty }

/-- Whether a watch has reported its end. -/
def isClosed (h : Hub) (id : Nat) : Bool :=
  match h.watches.find? id with
  | some w => w.closed
  | none => true

def scopeOf (h : Hub) (id : Nat) : String :=
  match h.watches.find? id with
  | some w => w.scope
  | none => everyNamespace

/-- A watch in diagnostic messages. -/
def describe (h : Hub) (id : Nat) : String :=
  "Watch \x7b id: " ++ natText id ++ ", namespace: " ++ quoted (h.scopeOf id) ++ ", closed: " ++
    (if h.isClosed id then "true" else "false") ++ " \x7d"

end Hub

end Autoscaling

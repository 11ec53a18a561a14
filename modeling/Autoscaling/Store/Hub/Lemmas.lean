import Autoscaling.Ordered.Lemmas
import Autoscaling.Store.Hub

/-!
# What happens to one watch

Each operation of the hub is described by what becomes of one watch and of its registration.  The
reader of a watch changes no other one (`Hub.find?_watches_receive`, `Hub.find?_watches_stop`), and
publishing treats every registered watch on its own (`Hub.find?_watches_publish`).
-/

namespace Autoscaling

namespace Hub

/-! ## Opening -/

theorem find?_watches_subscribe (h : Hub) (scope : String) (id : Nat) :
    (h.subscribe scope).2.watches.find? id =
      if id = h.lastId + 1 then some ⟨scope, [], false, false⟩ else h.watches.find? id :=
  OrderedMap.find?_insert ..

theorem find?_registered_subscribe (h : Hub) (scope : String) (id : Nat) :
    (h.subscribe scope).2.registered.find? id =
      if id = h.lastId + 1 then some scope else h.registered.find? id :=
  OrderedMap.find?_insert ..

/-! ## Publishing -/

theorem find?_registered_publish (h : Hub) (c : Change) (id : Nat) :
    (h.publish c).registered.find? id =
      (h.registered.find? id).filter fun scope =>
        h.delivery c.view.ns scope (h.watches.find? id) != .ended :=
  OrderedMap.find?_filter ..

theorem find?_watches_publish (h : Hub) (c : Change) (id : Nat) :
    (h.publish c).watches.find? id =
      (h.watches.find? id).map fun w =>
        match h.registered.find? id with
        | some scope =>
            if h.delivery c.view.ns scope (some w) = .queued then { w with queue := w.queue ++ [c] }
            else w
        | none => w :=
  OrderedMap.find?_mapValues ..

/-- A change is queued for a watch in its scope that has room for it and is still read. -/
theorem delivery_eq_queued_iff {h : Hub} {ns scope : String} {w : Watch} :
    h.delivery ns scope (some w) = .queued ↔
      covers scope ns = true ∧ w.stopped = false ∧ w.queue.length < h.capacity := by
  rw [delivery]
  cases covers scope ns <;> cases w.stopped <;> cases h.overflow <;>
    by_cases room : w.queue.length < h.capacity <;> simp [room]

/-- Publishing ends a watch in its scope that is not read any more, and one that is full under the
policy that ends it. -/
theorem delivery_eq_ended_iff {h : Hub} {ns scope : String} {w : Watch} :
    h.delivery ns scope (some w) = .ended ↔
      covers scope ns = true ∧
        (w.stopped = true ∨ h.capacity ≤ w.queue.length ∧ h.overflow = .disconnect) := by
  rw [delivery]
  cases covers scope ns <;> cases w.stopped <;> cases h.overflow <;>
    by_cases room : w.queue.length < h.capacity <;> simp [room, Nat.le_of_not_lt]

/-! ## Receiving -/

@[simp] theorem registered_receive (h : Hub) (id : Nat) :
    (h.receive id).2.registered = h.registered := by
  rw [receive]
  split
  · rfl
  · split
    · rfl
    · split
      · rfl
      · split <;> rfl

/-- Receiving from a watch changes no other one. -/
theorem find?_watches_receive {id id₀ : Nat} (other : id₀ ≠ id) (h : Hub) :
    (h.receive id).2.watches.find? id₀ = h.watches.find? id₀ := by
  rw [receive]
  split
  · rfl
  · split
    · rfl
    · split
      · exact (OrderedMap.find?_insert ..).trans (if_neg other)
      · split
        · rfl
        · exact (OrderedMap.find?_insert ..).trans (if_neg other)

/-- A watch that has reported its end yields nothing any more. -/
theorem receive_of_isClosed {h : Hub} {id : Nat} (closed : h.isClosed id = true) :
    h.receive id = (.ended, h) := by
  rw [isClosed] at closed
  rw [receive]
  split
  · rfl
  · rename_i w hw
    rw [hw] at closed
    exact if_pos closed

/-! ## Stopping -/

/-- Stopping a watch changes no other one. -/
theorem find?_watches_stop {id id₀ : Nat} (other : id₀ ≠ id) (h : Hub) :
    (h.stop id).watches.find? id₀ = h.watches.find? id₀ := by
  rw [stop]
  split
  · rfl
  · split
    · rfl
    · exact (OrderedMap.find?_insert ..).trans (if_neg other)

theorem find?_registered_stop {id id₀ : Nat} (other : id₀ ≠ id) (h : Hub) :
    (h.stop id).registered.find? id₀ = h.registered.find? id₀ := by
  rw [stop]
  split
  · rfl
  · split
    · rfl
    · exact (OrderedMap.find?_erase ..).trans (if_neg other)

/-- Stopping a watch again changes nothing. -/
theorem stop_stop (h : Hub) (id : Nat) : (h.stop id).stop id = h.stop id := by
  cases hw : h.watches.find? id with
  | none => simp [stop, hw]
  | some w =>
      by_cases stopped : w.stopped = true
      · simp [stop, hw, stopped]
      · simp [stop, hw, stopped]

end Hub

end Autoscaling

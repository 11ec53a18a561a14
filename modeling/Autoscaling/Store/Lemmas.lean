import Autoscaling.Ordered.Lemmas
import Autoscaling.Store.Basic

/-!
# The store and its lookups

What a store holds is known by `Store.find?`.  Filing and removing an entry change that lookup at
one key only, counting and publishing do not change it, and neither does anything that is done to
watches and listeners.  `Store.put_eq_ok_iff` and `Store.delete_eq_ok_iff` say what accepted
mutations come to.
-/

namespace Autoscaling

/-- A step that is followed by another one succeeds together with it. -/
theorem bind_eq_ok_iff {ε α β : Type} {x : Except ε α} {f : α → Except ε β} {b : β} :
    x.bind f = .ok b ↔ ∃ a, x = .ok a ∧ f a = .ok b := by
  cases x with
  | error e => exact ⟨fun h => (nomatch h), fun ⟨_, h, _⟩ => (nomatch h)⟩
  | ok a => exact ⟨fun h => ⟨a, rfl, h⟩, fun ⟨_, hx, h⟩ => Except.ok.inj hx ▸ h⟩

/-- Another error for a failure does not change what succeeds. -/
theorem mapError_eq_ok_iff {ε ε' α : Type} {x : Except ε α} {f : ε → ε'} {a : α} :
    x.mapError f = .ok a ↔ x = .ok a := by
  cases x with
  | error e => exact ⟨fun h => (nomatch h), fun h => (nomatch h)⟩
  | ok a₀ => exact ⟨fun h => congrArg _ (Except.ok.inj h), fun h => congrArg _ (Except.ok.inj h)⟩

namespace Store

theorem find?_eq (s : Store) (k : Key) :
    s.find? k = (s.entries.find? k.ns).bind fun named => named.find? k.name := by
  rw [find?]
  cases s.entries.find? k.ns <;> rfl

/-- Two keys of the same namespace are equal when their names are. -/
theorem key_eq_iff {k k₀ : Key} : k₀ = k ↔ k₀.ns = k.ns ∧ k₀.name = k.name := by
  cases k
  cases k₀
  exact Key.mk.injEq .. ▸ Iff.rfl

theorem find?_file (s : Store) (k k₀ : Key) (entry : Entry) :
    (s.file k entry).find? k₀ = if k₀ = k then some entry else s.find? k₀ := by
  rw [find?_eq, find?_eq, file]
  by_cases hns : k₀.ns = k.ns
  · by_cases hname : k₀.name = k.name
    · have hk : k₀ = k := key_eq_iff.mpr ⟨hns, hname⟩
      simp [hk]
    · have hk : k₀ ≠ k := fun h => hname (h ▸ rfl)
      cases hnamed : s.entries.find? k.ns <;> simp [hns, hname, hk, hnamed]
  · have hk : k₀ ≠ k := fun h => hns (h ▸ rfl)
    simp [hns, hk]

theorem find?_remove (s : Store) (k k₀ : Key) :
    (s.remove k).find? k₀ = if k₀ = k then none else s.find? k₀ := by
  rw [find?_eq, find?_eq, remove]
  cases hnamed : s.entries.find? k.ns with
  | none =>
      by_cases hk : k₀ = k
      · subst hk
        simp [hnamed]
      · simp [hk]
  | some named =>
      by_cases hns : k₀.ns = k.ns
      · by_cases hempty : (named.erase k.name).isEmpty = true
        · have nothing := OrderedMap.isEmpty_iff.mp hempty k₀.name
          rw [OrderedMap.find?_erase] at nothing
          by_cases hname : k₀.name = k.name
          · have hk : k₀ = k := key_eq_iff.mpr ⟨hns, hname⟩
            simp [hempty, hk]
          · have hk : k₀ ≠ k := fun h => hname (h ▸ rfl)
            rw [if_neg hname] at nothing
            simp [hempty, hns, hk, hnamed, nothing]
        · by_cases hname : k₀.name = k.name
          · have hk : k₀ = k := key_eq_iff.mpr ⟨hns, hname⟩
            simp [hempty, hk]
          · have hk : k₀ ≠ k := fun h => hname (h ▸ rfl)
            simp [hempty, hns, hname, hk, hnamed]
      · have hk : k₀ ≠ k := fun h => hns (h ▸ rfl)
        by_cases hempty : (named.erase k.name).isEmpty = true <;> simp [hempty, hns, hk]

/-- Removing an entry touches nothing but the entries. -/
theorem exists_remove_eq (s : Store) (k : Key) :
    ∃ entries, s.remove k = { s with entries := entries } := by
  unfold remove
  cases s.entries.find? k.ns with
  | none => exact ⟨s.entries, rfl⟩
  | some named => exact ⟨_, rfl⟩

@[simp] theorem find?_publish (s : Store) (c : Change) (k : Key) :
    (s.publish c).find? k = s.find? k := rfl

@[simp] theorem version_publish (s : Store) (c : Change) :
    (s.publish c).version = s.version + 1 := rfl

@[simp] theorem find?_stop (s : Store) (id : Nat) (k : Key) : (s.stop id).find? k = s.find? k := rfl

@[simp] theorem find?_receive (s : Store) (id : Nat) (k : Key) :
    (s.receive id).2.find? k = s.find? k := rfl

@[simp] theorem find?_teardown (s : Store) (k : Key) : s.teardown.find? k = s.find? k := rfl

@[simp] theorem find?_listen (s : Store) (ns name : String) (k : Key) :
    (s.listen ns name).find? k = s.find? k := rfl

@[simp] theorem find?_unlisten (s : Store) (ns : String) (k : Key) :
    (s.unlisten ns).2.find? k = s.find? k := rfl

theorem get_eq_ok_iff {s : Store} {k : Key} {a : Autoscaler} :
    s.get k = .ok a ↔ ∃ entry, s.find? k = some entry ∧ entry.autoscaler = a := by
  rw [get]
  cases s.find? k <;> simp

theorem getView_eq_ok_iff {s : Store} {k : Key} {v : View} :
    s.getView k = .ok v ↔ ∃ entry, s.find? k = some entry ∧ entry.view = v := by
  rw [getView]
  cases s.find? k <;> simp

/-- An autoscaler is put under its key, with the next version, exactly when it has a view. -/
theorem put_eq_ok_iff {s : Store} {kind : ChangeKind} {a : Autoscaler}
    {notify : Autoscaler → List Notification} {c : Commit} :
    s.put kind a notify = .ok c ↔
      ∃ view, ({ a with version := s.version + 1 } : Autoscaler).view = .ok view ∧
        c = ⟨(s.file a.key ⟨{ a with version := s.version + 1 }, view⟩).publish ⟨kind, view⟩,
          ⟨kind, view⟩, notify { a with version := s.version + 1 }⟩ := by
  constructor
  · intro h
    obtain ⟨view, hview, h⟩ := bind_eq_ok_iff.mp h
    exact ⟨view, hview, (Except.ok.inj h).symm⟩
  · rintro ⟨view, hview, rfl⟩
    exact bind_eq_ok_iff.mpr ⟨view, hview, rfl⟩

theorem delete_eq_ok_iff {s : Store} {k : Key} {c : Commit} :
    s.delete k = .ok c ↔
      ∃ entry, s.find? k = some entry ∧
        c = ⟨(s.remove k).publish
            ⟨.deleted, { entry.view with resourceVersion := s.version + 1 }⟩,
          ⟨.deleted, { entry.view with resourceVersion := s.version + 1 }⟩, []⟩ := by
  rw [delete]
  cases s.find? k with
  | none => simp
  | some entry => simp [eq_comm]

end Store

end Autoscaling

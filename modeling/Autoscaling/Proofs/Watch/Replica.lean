import Autoscaling.Proofs.Store.Table
import Autoscaling.Proofs.Watch.Simulation
import Autoscaling.Store.Replica
import Mathlib.Tactic.Common

/-!
# Replicas and the changes they take in

`Replica.of s scope` is the replica that holds exactly what a store lists in a scope.  A list of a
coherent store makes that replica, and the change of an accepted mutation takes the replica of the
store before it to the replica of the store after it, if it is in the scope.  Hence a replica that
takes in everything that a run publishes in its scope holds what the store lists after the run
(`Store.Coherent.applyAll_published`).
-/

namespace Autoscaling

namespace Replica

/-- The replica that holds exactly what a store lists in a scope. -/
def of (s : Store) (scope : String) : Replica := ⟨s.viewsIn scope⟩

@[simp] theorem list_of (s : Store) (scope : String) : (of s scope).list = s.list scope :=
  (s.list_eq scope).symm

theorem applyAll_append (r : Replica) (first second : List Change) :
    r.applyAll (first ++ second) = (r.applyAll first).applyAll second :=
  List.foldl_append

theorem of_eq_of_entries_eq {s s' : Store} (h : s'.entries = s.entries) (scope : String) :
    of s' scope = of s scope := by
  have hfind (k : Key) : s'.find? k = s.find? k := by rw [Store.find?, Store.find?, h]
  refine congrArg Replica.mk (OrderedMap.eq_of_find?_eq fun k => ?_)
  rw [Store.find?_viewsIn, Store.find?_viewsIn, hfind]

end Replica

namespace Store

theorem ns_of_key_eq {v : View} {k : Key} (h : v.key = k) : v.ns = k.ns := congrArg Key.ns h

/-- The list of a coherent store makes the replica that holds it. -/
theorem Coherent.ofViews_list {s : Store} (coherent : s.Coherent) (scope : String) :
    Replica.ofViews (s.list scope) = Replica.of s scope := by
  have hkeys (k : Key) (v : View) (found : (s.viewsIn scope).find? k = some v) : v.key = k := by
    rw [find?_viewsIn] at found
    split_ifs at found with hscope
    obtain ⟨entry, hentry, rfl⟩ := Option.map_eq_some_iff.mp found
    obtain ⟨hkey, hshown⟩ := coherent k entry hentry
    rw [(Autoscaler.view_eq_ok_iff.mp hshown).2, Autoscaler.key_shown, hkey]
  rw [Replica.ofViews, list_eq, OrderedMap.ofList_values hkeys]
  rfl

/-- The change of a mutation in the scope takes the replica from before to after it. -/
theorem Commits.apply_change {s : Store} {m : Mutation} {c : Commit} (h : s.Commits m c)
    {scope : String} (hscope : covers scope c.change.view.ns = true) :
    (Replica.of s scope).apply c.change = Replica.of c.store scope := by
  have hns : covers scope m.key.ns = true := ns_of_key_eq h.key ▸ hscope
  by_cases hkind : m.kind = .deleted
  · have happly : (Replica.of s scope).apply c.change = ⟨(s.viewsIn scope).erase m.key⟩ := by
      simp only [Replica.apply, h.kind, hkind, h.key]
      rfl
    rw [happly]
    -- replicas are equal when they find the same views
    refine congrArg Replica.mk (OrderedMap.eq_of_find?_eq fun k => ?_)
    rw [OrderedMap.find?_erase, find?_viewsIn, find?_viewsIn]
    by_cases hk : k = m.key
    · subst hk
      simp [(h.deleted hkind).1]
    · rw [if_neg hk, h.elsewhere k hk]
  · have happly : (Replica.of s scope).apply c.change =
        ⟨(s.viewsIn scope).insert m.key c.change.view⟩ := by
      simp only [Replica.apply, h.kind, h.key]
      cases hm : m.kind with
      | deleted => exact absurd hm hkind
      | _ => rfl
    obtain ⟨a, stored, -⟩ := h.written hkind
    rw [happly]
    refine congrArg Replica.mk (OrderedMap.eq_of_find?_eq fun k => ?_)
    rw [OrderedMap.find?_insert, find?_viewsIn, find?_viewsIn]
    by_cases hk : k = m.key
    · subst hk
      simp [hns, stored]
    · rw [if_neg hk, h.elsewhere k hk]

/-- A mutation out of the scope leaves the replica as it is. -/
theorem Commits.of_eq {s : Store} {m : Mutation} {c : Commit} (h : s.Commits m c)
    {scope : String} (hscope : covers scope c.change.view.ns = false) :
    Replica.of c.store scope = Replica.of s scope := by
  have hns : covers scope m.key.ns = false := ns_of_key_eq h.key ▸ hscope
  refine congrArg Replica.mk (OrderedMap.eq_of_find?_eq fun k => ?_)
  rw [find?_viewsIn, find?_viewsIn]
  by_cases hk : k = m.key
  · simp [hk, hns]
  · rw [h.elsewhere k hk]

/-- What an action publishes takes the replica from before to after it. -/
theorem Coherent.applyAll_published? {s : Store} (coherent : s.Coherent) (scope : String)
    (a : Action) :
    (Replica.of s scope).applyAll (s.published? scope a).toList = Replica.of (s.act a) scope := by
  cases h : s.accepted? a with
  | none =>
      rw [Replica.of_eq_of_entries_eq (act_of_not_accepted h).1]
      simp [published?, h, Replica.applyAll]
  | some x =>
      obtain ⟨rfl, -, accepted, hact⟩ := accepted?_eq_some h
      have commits := coherent.commits accepted
      rw [hact]
      by_cases hscope : covers scope x.commit.change.view.ns = true
      · rw [published?_eq_some_iff.mpr ⟨_, _, rfl, accepted, rfl, hscope⟩]
        exact commits.apply_change hscope
      · have hnone : s.published? scope (.mutate x.mutation) = none := by
          simp [published?, h, Accepted.change, Option.filter_some, hscope]
        rw [hnone, commits.of_eq (Bool.eq_false_iff.mpr hscope)]
        rfl

/-- What a run publishes takes the replica from before to after it. -/
theorem Coherent.applyAll_published {s : Store} (coherent : s.Coherent) (scope : String)
    (actions : List Action) :
    (Replica.of s scope).applyAll (s.published scope actions) =
      Replica.of (s.run actions) scope := by
  induction actions generalizing s with
  | nil => rfl
  | cons a rest ih =>
      show (Replica.of s scope).applyAll
        ((s.published? scope a).toList ++ (s.act a).published scope rest) = _
      rw [Replica.applyAll_append, coherent.applyAll_published? scope a]
      exact ih (coherent.act a)

end Store

end Autoscaling

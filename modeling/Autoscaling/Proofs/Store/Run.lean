import Autoscaling.Proofs.Store.Mutation
import Mathlib.Data.List.Induction
import Mathlib.Tactic.Common

/-!
# Runs of a store

A run is a list of actions: mutations, accepted or refused, and whatever else is done with a
store that is in use.  What is to be known of a run is read off it action by action with
`Store.collect`: the log of its accepted mutations, and the receipts of a reader.

Main results:

* `Store.coherent_run` — every store that a run reaches is coherent;
* `Store.Coherent.version_run` — the version counts the accepted mutations;
* `Store.Coherent.stamped_log` — the mutations of a log are stamped with their positions in it.
-/

namespace Autoscaling

/-- Something that is done with a store. -/
inductive Action where
  | mutate (m : Mutation)
  /-- open a watch on a scope, with the list of what is in it or without -/
  | watch (scope : String)
  /-- receive once from a watch, without waiting -/
  | receive (id : Nat)
  | stop (id : Nat)
  | listen (ns name : String)
  | unlisten (ns : String)

/-- An accepted mutation, with the store that accepted it. -/
structure Accepted where
  before : Store
  mutation : Mutation
  commit : Commit

namespace Accepted

/-- What was published. -/
def change (x : Accepted) : Change := x.commit.change

/-- The change of an accepted mutation tells what was done, and under the number `n` it shows the
autoscaler as it was stored, or as it was seen last before it was deleted. -/
structure Stamped (x : Accepted) (n : Nat) : Prop where
  kind : x.change.kind = x.mutation.kind
  version : x.change.view.resourceVersion = UInt64.ofNat n
  written : x.mutation.kind ≠ .deleted →
    x.commit.store.getView x.mutation.key = .ok x.change.view
  deleted : x.mutation.kind = .deleted → ∃ last, x.before.getView x.mutation.key = .ok last ∧
    x.change.view = { last with resourceVersion := UInt64.ofNat n }

end Accepted

/-- A history with one more at its end is split at that one or at an earlier one. -/
theorem concat_eq_append_cons_iff {α : Type} {history earlier later : List α} {last x : α} :
    history ++ [last] = earlier ++ x :: later ↔
      (later = [] ∧ history = earlier ∧ last = x) ∨
        ∃ rest, later = rest ++ [last] ∧ history = earlier ++ x :: rest := by
  constructor
  · intro h
    rcases List.eq_nil_or_concat later with rfl | ⟨rest, y, rfl⟩
    · obtain ⟨rfl, hlast⟩ := List.append_inj' h rfl
      exact .inl ⟨rfl, rfl, List.singleton_inj.mp hlast⟩
    · rw [List.concat_eq_append, ← List.cons_append, ← List.append_assoc] at h
      obtain ⟨rfl, hlast⟩ := List.append_inj' h rfl
      exact .inr ⟨rest, by rw [List.concat_eq_append, hlast], rfl⟩
  · rintro (⟨rfl, rfl, rfl⟩ | ⟨rest, rfl, rfl⟩)
    · rfl
    · rw [List.append_assoc, List.cons_append]

namespace Store

/-! ## Actions and runs -/

/-- The store after an action.  What is refused, and a watch that cannot be opened, leave it as it
was. -/
def act (s : Store) : Action → Store
  | .mutate m =>
      match s.mutate m with
      | .ok c => c.store
      | .error _ => s
  | .watch scope =>
      match s.watch scope with
      | .ok (_, s) => s
      | .error _ => s
  | .receive id => (s.receive id).2
  | .stop id => s.stop id
  | .listen ns name => s.listen ns name
  | .unlisten ns => (s.unlisten ns).2

/-- The store after a list of actions. -/
def run (s : Store) (actions : List Action) : Store := actions.foldl act s

@[simp] theorem run_nil (s : Store) : s.run [] = s := rfl

@[simp] theorem run_cons (s : Store) (a : Action) (rest : List Action) :
    s.run (a :: rest) = (s.act a).run rest := rfl

theorem run_append (s : Store) (first second : List Action) :
    s.run (first ++ second) = (s.run first).run second := List.foldl_append

/-- What there is to be noted of every action of a run, in their order. -/
def collect {α : Type} (note : Store → Action → Option α) (s : Store) : List Action → List α
  | [] => []
  | a :: rest => (note s a).toList ++ collect note (s.act a) rest

theorem collect_append {α : Type} (note : Store → Action → Option α) (s : Store)
    (first second : List Action) :
    s.collect note (first ++ second) =
      s.collect note first ++ (s.run first).collect note second := by
  induction first generalizing s with
  | nil => rfl
  | cons a rest ih => simp [collect, ih]

/-- What is noted of a run is noted of one of its actions, and what was noted before is what was
noted of the actions before it. -/
theorem exists_of_collect_eq {α : Type} {note : Store → Action → Option α} {s : Store}
    {actions : List Action} {before after : List α} {x : α}
    (h : s.collect note actions = before ++ x :: after) :
    ∃ first a second, actions = first ++ a :: second ∧ s.collect note first = before ∧
      note (s.run first) a = some x := by
  induction actions generalizing s before with
  | nil => simp [collect] at h
  | cons a rest ih =>
      cases hnote : note s a with
      | none =>
          simp only [collect, hnote, Option.toList_none, List.nil_append] at h
          obtain ⟨first, b, second, rfl, hfirst, hb⟩ := ih h
          exact ⟨a :: first, b, second, rfl, by simpa [collect, hnote] using hfirst, hb⟩
      | some y =>
          simp only [collect, hnote, Option.toList_some, List.singleton_append] at h
          -- the first note is the one that is looked for, or it is one of those before
          cases before with
          | nil =>
              cases (List.cons.inj h).1
              exact ⟨[], a, rest, rfl, rfl, hnote⟩
          | cons b before =>
              obtain ⟨rfl, hrest⟩ := List.cons.inj h
              obtain ⟨first, b, second, rfl, hfirst, hb⟩ := ih hrest
              exact ⟨a :: first, b, second, rfl, by simp [collect, hnote, hfirst], hb⟩

/-- The mutation of an action, if the store accepts it. -/
def accepted? (s : Store) : Action → Option Accepted
  | .mutate m =>
      match s.mutate m with
      | .ok c => some ⟨s, m, c⟩
      | .error _ => none
  | _ => none

/-- The accepted mutations of a run, in their order. -/
def log (s : Store) (actions : List Action) : List Accepted := s.collect accepted? actions

/-- The answer that an action gives to the reader of a watch. -/
def receipt? (id : Nat) (s : Store) : Action → Option Receipt
  | .receive id₀ => if id₀ = id then some (s.receive id).1 else none
  | _ => none

/-- The answers that the reader of a watch gets in a run. -/
def receipts (s : Store) (id : Nat) (actions : List Action) : List Receipt :=
  s.collect (receipt? id) actions

theorem log_append (s : Store) (first second : List Action) :
    s.log (first ++ second) = s.log first ++ (s.run first).log second :=
  collect_append ..

theorem log_cons_of_not_accepted {s : Store} {a : Action} (h : s.accepted? a = none)
    (rest : List Action) : s.log (a :: rest) = (s.act a).log rest := by
  simp [log, collect, h]

theorem log_cons_of_accepted {s : Store} {a : Action} {x : Accepted} (h : s.accepted? a = some x)
    (rest : List Action) : s.log (a :: rest) = x :: (s.act a).log rest := by
  simp [log, collect, h]

/-! ## Reachable stores -/

theorem accepted?_eq_some {s : Store} {a : Action} {x : Accepted} (h : s.accepted? a = some x) :
    a = .mutate x.mutation ∧ x.before = s ∧ s.mutate x.mutation = .ok x.commit ∧
      s.act a = x.commit.store := by
  cases a with
  | mutate m =>
      simp only [accepted?] at h
      cases hm : s.mutate m with
      | error e => simp [hm] at h
      | ok c =>
          rw [hm] at h
          cases Option.some.inj h
          exact ⟨rfl, rfl, hm, by simp only [act, hm]⟩
  | _ => exact nomatch h

/-- An action that is no accepted mutation leaves the entries and the version as they are. -/
theorem act_of_not_accepted {s : Store} {a : Action} (h : s.accepted? a = none) :
    (s.act a).entries = s.entries ∧ (s.act a).version = s.version := by
  cases a with
  | mutate m =>
      simp only [accepted?] at h
      cases hm : s.mutate m with
      | ok c => simp [hm] at h
      | error e => simp [act, hm]
  | watch scope =>
      simp only [act, Store.watch]
      split_ifs <;> exact ⟨rfl, rfl⟩
  | receive id => exact ⟨rfl, rfl⟩
  | stop id => exact ⟨rfl, rfl⟩
  | listen ns name => exact ⟨rfl, rfl⟩
  | unlisten ns => exact ⟨rfl, rfl⟩

theorem find?_act_of_not_accepted {s : Store} {a : Action} (h : s.accepted? a = none) (k : Key) :
    (s.act a).find? k = s.find? k := by
  rw [find?, find?, (act_of_not_accepted h).1]

theorem coherent_create (tuning : Tuning) (handled : Bool) : (create tuning handled).Coherent := by
  intro k entry found
  exact nomatch found

theorem Coherent.act {s : Store} (coherent : s.Coherent) (a : Action) : (s.act a).Coherent := by
  cases h : s.accepted? a with
  | none =>
      intro k entry found
      rw [find?_act_of_not_accepted h] at found
      exact coherent k entry found
  | some x =>
      obtain ⟨-, -, accepted, hact⟩ := accepted?_eq_some h
      rw [hact]
      exact (coherent.commits accepted).coherent coherent

/-- A mutation touches nothing under other keys. -/
theorem Coherent.stored?_act_of_ne {s : Store} (coherent : s.Coherent) {m : Mutation} {k : Key}
    (hk : k ≠ m.key) : (s.act (.mutate m)).stored? k = s.stored? k := by
  cases hm : s.mutate m with
  | error e => simp only [Store.act, hm]
  | ok c => simp only [Store.act, hm, stored?, (coherent.commits hm).elsewhere k hk]

theorem Coherent.run {s : Store} (coherent : s.Coherent) (actions : List Action) :
    (s.run actions).Coherent := by
  induction actions generalizing s with
  | nil => exact coherent
  | cons a rest ih => exact ih (coherent.act a)

theorem coherent_run (tuning : Tuning) (handled : Bool) (actions : List Action) :
    ((create tuning handled).run actions).Coherent :=
  (coherent_create tuning handled).run actions

theorem Coherent.version_run {s : Store} (coherent : s.Coherent) (actions : List Action) :
    (s.run actions).version = s.version + UInt64.ofNat (s.log actions).length := by
  induction actions generalizing s with
  | nil => simp [log, collect]
  | cons a rest ih =>
      rw [run_cons, ih (coherent.act a)]
      cases h : s.accepted? a with
      | none => rw [log_cons_of_not_accepted h, (act_of_not_accepted h).2]
      | some x =>
          obtain ⟨-, -, accepted, hact⟩ := accepted?_eq_some h
          have hversion : (s.act a).version = s.version + 1 := by
            rw [hact, (coherent.commits accepted).version]
          rw [log_cons_of_accepted h, hversion, List.length_cons, Nat.add_comm, UInt64.ofNat_add,
            ← UInt64.add_assoc]
          rfl

theorem version_run_create (tuning : Tuning) (handled : Bool) (actions : List Action) :
    ((create tuning handled).run actions).version =
      UInt64.ofNat ((create tuning handled).log actions).length :=
  ((coherent_create tuning handled).version_run actions).trans (UInt64.zero_add _)

/-- An accepted mutation is stamped with the number that follows the version. -/
theorem Commits.stamped {s : Store} {m : Mutation} {c : Commit} (h : s.Commits m c) {n : Nat}
    (hn : s.version = UInt64.ofNat n) : (⟨s, m, c⟩ : Accepted).Stamped (n + 1) := by
  have hversion : s.version + 1 = UInt64.ofNat (n + 1) := by
    rw [hn, UInt64.ofNat_add]
    rfl
  refine ⟨h.kind, h.stamp.trans hversion, ?_, ?_⟩
  · intro hkind
    obtain ⟨a, stored, -⟩ := h.written hkind
    exact getView_eq_ok_iff.mpr ⟨_, stored, rfl⟩
  · intro hkind
    obtain ⟨-, entry, found, hview⟩ := h.deleted hkind
    exact ⟨entry.view, getView_eq_ok_iff.mpr ⟨entry, found, rfl⟩, hversion ▸ hview⟩

/-- The mutations of a log are stamped with their positions after the version. -/
theorem Coherent.stamped_log {s : Store} (coherent : s.Coherent) {n : Nat}
    (hn : s.version = UInt64.ofNat n) (actions : List Action) :
    ∀ i (hi : i < (s.log actions).length), (s.log actions)[i].Stamped (n + i + 1) := by
  induction actions generalizing s n with
  | nil => exact fun i hi => nomatch hi
  | cons a rest ih =>
      intro i hi
      cases h : s.accepted? a with
      | none =>
          have hlog := log_cons_of_not_accepted h rest
          simp only [hlog]
          exact ih (coherent.act a) ((act_of_not_accepted h).2.trans hn) i (hlog ▸ hi)
      | some x =>
          have hlog := log_cons_of_accepted h rest
          obtain ⟨-, hbefore, accepted, hact⟩ := accepted?_eq_some h
          have commits := coherent.commits accepted
          simp only [hlog]
          cases i with
          | zero => exact hbefore ▸ commits.stamped hn
          | succ i =>
              -- the rest of the log starts from the next version
              have hnext : (s.act a).version = UInt64.ofNat (n + 1) := by
                rw [hact, commits.version, hn, UInt64.ofNat_add]
                rfl
              have hlt : i < ((s.act a).log rest).length := by
                rw [hlog, List.length_cons] at hi
                omega
              have later := ih (coherent.act a) hnext i hlt
              rw [List.getElem_cons_succ, show n + (i + 1) + 1 = n + 1 + i + 1 by omega]
              exact later

end Store

end Autoscaling

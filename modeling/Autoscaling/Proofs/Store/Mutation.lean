import Autoscaling.Store.Lemmas
import Mathlib.Tactic.Common

/-!
# Mutations

Five requests change what a store holds.  This module names them as data, so that a run can be a
list of them, and says once what each of them does:

* `Mutation.outcome` is the answer to a mutation and what the mutation leaves under its key.  Both
  follow from what was stored under that key alone, and the version has no part in them.
* `Store.Commits` lists everything that an accepted mutation does to a store: it counts it, files
  or removes one entry, and publishes one change.
* `Store.Coherent` is the invariant under which a store keeps to `Mutation.outcome`: every entry is
  filed under the key of its autoscaler, together with the view of it.

Every other property of the store is derived from these, without opening the five requests again.
-/

namespace Autoscaling

/-- A request that changes what is stored, if the store accepts it. -/
inductive Mutation where
  | add (a : Autoscaler)
  | update (a : Autoscaler)
  | updateSpec (spec : Spec)
  | delete (k : Key)
  /-- write the status of a view back through the sink of a namespace -/
  | updateStatus (sink : String) (v : View)

namespace Mutation

/-- The key that a mutation is about. -/
def key : Mutation → Key
  | add a => a.key
  | update a => a.key
  | updateSpec spec => spec.key
  | delete k => k
  | updateStatus sink v => ⟨sink, v.name⟩

/-- As what an accepted mutation is published. -/
def kind : Mutation → ChangeKind
  | add _ => .added
  | update _ => .modified
  | updateSpec _ => .modified
  | delete _ => .deleted
  | updateStatus _ _ => .modified

end Mutation

/-! ## Specifications that can be shown -/

/-- A specification that can be shown to the engine. -/
structure Spec.Valid (s : Spec) : Prop where
  name : s.name ≠ ""
  ns : s.ns ≠ ""
  metrics : s.metrics ≠ []

/-- Why a specification cannot be shown to the engine, if it cannot. -/
def Spec.refusal? (s : Spec) : Option StateError :=
  match (Autoscaler.declared s).view with
  | .ok _ => none
  | .error e => some e

/-- An autoscaler as the engine sees it, apart from whether it may be shown. -/
def Autoscaler.shown (a : Autoscaler) : View :=
  ⟨a.spec.name, a.spec.ns, a.version, View.Spec.of a.spec, View.Status.of a.status⟩

@[simp] theorem Autoscaler.key_shown (a : Autoscaler) : a.shown.key = a.key := rfl

@[simp] theorem Autoscaler.resourceVersion_shown (a : Autoscaler) :
    a.shown.resourceVersion = a.version := rfl

/-- A specification has a name, a namespace and a metric, and then every autoscaler of it is shown,
or it lacks one of them, and then every autoscaler of it is refused as invalid, in the same
words. -/
theorem Spec.shown_or_refused (s : Spec) :
    (s.Valid ∧ ∀ a : Autoscaler, a.spec = s → a.view = .ok a.shown) ∨
      (¬ s.Valid ∧ ∃ what, ∀ a : Autoscaler, a.spec = s → a.view = .error (.invalid what)) := by
  by_cases hname : s.name = ""
  · refine .inr ⟨fun valid => valid.name hname, "name is required", ?_⟩
    rintro a rfl
    rw [Autoscaler.view, if_pos (String.isEmpty_iff.mpr hname)]
  by_cases hns : s.ns = ""
  · refine .inr ⟨fun valid => valid.ns hns, "namespace is required for " ++ s.name, ?_⟩
    rintro a rfl
    rw [Autoscaler.view, if_neg (mt String.isEmpty_iff.mp hname),
      if_pos (String.isEmpty_iff.mpr hns)]
  by_cases hmetrics : s.metrics = []
  · refine .inr ⟨fun valid => valid.metrics hmetrics, "no metrics for " ++ s.key.text, ?_⟩
    rintro a rfl
    rw [Autoscaler.view, if_neg (mt String.isEmpty_iff.mp hname),
      if_neg (mt String.isEmpty_iff.mp hns), if_pos (List.isEmpty_iff.mpr hmetrics)]
    rfl
  · refine .inl ⟨⟨hname, hns, hmetrics⟩, ?_⟩
    rintro a rfl
    rw [Autoscaler.view, if_neg (mt String.isEmpty_iff.mp hname),
      if_neg (mt String.isEmpty_iff.mp hns), if_neg (mt List.isEmpty_iff.mp hmetrics)]
    rfl

theorem Autoscaler.view_eq (a : Autoscaler) :
    a.view = match a.spec.refusal? with
      | some e => .error e
      | none => .ok a.shown := by
  unfold Spec.refusal?
  rcases a.spec.shown_or_refused with ⟨-, h⟩ | ⟨-, what, h⟩
  · rw [h a rfl, h (declared a.spec) rfl]
  · rw [h a rfl, h (declared a.spec) rfl]

theorem Spec.refusal?_eq_none_iff {s : Spec} : s.refusal? = none ↔ s.Valid := by
  unfold refusal?
  rcases s.shown_or_refused with ⟨valid, h⟩ | ⟨invalid, what, h⟩
  · simp [h (Autoscaler.declared s) rfl, valid]
  · simp [h (Autoscaler.declared s) rfl, invalid]

theorem Spec.refusal?_invalid {s : Spec} {e : StateError} (he : s.refusal? = some e) :
    ∃ what, e = .invalid what := by
  unfold refusal? at he
  rcases s.shown_or_refused with ⟨-, h⟩ | ⟨-, what, h⟩
  · simp [h (Autoscaler.declared s) rfl] at he
  · rw [h (Autoscaler.declared s) rfl] at he
    exact ⟨what, (Option.some.inj he).symm⟩

theorem Autoscaler.view_eq_ok_iff {a : Autoscaler} {v : View} :
    a.view = .ok v ↔ a.spec.Valid ∧ v = a.shown := by
  rw [view_eq, ← Spec.refusal?_eq_none_iff]
  cases a.spec.refusal? <;> simp [eq_comm]

/-! ## Outcomes -/

/-- What comes of a specification and a status that are to be stored: both, unless the
specification is refused. -/
def Spec.checked (spec : Spec) (status : Status) : Except StateError (Option (Spec × Status)) :=
  match spec.refusal? with
  | some e => .error e
  | none => .ok (some (spec, status))

theorem Spec.checked_eq_ok_iff {spec : Spec} {status : Status} {content : Option (Spec × Status)} :
    spec.checked status = .ok content ↔ spec.Valid ∧ content = some (spec, status) := by
  rw [checked, ← refusal?_eq_none_iff]
  cases spec.refusal? <;> simp [eq_comm]

theorem Spec.checked_eq_error_iff {spec : Spec} {status : Status} {e : StateError} :
    spec.checked status = .error e ↔ spec.refusal? = some e := by
  rw [checked]
  cases spec.refusal? <;> simp

theorem Spec.exists_checked_eq {spec : Spec} (invalid : ¬ spec.Valid) :
    ∃ what, spec.refusal? = some (.invalid what) ∧
      ∀ status, spec.checked status = .error (.invalid what) := by
  cases h : spec.refusal? with
  | none => exact absurd (refusal?_eq_none_iff.mp h) invalid
  | some e =>
      obtain ⟨what, rfl⟩ := refusal?_invalid h
      exact ⟨what, rfl, fun _ => checked_eq_error_iff.mpr h⟩

/-- The answer to a mutation and what an accepted one leaves under its key: a specification and a
status, or nothing.  Both follow from `old`, which is what was stored there. -/
def Mutation.outcome (old : Option Autoscaler) :
    Mutation → Except StateError (Option (Spec × Status))
  | add a =>
      match old with
      | some _ => .error (.alreadyExists a.key.text)
      | none => a.spec.checked a.status
  | update a =>
      match old with
      | some _ => a.spec.checked a.status
      | none => .error (Store.notFound a.key)
  | updateSpec spec =>
      match old with
      | some b => spec.checked b.status
      | none => .error (Store.notFound spec.key)
  | delete k =>
      match old with
      | some _ => .ok none
      | none => .error (Store.notFound k)
  | updateStatus sink v =>
      if v.ns ≠ sink then .error (Store.foreign sink v)
      else match v.status.toStatus with
        | .error e => .error e
        | .ok status =>
            match old with
            | some b => .ok (some (b.spec, status))
            | none => .error (Store.notFound ⟨sink, v.name⟩)

namespace ChangeKind

/-- Whether the autoscaler is live before a change of this kind. -/
def needsLive : ChangeKind → Bool
  | added => false
  | modified => true
  | deleted => true

/-- Whether the autoscaler is live after a change of this kind. -/
def leavesLive : ChangeKind → Bool
  | added => true
  | modified => true
  | deleted => false

theorem needsLive_eq_false_iff {kind : ChangeKind} : kind.needsLive = false ↔ kind = added := by
  cases kind <;> decide

end ChangeKind

/-- An accepted mutation finds and leaves the autoscaler as its kind says. -/
theorem Mutation.isSome_of_outcome {old : Option Autoscaler} {m : Mutation}
    {content : Option (Spec × Status)} (h : m.outcome old = .ok content) :
    old.isSome = m.kind.needsLive ∧ content.isSome = m.kind.leavesLive := by
  cases m with
  | add a =>
      cases old with
      | some b => exact nomatch h
      | none =>
          obtain ⟨-, rfl⟩ := Spec.checked_eq_ok_iff.mp h
          exact ⟨rfl, rfl⟩
  | update a =>
      cases old with
      | none => exact nomatch h
      | some b =>
          obtain ⟨-, rfl⟩ := Spec.checked_eq_ok_iff.mp h
          exact ⟨rfl, rfl⟩
  | updateSpec spec =>
      cases old with
      | none => exact nomatch h
      | some b =>
          obtain ⟨-, rfl⟩ := Spec.checked_eq_ok_iff.mp h
          exact ⟨rfl, rfl⟩
  | delete k =>
      cases old with
      | none => exact nomatch h
      | some b =>
          cases h
          exact ⟨rfl, rfl⟩
  | updateStatus sink v =>
      simp only [outcome] at h
      split_ifs at h with hns
      cases hstatus : v.status.toStatus with
      | error e => simp [hstatus] at h
      | ok status =>
          cases old with
          | none => simp [hstatus] at h
          | some b =>
              simp only [hstatus, Except.ok.injEq] at h
              subst h
              exact ⟨rfl, rfl⟩

/-- All of an autoscaler but its version. -/
def Autoscaler.content (a : Autoscaler) : Spec × Status := (a.spec, a.status)

namespace Store

/-- The autoscaler that is stored under a key. -/
def stored? (s : Store) (k : Key) : Option Autoscaler := (s.find? k).map Entry.autoscaler

/-- Something is stored under the key. -/
def Live (s : Store) (k : Key) : Prop := ∃ a, s.get k = .ok a

/-- Make a mutation. -/
def mutate (s : Store) : Mutation → Except StateError Commit
  | .add a => s.add a
  | .update a => s.update a
  | .updateSpec spec => s.updateSpec spec
  | .delete k => s.delete k
  | .updateStatus sink v => s.updateStatus sink v

/-- Every entry is filed under the key of its autoscaler, together with the view of it. -/
def Coherent (s : Store) : Prop :=
  ∀ k entry, s.find? k = some entry →
    entry.autoscaler.key = k ∧ entry.autoscaler.view = .ok entry.view

/-- Everything that an accepted mutation does. -/
structure Commits (s : Store) (m : Mutation) (c : Commit) : Prop where
  /-- it is counted -/
  version : c.store.version = s.version + 1
  /-- its change is published -/
  hub : c.store.hub = s.hub.publish c.change
  listeners : c.store.listeners = s.listeners
  handled : c.store.handled = s.handled
  /-- nothing is touched under other keys -/
  elsewhere : ∀ k, k ≠ m.key → c.store.find? k = s.find? k
  outcome : m.outcome (s.stored? m.key) = .ok ((c.store.stored? m.key).map Autoscaler.content)
  kind : c.change.kind = m.kind
  key : c.change.view.key = m.key
  stamp : c.change.view.resourceVersion = s.version + 1
  /-- what is stored is stored with the version of the mutation, and published as it is seen -/
  written : m.kind ≠ .deleted → ∃ a, c.store.find? m.key = some ⟨a, c.change.view⟩ ∧
    a.key = m.key ∧ a.view = .ok c.change.view ∧ a.version = s.version + 1
  /-- what is deleted is published as it was seen last, with the version of the mutation -/
  deleted : m.kind = .deleted → c.store.find? m.key = none ∧ ∃ entry, s.find? m.key = some entry ∧
    c.change.view = { entry.view with resourceVersion := s.version + 1 }

theorem stored?_eq_some_iff {s : Store} {k : Key} {a : Autoscaler} :
    s.stored? k = some a ↔ s.get k = .ok a := by
  rw [stored?, Option.map_eq_some_iff, get_eq_ok_iff]

/-- What is answered about a key is what is stored there. -/
theorem get_eq (s : Store) (k : Key) :
    s.get k = match s.stored? k with
      | some a => .ok a
      | none => .error (notFound k) := by
  rw [get, stored?]
  cases s.find? k <;> rfl

theorem map_get_eq {α : Type} (f : Autoscaler → α) (s : Store) (k : Key) :
    (s.get k).map f = match (s.stored? k).map f with
      | some x => .ok x
      | none => .error (notFound k) := by
  rw [get_eq]
  cases s.stored? k <;> rfl

theorem live_iff {s : Store} {k : Key} : s.Live k ↔ ∃ a, s.stored? k = some a :=
  exists_congr fun _ => stored?_eq_some_iff.symm

theorem not_live_iff {s : Store} {k : Key} : ¬ s.Live k ↔ s.stored? k = none := by
  rw [live_iff, not_exists, Option.eq_none_iff_forall_ne_some]

theorem put_eq_error_iff {s : Store} {kind : ChangeKind} {a : Autoscaler}
    {notify : Autoscaler → List Notification} {e : StateError} :
    s.put kind a notify = .error e ↔ a.spec.refusal? = some e := by
  have hview := Autoscaler.view_eq { a with version := s.version + 1 }
  show ({ a with version := s.version + 1 } : Autoscaler).view.bind _ = _ ↔ _
  rw [hview]
  cases a.spec.refusal? <;> simp [Except.bind]

/-- Putting an autoscaler is all that a mutation other than a deletion does. -/
theorem commits_of_put {s : Store} {m : Mutation} {a : Autoscaler}
    {notify : Autoscaler → List Notification} {c : Commit} (h : s.put m.kind a notify = .ok c)
    (hkind : m.kind ≠ .deleted) (hkey : a.key = m.key)
    (houtcome : m.outcome (s.stored? m.key) = a.spec.checked a.status) : s.Commits m c := by
  obtain ⟨view, hview, rfl⟩ := put_eq_ok_iff.mp h
  obtain ⟨valid, rfl⟩ := Autoscaler.view_eq_ok_iff.mp hview
  have filed := find?_file s a.key m.key
    ⟨{ a with version := s.version + 1 }, ({ a with version := s.version + 1 } : Autoscaler).shown⟩
  rw [if_pos hkey.symm] at filed
  -- counting, publishing and the listeners can be read off `put`
  refine ⟨rfl, rfl, rfl, rfl, ?_, ?_, rfl, hkey, rfl, ?_, fun h => absurd h hkind⟩
  · intro k hk
    rw [find?_publish, find?_file, if_neg (hkey ▸ hk)]
  · rw [houtcome, Spec.checked_eq_ok_iff]
    refine ⟨valid, ?_⟩
    rw [stored?, find?_publish, filed]
    rfl
  · intro _
    exact ⟨_, filed, hkey, hview, rfl⟩

theorem updateStatus_eq (s : Store) (sink : String) (v : View) :
    s.updateStatus sink v =
      if v.ns ≠ sink then .error (foreign sink v)
      else match v.status.toStatus with
        | .error e => .error e
        | .ok status => s.mergeStatus ⟨sink, v.name⟩ status := by
  unfold updateStatus
  split
  · rfl
  · cases v.status.toStatus <;> rfl

theorem Coherent.valid {s : Store} (coherent : s.Coherent) {k : Key} {entry : Entry}
    (found : s.find? k = some entry) : entry.autoscaler.spec.Valid :=
  (Autoscaler.view_eq_ok_iff.mp (coherent k entry found).2).1

/-- A key that something is stored under has a namespace and a name. -/
theorem key_of_live {s : Store} (coherent : s.Coherent) {k : Key} (live : s.Live k) :
    k.name ≠ "" ∧ k.ns ≠ "" := by
  obtain ⟨a, stored⟩ := live
  obtain ⟨entry, found, -⟩ := get_eq_ok_iff.mp stored
  have valid := coherent.valid found
  obtain ⟨rfl, -⟩ := coherent k entry found
  exact ⟨valid.name, valid.ns⟩

/-- Those who are told of what a mutation stores. -/
def toTell (s : Store) : Mutation → Autoscaler → List Notification
  | .updateStatus sink _ => s.audience sink
  | _ => nobody

/-- A mutation other than a deletion puts an autoscaler into the store.  In a coherent store the
autoscaler is the one of the key and has the outcome of the mutation. -/
theorem exists_put_of_mutate {s : Store} {m : Mutation} {c : Commit} (h : s.mutate m = .ok c)
    (hkind : m.kind ≠ .deleted) :
    ∃ a, s.put m.kind a (s.toTell m) = .ok c ∧
      (s.Coherent → a.key = m.key ∧ m.outcome (s.stored? m.key) = a.spec.checked a.status) := by
  cases m with
  | add a =>
      simp only [mutate, add] at h
      cases found : s.find? a.key with
      | some entry => simp [found] at h
      | none =>
          rw [found] at h
          refine ⟨a, h, fun _ => ⟨rfl, ?_⟩⟩
          simp [Mutation.outcome, Mutation.key, stored?, found]
  | update a =>
      simp only [mutate, update] at h
      cases found : s.find? a.key with
      | none => simp [found] at h
      | some entry =>
          rw [found] at h
          refine ⟨a, h, fun _ => ⟨rfl, ?_⟩⟩
          simp [Mutation.outcome, Mutation.key, stored?, found]
  | updateSpec spec =>
      simp only [mutate, updateSpec] at h
      cases found : s.find? spec.key with
      | none => simp [found] at h
      | some entry =>
          rw [found] at h
          refine ⟨_, h, fun _ => ⟨rfl, ?_⟩⟩
          simp [Mutation.outcome, Mutation.key, stored?, found]
  | delete k => exact absurd rfl hkind
  | updateStatus sink v =>
      simp only [mutate, updateStatus_eq] at h
      split_ifs at h with hns
      cases hstatus : v.status.toStatus with
      | error e => simp [hstatus] at h
      | ok status =>
          simp only [hstatus, mergeStatus] at h
          cases found : s.find? ⟨sink, v.name⟩ with
          | none => simp [found] at h
          | some entry =>
              rw [found] at h
              -- the entry is filed under its own key, and its specification was accepted before
              refine ⟨_, h, fun coherent => ⟨(coherent _ _ found).1, ?_⟩⟩
              have hvalid := Spec.refusal?_eq_none_iff.mpr (coherent.valid found)
              simp [Mutation.outcome, Mutation.key, stored?, found, hns, hstatus, Spec.checked,
                hvalid]

/-- An accepted mutation does what `Commits` lists. -/
theorem Coherent.commits {s : Store} (coherent : s.Coherent) {m : Mutation} {c : Commit}
    (h : s.mutate m = .ok c) : s.Commits m c := by
  by_cases hkind : m.kind = .deleted
  · cases m with
    | delete k =>
        obtain ⟨entry, found, rfl⟩ := delete_eq_ok_iff.mp h
        obtain ⟨entries, hremove⟩ := s.exists_remove_eq k
        have gone : (s.remove k).find? k = none := by rw [find?_remove, if_pos rfl]
        have hkey : entry.view.key = k := by
          obtain ⟨hkey, hview⟩ := coherent k entry found
          rw [(Autoscaler.view_eq_ok_iff.mp hview).2, Autoscaler.key_shown, hkey]
        refine
          { version := by simp [hremove]
            hub := by simp [hremove, publish]
            listeners := by simp [hremove, publish]
            handled := by simp [hremove, publish]
            elsewhere := ?_
            outcome := ?_
            kind := rfl
            key := hkey
            stamp := rfl
            written := fun h => absurd rfl h
            deleted := fun _ => ⟨gone, entry, found, rfl⟩ }
        · intro k₀ hk
          rw [find?_publish, find?_remove, if_neg (show k₀ ≠ k from hk)]
        · simp [Mutation.outcome, Mutation.key, stored?, found, gone]
    | _ => exact nomatch hkind
  · obtain ⟨a, hput, hstored⟩ := exists_put_of_mutate h hkind
    obtain ⟨hkey, houtcome⟩ := hstored coherent
    exact commits_of_put hput hkind hkey houtcome

/-- A mutation of a coherent store is refused as its outcome says. -/
theorem Coherent.mutate_eq_error_iff {s : Store} (coherent : s.Coherent) {m : Mutation}
    {e : StateError} : s.mutate m = .error e ↔ m.outcome (s.stored? m.key) = .error e := by
  cases m with
  | add a =>
      cases found : s.find? a.key with
      | some entry => simp [mutate, add, Mutation.outcome, Mutation.key, stored?, found]
      | none =>
          simp [mutate, add, Mutation.outcome, Mutation.key, stored?, found, put_eq_error_iff,
            Spec.checked_eq_error_iff]
  | update a =>
      cases found : s.find? a.key with
      | none => simp [mutate, update, Mutation.outcome, Mutation.key, stored?, found]
      | some entry =>
          simp [mutate, update, Mutation.outcome, Mutation.key, stored?, found, put_eq_error_iff,
            Spec.checked_eq_error_iff]
  | updateSpec spec =>
      cases found : s.find? spec.key with
      | none => simp [mutate, updateSpec, Mutation.outcome, Mutation.key, stored?, found]
      | some entry =>
          simp [mutate, updateSpec, Mutation.outcome, Mutation.key, stored?, found,
            put_eq_error_iff, Spec.checked_eq_error_iff]
  | delete k =>
      cases found : s.find? k <;>
        simp [mutate, delete, Mutation.outcome, Mutation.key, stored?, found]
  | updateStatus sink v =>
      simp only [mutate, updateStatus_eq, Mutation.outcome]
      by_cases hns : v.ns ≠ sink
      · simp [hns]
      · rw [if_neg hns, if_neg hns]
        cases v.status.toStatus with
        | error _ => simp
        | ok status =>
            cases found : s.find? ⟨sink, v.name⟩ with
            | none => simp [mergeStatus, Mutation.key, stored?, found]
            | some entry =>
                have hvalid := Spec.refusal?_eq_none_iff.mpr (coherent.valid found)
                simp [mergeStatus, Mutation.key, stored?, found, put_eq_error_iff, hvalid]

/-- A mutation of a coherent store is refused as its outcome says, or it commits. -/
theorem Coherent.mutate_cases {s : Store} (coherent : s.Coherent) (m : Mutation) :
    (∃ e, s.mutate m = .error e ∧ m.outcome (s.stored? m.key) = .error e) ∨
      ∃ c, s.mutate m = .ok c ∧ s.Commits m c := by
  cases hm : s.mutate m with
  | error e => exact .inl ⟨e, rfl, coherent.mutate_eq_error_iff.mp hm⟩
  | ok c => exact .inr ⟨c, rfl, coherent.commits hm⟩

/-- An accepted mutation files one entry or removes one. -/
theorem entries_of_mutate {s : Store} {m : Mutation} {c : Commit} (h : s.mutate m = .ok c) :
    (∃ k entry, c.store.entries = (s.file k entry).entries) ∨
      ∃ k, c.store.entries = (s.remove k).entries := by
  by_cases hkind : m.kind = .deleted
  · cases m with
    | delete k =>
        obtain ⟨entry, -, rfl⟩ := delete_eq_ok_iff.mp h
        exact .inr ⟨k, rfl⟩
    | _ => exact nomatch hkind
  · obtain ⟨a, hput, -⟩ := exists_put_of_mutate h hkind
    obtain ⟨view, -, rfl⟩ := put_eq_ok_iff.mp hput
    exact .inl ⟨a.key, ⟨{ a with version := s.version + 1 }, view⟩, rfl⟩

/-- Accepted mutations keep the store coherent. -/
theorem Commits.coherent {s : Store} {m : Mutation} {c : Commit} (h : s.Commits m c)
    (coherent : s.Coherent) : c.store.Coherent := by
  intro k entry found
  by_cases hk : k = m.key
  · subst hk
    by_cases hkind : m.kind = .deleted
    · rw [(h.deleted hkind).1] at found
      exact nomatch found
    · obtain ⟨a, stored, hkey, hview, -⟩ := h.written hkind
      rw [stored] at found
      cases Option.some.inj found
      exact ⟨hkey, hview⟩
  · rw [h.elsewhere k hk] at found
    exact coherent k entry found

theorem Commits.isSome_stored? {s : Store} {m : Mutation} {c : Commit} (h : s.Commits m c) :
    (s.stored? m.key).isSome = m.kind.needsLive ∧
      (c.store.stored? m.key).isSome = m.kind.leavesLive := by
  have outcome := Mutation.isSome_of_outcome h.outcome
  rwa [Option.isSome_map] at outcome

/-- What an accepted mutation stores is known from its outcome. -/
theorem Commits.find?_of_outcome {s : Store} {m : Mutation} {c : Commit} (h : s.Commits m c)
    {spec : Spec} {status : Status}
    (houtcome : m.outcome (s.stored? m.key) = .ok (some (spec, status))) :
    c.store.find? m.key = some ⟨⟨spec, status, s.version + 1⟩, c.change.view⟩ ∧
      (⟨spec, status, s.version + 1⟩ : Autoscaler).view = .ok c.change.view := by
  have hcontent := Except.ok.inj (h.outcome.symm.trans houtcome)
  have hkind : m.kind ≠ .deleted := by
    intro hkind
    rw [stored?, (h.deleted hkind).1] at hcontent
    exact nomatch hcontent
  obtain ⟨a, hfind, -, hview, hversion⟩ := h.written hkind
  rw [stored?, hfind] at hcontent
  obtain ⟨rfl, rfl⟩ := Prod.mk.inj (Option.some.inj hcontent)
  rw [← hversion]
  exact ⟨hfind, hview⟩

/-- An accepted status replaces the status that is stored, and nothing else. -/
theorem Commits.content_updateStatus {s : Store} {sink : String} {v : View} {c : Commit}
    (h : s.Commits (.updateStatus sink v) c) :
    ∃ b status, v.status.toStatus = .ok status ∧ s.stored? ⟨sink, v.name⟩ = some b ∧
      (c.store.stored? ⟨sink, v.name⟩).map Autoscaler.content = some (b.spec, status) := by
  have outcome := h.outcome
  simp only [Mutation.outcome, Mutation.key] at outcome
  split_ifs at outcome with hns
  cases hstatus : v.status.toStatus with
  | error e => simp [hstatus] at outcome
  | ok status =>
      cases hstored : s.stored? ⟨sink, v.name⟩ with
      | none => simp [hstatus, hstored] at outcome
      | some b =>
          simp only [hstatus, hstored, Except.ok.injEq] at outcome
          exact ⟨b, status, rfl, rfl, outcome.symm⟩

end Store

end Autoscaling

import Autoscaling.Proofs.Reconcile.Convergence
import Autoscaling.Proofs.Store.LastWriter
import Mathlib.Tactic.Common

/-!
# Reconciling while statuses are written

A pass makes its plan from a snapshot and then takes the steps call by call.  Between any two calls
others may write statuses, so the plan is older than the store that it is carried out on.  A
`SharedStore` is a store with all of these writes laid out: a batch right after the snapshot and one
after every call.  It is a `Keeper` like the store, and the pass over it is the same pass.

`Store.reconcile_raced` says that the writes do not disturb the pass and that the pass does not
undo the writes.  The first half is a simulation: a written status leaves every specification as it
is (`SameSpecs`), and no answer to a step depends on anything else.  The second half follows the
accepted mutations of the run and what they leave as the status of one key.
-/

namespace Autoscaling

/-- A status that someone writes back through the sink of a namespace. -/
structure StatusWrite where
  sink : String
  view : View

def StatusWrite.action (w : StatusWrite) : Action := .mutate (.updateStatus w.sink w.view)

/-- A store that others write statuses to.  The next batch of their writes is made after the next
call. -/
structure SharedStore where
  store : Store
  batches : List (List StatusWrite)

namespace SharedStore

/-- The others make their next batch of writes, of which any may be refused. -/
def disturb (r : SharedStore) : SharedStore :=
  ⟨r.store.run ((r.batches.headD []).map StatusWrite.action), r.batches.tail⟩

/-- A call to the store, and what others write after it. -/
def call (operation : Operation Store StateError Unit) :
    Operation SharedStore StateError Unit := fun r =>
  let (outcome, s) := operation r.store
  (outcome, disturb ⟨s, r.batches⟩)

def keeper : Keeper SharedStore where
  autoscalers r := (r.store.autoscalers, r.disturb)
  add a := call (Store.keeper.add a)
  updateSpec spec := call (Store.keeper.updateSpec spec)
  delete k := call (Store.keeper.delete k)

/-- The calls that take some steps, each followed by the next batch of writes. -/
def interleave : List Step → List (List StatusWrite) → List Action
  | [], _ => []
  | step :: rest, batches =>
      .mutate step.mutation ::
        ((batches.headD []).map StatusWrite.action ++ interleave rest batches.tail)

theorem take_eq (step : Step) : keeper.take step = call (Store.keeper.take step) := by
  cases step <;> rfl

end SharedStore

namespace Store

theorem settle_snd (s : Store) (m : Mutation) : (s.settle (s.mutate m)).2 = s.act (.mutate m) := by
  simp only [act]
  cases s.mutate m <;> rfl

/-! ## What a written status does -/

/-- The stores hold the same specifications under the same keys. -/
def SameSpecs (s t : Store) : Prop :=
  ∀ k, (t.stored? k).map Autoscaler.spec = (s.stored? k).map Autoscaler.spec

theorem SameSpecs.map_get {s t : Store} (same : s.SameSpecs t) (k : Key) :
    (t.get k).map Autoscaler.spec = (s.get k).map Autoscaler.spec := by
  rw [map_get_eq, map_get_eq, same k]

/-- A written status leaves every specification as it is. -/
theorem SameSpecs.act_write {s t : Store} (same : s.SameSpecs t) (coherent : t.Coherent)
    (w : StatusWrite) : s.SameSpecs (t.act w.action) := by
  intro k
  rw [← same k]
  cases hm : t.mutate (.updateStatus w.sink w.view) with
  | error e => simp only [StatusWrite.action, act, hm]
  | ok c =>
      have commits := coherent.commits hm
      simp only [StatusWrite.action, act, hm]
      by_cases hk : k = ⟨w.sink, w.view.name⟩
      · subst hk
        obtain ⟨b, status, -, hstored, hcontent⟩ := commits.content_updateStatus
        obtain ⟨a, hstored₀, hcontent⟩ := Option.map_eq_some_iff.mp hcontent
        rw [hstored, hstored₀]
        exact congrArg some (Prod.mk.inj hcontent).1
      · rw [stored?, stored?, commits.elsewhere k hk]

theorem SameSpecs.run_writes {s t : Store} (same : s.SameSpecs t) (coherent : t.Coherent)
    (writes : List StatusWrite) : s.SameSpecs (t.run (writes.map StatusWrite.action)) := by
  induction writes generalizing t with
  | nil => exact same
  | cons w rest ih => exact ih (same.act_write coherent w) (coherent.act _)

/-! ## What a step does -/

/-- Whether a step fails, and which specification it leaves, depends on the stored specification
alone. -/
theorem outcome_step_congr {step : Step} {old new : Option Autoscaler}
    (h : new.map Autoscaler.spec = old.map Autoscaler.spec) :
    (step.mutation.outcome new).map (Option.map Prod.fst) =
      (step.mutation.outcome old).map (Option.map Prod.fst) := by
  have hchecked (spec : Spec) (status status₀ : Status) :
      (spec.checked status).map (Option.map Prod.fst) =
        (spec.checked status₀).map (Option.map Prod.fst) := by
    unfold Spec.checked
    cases spec.refusal? <;> rfl
  cases old with
  | none =>
      cases new with
      | none => rfl
      | some a => exact nomatch h
  | some a =>
      cases new with
      | none => exact nomatch h
      | some b =>
          cases step with
          | delete k => rfl
          | update spec => exact hchecked spec b.status a.status
          | add spec => rfl

/-- On stores with the same specifications a step has the same answer, and leaves stores with the
same specifications. -/
theorem SameSpecs.act_step {s t : Store} (same : s.SameSpecs t) (hs : s.Coherent) (ht : t.Coherent)
    (step : Step) :
    (t.settle (t.mutate step.mutation)).1 = (s.settle (s.mutate step.mutation)).1 ∧
      (s.act (.mutate step.mutation)).SameSpecs (t.act (.mutate step.mutation)) := by
  have houtcome : (t.finds step).map (Option.map Prod.fst) =
      (s.finds step).map (Option.map Prod.fst) := outcome_step_congr (same step.key)
  have hspec (u : Store) : ((u.stored? step.key).map Autoscaler.content).map Prod.fst =
      (u.stored? step.key).map Autoscaler.spec := by
    rw [Option.map_map]
    rfl
  have helsewhere (k : Key) (hk : k ≠ step.key) :
      ((t.act (.mutate step.mutation)).stored? k).map Autoscaler.spec =
        ((s.act (.mutate step.mutation)).stored? k).map Autoscaler.spec := by
    rw [← Step.key_mutation] at hk
    rw [hs.stored?_act_of_ne hk, ht.stored?_act_of_ne hk, same k]
  rcases hs.mutate_step step with ⟨e, hm, hfinds⟩ | ⟨c, hm, hfinds⟩
  · rcases ht.mutate_step step with ⟨e₀, hm₀, hfinds₀⟩ | ⟨c₀, hm₀, hfinds₀⟩
    · rw [hfinds, hfinds₀] at houtcome
      cases houtcome
      simp only [hm, hm₀, settle, act]
      exact ⟨trivial, same⟩
    · rw [hfinds, hfinds₀] at houtcome
      cases houtcome
  · rcases ht.mutate_step step with ⟨e₀, hm₀, hfinds₀⟩ | ⟨c₀, hm₀, hfinds₀⟩
    · rw [hfinds, hfinds₀] at houtcome
      cases houtcome
    · refine ⟨by simp only [hm, hm₀, settle], fun k => ?_⟩
      by_cases hk : k = step.key
      · subst hk
        rw [hfinds, hfinds₀] at houtcome
        have hleft := Except.ok.inj houtcome
        rw [hspec, hspec] at hleft
        simp only [act, hm, hm₀]
        exact hleft
      · exact helsewhere k hk

end Store

/-! ## A pass with writes between its calls -/

namespace SharedStore

/-- A step that is taken on a shared store is answered by the store, which is then written to. -/
theorem take_keeper_eq (step : Step) (r : SharedStore) :
    keeper.take step r =
      ((r.store.settle (r.store.mutate step.mutation)).1,
        disturb ⟨r.store.act (.mutate step.mutation), r.batches⟩) := by
  rw [take_eq, ← Store.settle_snd, ← Store.take_eq]
  rfl

/-- Taking the steps on a shared store is a run of the store. -/
theorem store_takeAll (steps : List Step) (r : SharedStore) :
    (keeper.takeAll steps r).2.store = r.store.run (interleave steps r.batches) := by
  induction steps generalizing r with
  | nil => rfl
  | cons step rest ih =>
      rw [Keeper.takeAll_cons, ih, take_keeper_eq, interleave, Store.run_cons, Store.run_append]
      rfl

/-- The steps have the same answers with and without the writes of others, and leave the same
specifications. -/
theorem takeAll_simulates {s : Store} {r : SharedStore} (same : s.SameSpecs r.store)
    (hs : s.Coherent) (hr : r.store.Coherent) (steps : List Step) :
    (keeper.takeAll steps r).1 = (Store.keeper.takeAll steps s).1 ∧
      (Store.keeper.takeAll steps s).2.SameSpecs (keeper.takeAll steps r).2.store := by
  induction steps generalizing s r with
  | nil => exact ⟨rfl, same⟩
  | cons step rest ih =>
      obtain ⟨hanswer, hleft⟩ := same.act_step hs hr step
      have hwritten := hleft.run_writes (hr.act (.mutate step.mutation)) (r.batches.headD [])
      have hcoherent := (hr.act (.mutate step.mutation)).run
        ((r.batches.headD []).map StatusWrite.action)
      obtain ⟨hfailures, hspecs⟩ := ih (s := s.act (.mutate step.mutation))
        (r := disturb ⟨r.store.act (.mutate step.mutation), r.batches⟩) hwritten (hs.act _)
        hcoherent
      rw [Keeper.takeAll_cons, Keeper.takeAll_cons, take_keeper_eq, Store.take_eq,
        Store.settle_snd]
      exact ⟨by rw [hanswer, hfailures], hspecs⟩

end SharedStore

/-! ## Statuses after the pass -/

namespace Mutation

/-- The status that was written last under a key since the key was added: before a mutation, `last`,
and after it. -/
def written (k : Key) (last : Option Status) (m : Mutation) : Option Status :=
  if m.key = k then
    match m with
    | add _ => none
    | updateStatus _ v => v.status.toStatus.toOption
    | _ => last
  else last

/-- The status that was written last under a key since the key was added, of the accepted mutations
of a log. -/
def written? (k : Key) (log : List Mutation) : Option Status := log.foldl (written k) none

end Mutation

namespace Store

/-- The status under a key, and the initial one if nothing is stored there. -/
def statusOf (s : Store) (k : Key) : Status :=
  match s.get k with
  | .ok a => a.status
  | .error _ => Status.initial

/-- A call of a pass that began with a store: a status that is written, or a step that adds only
what that store does not hold. -/
inductive PassCall (s : Store) : Action → Prop where
  | write (w : StatusWrite) : PassCall s w.action
  | step (step : Step) (lacks : ∀ spec, step = .add spec → ¬ s.Live spec.key) :
      PassCall s (.mutate step.mutation)

theorem statusOf_of_not_live {s : Store} {k : Key} (h : ¬ s.Live k) :
    s.statusOf k = Status.initial := by
  unfold statusOf
  cases hget : s.get k with
  | ok a => exact absurd ⟨a, hget⟩ h
  | error e => rfl

variable {s₀ s : Store} {k : Key} {last : Option Status}

/-- A written status is what the store then holds under its key. -/
theorem Commits.status_write {sink : String} {v : View} {c : Commit}
    (h : s.Commits (.updateStatus sink v) c) {a : Autoscaler}
    (stored : c.store.stored? ⟨sink, v.name⟩ = some a) :
    v.status.toStatus.toOption = some a.status := by
  obtain ⟨b, status, hstatus, -, hcontent⟩ := h.content_updateStatus
  rw [stored] at hcontent
  rw [hstatus, (Prod.mk.inj (Option.some.inj hcontent)).2]
  rfl

/-- A step keeps the status that it finds, or it adds and leaves the initial one. -/
theorem Commits.status_step {step : Step} {c : Commit} (h : s.Commits step.mutation c)
    {a : Autoscaler} (stored : c.store.stored? step.key = some a)
    (before : ∀ b, s.stored? step.key = some b → b.status = last.getD (s₀.statusOf step.key))
    (lacks : ∀ spec, step = .add spec → ¬ s₀.Live spec.key) :
    a.status = (step.mutation.written step.key last).getD (s₀.statusOf step.key) := by
  have outcome := h.outcome
  rw [Step.key_mutation, stored] at outcome
  cases step with
  | delete k₀ =>
      rcases Mutation.of_outcome_eq_some outcome with ⟨hkind, -⟩ | ⟨hkind, -⟩ <;>
        exact nomatch hkind
  | update spec =>
      rcases Mutation.of_outcome_eq_some outcome with ⟨hkind, -⟩ | ⟨-, b, hb, -, hstatus⟩
      · exact nomatch hkind
      · have hwritten : (Mutation.updateSpec spec).written spec.key last = last := if_pos rfl
        show _ = ((Mutation.updateSpec spec).written spec.key last).getD _
        rw [hwritten]
        exact hstatus.symm.trans (before b hb)
  | add spec =>
      rcases Mutation.of_outcome_eq_some outcome with ⟨-, -, hstatus⟩ | ⟨hkind, -⟩
      · -- what a pass adds was not there when it began, so the initial status is its status
        have hwritten : (Mutation.add (.declared spec)).written spec.key last = none := if_pos rfl
        show _ = ((Mutation.add (.declared spec)).written spec.key last).getD (s₀.statusOf spec.key)
        rw [hwritten, Option.getD_none, statusOf_of_not_live (lacks spec rfl)]
        exact (Option.some.inj hstatus).symm
      · exact nomatch hkind

/-- A call of a pass keeps track of the status of every key. -/
theorem PassCall.status_act {a : Action} (call : s₀.PassCall a) (coherent : s.Coherent)
    (before : ∀ b, s.stored? k = some b → b.status = last.getD (s₀.statusOf k)) {x : Accepted}
    (h : s.accepted? a = some x) {b : Autoscaler} (stored : (s.act a).stored? k = some b) :
    b.status = (x.mutation.written k last).getD (s₀.statusOf k) := by
  obtain ⟨ha, -, accepted, hact⟩ := accepted?_eq_some h
  have commits := coherent.commits accepted
  rw [hact] at stored
  by_cases hk : k = x.mutation.key
  · cases call with
    | write w =>
        obtain ⟨before₀, m, c⟩ := x
        cases ha
        have hkey : k = ⟨w.sink, w.view.name⟩ := hk
        subst hkey
        have hwritten : (Mutation.updateStatus w.sink w.view).written ⟨w.sink, w.view.name⟩ last =
            w.view.status.toStatus.toOption := if_pos rfl
        show _ = ((Mutation.updateStatus w.sink w.view).written _ last).getD _
        rw [hwritten, commits.status_write stored]
        rfl
    | step step lacks =>
        obtain ⟨before₀, m, c⟩ := x
        cases ha
        have hkey : k = step.key := hk.trans (Step.key_mutation step)
        subst hkey
        exact commits.status_step stored before lacks
  · rw [stored?, commits.elsewhere k hk] at stored
    have hwritten : x.mutation.written k last = last := if_neg (Ne.symm hk)
    rw [hwritten]
    exact before b stored

/-- The calls of a pass leave every key with the status that was written last since the key was
added, or with the one that it had when the pass began. -/
theorem status_run_of_passCalls {calls : List Action} (coherent : s.Coherent)
    (hcalls : ∀ a ∈ calls, s₀.PassCall a)
    (before : ∀ b, s.stored? k = some b → b.status = last.getD (s₀.statusOf k)) {b : Autoscaler}
    (stored : (s.run calls).stored? k = some b) :
    b.status = (((s.log calls).map Accepted.mutation).foldl (Mutation.written k) last).getD
      (s₀.statusOf k) := by
  induction calls generalizing s last with
  | nil => exact before b stored
  | cons a rest ih =>
      obtain ⟨hfirst, hrest⟩ := List.forall_mem_cons.mp hcalls
      cases h : s.accepted? a with
      | none =>
          rw [log_cons_of_not_accepted h]
          refine ih (coherent.act a) hrest ?_ stored
          intro b₀ stored₀
          rw [stored?, find?_act_of_not_accepted h] at stored₀
          exact before b₀ stored₀
      | some x =>
          rw [log_cons_of_accepted h]
          exact ih (coherent.act a) hrest
            (fun b₀ stored₀ => hfirst.status_act coherent before h stored₀) stored

theorem passCall_of_mem_interleave {steps : List Step}
    (lacks : ∀ spec, .add spec ∈ steps → ¬ s.Live spec.key) {batches : List (List StatusWrite)}
    {a : Action} (h : a ∈ SharedStore.interleave steps batches) : s.PassCall a := by
  induction steps generalizing batches with
  | nil => exact nomatch h
  | cons step rest ih =>
      rw [SharedStore.interleave, List.mem_cons, List.mem_append, List.mem_map] at h
      rcases h with rfl | ⟨w, -, rfl⟩ | h
      · exact .step step fun spec hstep => lacks spec (hstep ▸ List.mem_cons_self)
      · exact .write w
      · exact ih (fun spec hmem => lacks spec (List.mem_cons_of_mem _ hmem)) h

/-- **Reconciling does not race with statuses.**  Whatever statuses are written, accepted or
refused, right after the snapshot of a pass and after each of its calls, the pass gives the same
answer as alone, and leaves the same keys live, with the same specifications.  A key that is live
after it has the status that was written last since the key was added, and if none was written, the
one that it had before the pass, or the initial status if it was added. -/
theorem reconcile_raced (tuning : Tuning) (handled : Bool) (history : List Action)
    (desired : List Spec) (batches : List (List StatusWrite)) :
    let s := (create tuning handled).run history
    let alone := s.reconcile desired
    let raced := SharedStore.keeper.reconcile desired ⟨s, batches⟩
    let calls := (batches.headD []).map StatusWrite.action ++
      SharedStore.interleave (plan s.autoscalers desired) batches.tail
    let log := (s.log calls).map Accepted.mutation
    raced.2.store = s.run calls ∧
      raced.1 = alone.1 ∧
      (∀ k, (raced.2.store.get k).map Autoscaler.spec = (alone.2.get k).map Autoscaler.spec) ∧
      ∀ k a, raced.2.store.get k = .ok a → a.status = (Mutation.written? k log).getD (s.statusOf k)
    := by
  intro s alone raced calls log
  have coherent : s.Coherent := coherent_run tuning handled history
  let shared := SharedStore.disturb ⟨s, batches⟩
  have hraced : raced = (ReconcileError.outcome
      (SharedStore.keeper.takeAll (plan s.autoscalers desired) shared).1,
        (SharedStore.keeper.takeAll (plan s.autoscalers desired) shared).2) := rfl
  have halone : alone = (ReconcileError.outcome
      (keeper.takeAll (plan s.autoscalers desired) s).1,
        (keeper.takeAll (plan s.autoscalers desired) s).2) := rfl
  have hstore : raced.2.store = s.run calls := by
    rw [hraced, SharedStore.store_takeAll, run_append]
    rfl
  have same : s.SameSpecs shared.store :=
    SameSpecs.run_writes (fun _ => rfl) coherent (batches.headD [])
  obtain ⟨hfailures, hspecs⟩ := SharedStore.takeAll_simulates same coherent
    (coherent.run _) (plan s.autoscalers desired)
  refine ⟨hstore, by rw [hraced, halone, hfailures], ?_, ?_⟩
  · intro k
    simp only [hraced, halone]
    exact hspecs.map_get k
  intro k a hget
  have hcalls : ∀ a ∈ calls, s.PassCall a := by
    intro a ha
    rcases List.mem_append.mp ha with ha | ha
    · obtain ⟨w, -, rfl⟩ := List.mem_map.mp ha
      exact .write w
    · refine passCall_of_mem_interleave (fun spec hmem => ?_) ha
      rcases (mem_plan_iff coherent desired).mp hmem with ⟨_, h, -⟩ | ⟨_, h, -⟩ | ⟨_, h, hlacks⟩
      · exact nomatch h
      · exact nomatch h
      · cases h
        exact hlacks.2
  have before : ∀ b, s.stored? k = some b →
      b.status = (none : Option Status).getD (s.statusOf k) := by
    intro b stored
    simp only [statusOf, stored?_eq_some_iff.mp stored, Option.getD_none]
  rw [hstore] at hget
  exact status_run_of_passCalls coherent hcalls before (stored?_eq_some_iff.mpr hget)

/-- A status that is written after the snapshot stays when its specification is replaced. -/
example :
    let spec (most : UInt32) : Spec := ⟨"ns", "a", none, most, [⟨"load", 1, none⟩], none, none⟩
    let s := (create ⟨1, .disconnect⟩ false).run [.mutate (.add (.declared (spec 1)))]
    let write : StatusWrite := ⟨"ns", ⟨"a", "ns", 0, View.Spec.of (spec 1), ⟨7, 7, [], none⟩⟩⟩
    ((SharedStore.keeper.reconcile [spec 5] ⟨s, [[write]]⟩).2.store.get ⟨"ns", "a"⟩).map
        (fun a => (a.spec.maxReplicas, a.status.currentScale)) =
      .ok (5, some 7) := by
  decide

end Store

end Autoscaling

import Autoscaling.Proofs.Control.Notification
import Autoscaling.Proofs.Control.Pass
import Autoscaling.Proofs.Watch.Simulation
import Mathlib

/-!
# Aborts of a site in use

A site in use opens watches, with a list or without, writes to its store, reads from watches and
observes everything from time to time.  Each of these is a `SiteAction`, and `Site.perform` says
what becomes of the site or how it aborts.

Only two things can be asked for that abort: a queue that would be too long, when a watch is opened,
and more permits than can be counted, when everything is observed.  Both numbers come from the
configuration, and neither changes in a run (`Site.aborts_exactly`).  The check of a configuration
keeps both of them from being zero, which does no harm, and not from being too great
(`Site.aborts_validated`).
-/

namespace Autoscaling

/-- Something that is done at a site in use. -/
inductive SiteAction where
  /-- an action on the store, with those being told who are to know of it -/
  | act (a : Action)
  | listAndWatch (scope : String)
  /-- an observation of everything, at a time of day -/
  | observe (now : UInt64)

namespace SiteAction

/-- Whether a watch is opened. -/
def opens : SiteAction → Bool
  | act (.watch _) => true
  | listAndWatch _ => true
  | _ => false

/-- Whether everything is observed. -/
def observes : SiteAction → Bool
  | observe _ => true
  | _ => false

/-- Asked for is a queue of a length, or a number of permits, beyond what can be counted. -/
def Uncountable (capacity workers : Nat) (a : SiteAction) : Prop :=
  (a.opens = true ∧ Abort.greatestCount < capacity) ∨
    (a.observes = true ∧ Abort.greatestCount < workers)

end SiteAction

namespace Site

variable {β : Type} (b : Backends β) (workers : Nat)

def perform (s : Site β) : SiteAction → Except Abort (Site β)
  | .act (.watch scope) => do
      let (_, store) ← s.store.watch scope
      .ok { s with store := store }
  | .act a => .ok (s.act b.storage a)
  | .listAndWatch scope => do
      let (_, _, _, store) ← s.store.listAndWatch scope
      .ok { s with store := store }
  | .observe now => do
      let (_, s) ← s.observeAll b now workers
      .ok s

/-- Do several things, one after the other, until one of them aborts. -/
def performAll (s : Site β) : List SiteAction → Except Abort (Site β)
  | [] => .ok s
  | a :: rest => do
      let s ← s.perform b workers a
      performAll s rest

/-! ## What becomes of the store -/

theorem reaches_act {s : Site β} (coherent : s.store.Coherent) (a : Action) :
    s.Reaches (s.act b.storage a) :=
  ⟨[a], by rw [act_eq b.storage coherent a]; rfl⟩

theorem reaches_updateStatus (sink : String) (v : View) (s : Site β) :
    s.Reaches (s.updateStatus b.storage sink v).2 :=
  ⟨[.mutate (.updateStatus sink v)], store_updateStatus ..⟩

theorem reaches_writeBack (v : View) (scale : TargetScale) (s : Site β) :
    s.Reaches (writeBack b v scale s).2 := by
  have written := reaches_updateStatus b v.ns (v.withScale scale) s
  unfold writeBack
  split_ifs
  · exact .of_store_eq rfl
  · split
    · next h => rwa [h] at written
    · next h => rwa [h] at written

theorem reaches_observe (now : UInt64) (v : View) (s : Site β) :
    s.Reaches (s.observe b now v).2 := by
  have asked := Reaches.of_store_eq (store_getScale b.scaling v.key s)
  unfold observe
  split
  · next h =>
      rw [h] at asked
      exact asked.trans (.of_store_eq (store_warn ..))
  · next scale s₁ h =>
      rw [h] at asked
      have sampled : s₁.Reaches (sampleAmid b now v v.spec.metrics [] s₁).2 :=
        reaches_sampleAmid ..
      rw [sampleAmid_nil] at sampled
      split
      · next h =>
          rw [h] at sampled
          exact asked.trans sampled
      · next h =>
          rw [h] at sampled
          exact asked.trans (sampled.trans (reaches_writeBack ..))

theorem reaches_observeViews (now : UInt64) (views : List View) (s : Site β) :
    s.Reaches (s.observeViews b now views).2 := by
  induction views generalizing s with
  | nil => exact .of_store_eq rfl
  | cons v rest ih => exact (reaches_observe b now v s).trans (ih _)

/-! ## What aborts -/

/-- A queue is as long as the hub says, and there are as many permits as there are workers.  If one
of them is wanted and cannot be counted, that is the abort; otherwise there is none. -/
theorem perform_cases {s : Site β} (coherent : s.store.Coherent) (a : SiteAction) :
    (a.Uncountable s.store.hub.capacity workers ∧
        s.perform b workers a = .error .tooManyPermits) ∨
      ¬ a.Uncountable s.store.hub.capacity workers ∧
        ∃ s₁, s.perform b workers a = .ok s₁ ∧ s.Reaches s₁ := by
  have hwatch (scope : String) :
      (Abort.greatestCount < s.store.hub.capacity ∧
        s.store.watch scope = .error .tooManyPermits) ∨
      ¬ Abort.greatestCount < s.store.hub.capacity ∧
        ∃ id, s.store.watch scope = .ok (id, s.store.act (.watch scope)) := by
    rw [Store.act, Store.watch]
    split_ifs with room
    · exact .inl ⟨room, rfl⟩
    · exact .inr ⟨room, _, rfl⟩
  cases a with
  | act a =>
      by_cases hopens : ∃ scope, a = .watch scope
      · obtain ⟨scope, rfl⟩ := hopens
        rcases hwatch scope with ⟨room, h⟩ | ⟨room, id, h⟩
        · refine .inl ⟨.inl ⟨rfl, room⟩, ?_⟩
          rw [perform, h]
          rfl
        · refine .inr ⟨by simp [SiteAction.Uncountable, SiteAction.observes, room],
            { s with store := s.store.act (.watch scope) }, ?_, [.watch scope], rfl⟩
          rw [perform, h]
          rfl
      · refine .inr ⟨?_, s.act b.storage a, ?_, reaches_act b coherent a⟩
        · cases a <;> simp_all [SiteAction.Uncountable, SiteAction.observes, SiteAction.opens]
        · cases a <;> first | rfl | exact absurd ⟨_, rfl⟩ hopens
  | listAndWatch scope =>
      rcases hwatch scope with ⟨room, h⟩ | ⟨room, id, h⟩
      · refine .inl ⟨.inl ⟨rfl, room⟩, ?_⟩
        rw [perform, Store.listAndWatch, h]
        rfl
      · refine .inr ⟨by simp [SiteAction.Uncountable, SiteAction.observes, room],
          { s with store := s.store.act (.watch scope) }, ?_, [.watch scope], rfl⟩
        rw [perform, Store.listAndWatch, h]
        rfl
  | observe now =>
      by_cases many : Abort.greatestCount < workers
      · refine .inl ⟨.inr ⟨rfl, many⟩, ?_⟩
        rw [perform, observeAll_of_lt b workers now s many]
        rfl
      · refine .inr ⟨by simp [SiteAction.Uncountable, SiteAction.opens, many],
          (s.observeViews b now (s.store.list everyNamespace)).2, ?_, reaches_observeViews ..⟩
        rw [perform, observeAll_of_le b workers now s (Nat.le_of_not_lt many)]
        rfl

theorem performAll_cases {s : Site β} (coherent : s.store.Coherent) (actions : List SiteAction) :
    ((∃ a ∈ actions, a.Uncountable s.store.hub.capacity workers) ∧
        s.performAll b workers actions = .error .tooManyPermits) ∨
      (∀ a ∈ actions, ¬ a.Uncountable s.store.hub.capacity workers) ∧
        ∃ s₁, s.performAll b workers actions = .ok s₁ ∧ s.Reaches s₁ := by
  induction actions generalizing s with
  | nil => exact .inr ⟨List.forall_mem_nil _, s, rfl, .of_store_eq rfl⟩
  | cons a rest ih =>
      rw [performAll]
      rcases perform_cases b workers coherent a with ⟨bad, h⟩ | ⟨good, s₁, h, first⟩
      · rw [h]
        exact .inl ⟨⟨a, List.mem_cons_self, bad⟩, rfl⟩
      · rw [h]
        obtain ⟨actions, hstore⟩ := id first
        have hcapacity : s₁.store.hub.capacity = s.store.hub.capacity := by
          rw [hstore, (coherent.run_hub actions).1]
        have later := ih (first.coherent coherent)
        rw [hcapacity] at later
        rcases later with ⟨⟨a₁, ha₁, bad⟩, h⟩ | ⟨good', s₂, h, second⟩
        · exact .inl ⟨⟨a₁, List.mem_cons_of_mem _ ha₁, bad⟩, h⟩
        · exact .inr ⟨List.forall_mem_cons.mpr ⟨good, good'⟩, s₂, h, first.trans second⟩

/-- **A site aborts exactly for what cannot be counted.**  Let a site start with the tuning of a
configuration, and let it do anything, with backends that do not abort.  Its queues have room for as
many changes as the configuration says and for one at least, all the time.  Whatever is done aborts
if a watch is opened whose queue would be too long or everything is observed by too many workers,
and if neither comes up, all of it is done.  So nothing ever aborts exactly if both numbers can be
counted; whether the configuration is valid has no part in that.

Within an observation nothing aborts either, however old the view is that is observed: a selector of
a view that was listed once carries the name of the autoscaler, at every site. -/
theorem aborts_exactly (c : Config) (outside : β) :
    let site := Site.start c outside
    let capacity := c.store.watchQueueCapacity.toNat
    let workers := c.workers.toNat
    let done (actions : List SiteAction) : Except Abort (Site β) :=
      site.performAll b workers actions
    (∀ actions,
      ((∃ a ∈ actions, a.Uncountable capacity workers) → done actions = .error .tooManyPermits) ∧
      ((∀ a ∈ actions, ¬ a.Uncountable capacity workers) →
        ∃ s, done actions = .ok s ∧ s.store.hub.capacity = max capacity 1)) ∧
    ((∀ actions, ∃ s, done actions = .ok s) ↔
      capacity ≤ Abort.greatestCount ∧ workers ≤ Abort.greatestCount) ∧
    ∀ actions s, done actions = .ok s → ∀ scope, ∀ v ∈ s.store.list scope,
      ∀ m ∈ v.spec.metrics, ∀ s₁ : Site β, ∃ answer,
        externalMetric b.metrics m.name v.ns m.selector s₁ = .ok answer := by
  intro site capacity workers done
  have coherent : site.store.Coherent := Store.coherent_create c.store true
  have hcases := performAll_cases b workers coherent
  have huncountable (a : SiteAction) : a.Uncountable site.store.hub.capacity workers ↔
      a.Uncountable capacity workers := by
    have hcapacity : site.store.hub.capacity = max capacity 1 := rfl
    have hroom : Abort.greatestCount < max capacity 1 ↔ Abort.greatestCount < capacity := by
      simp only [Abort.greatestCount]
      omega
    rw [SiteAction.Uncountable, SiteAction.Uncountable, hcapacity, hroom]
  simp only [huncountable] at hcases
  have hdone (actions : List SiteAction) :
      ((∃ a ∈ actions, a.Uncountable capacity workers) → done actions = .error .tooManyPermits) ∧
      ((∀ a ∈ actions, ¬ a.Uncountable capacity workers) →
        ∃ s, done actions = .ok s ∧ s.store.hub.capacity = max capacity 1) := by
    rcases hcases actions with ⟨bad, h⟩ | ⟨good, s, h, actions, hstore⟩
    · refine ⟨fun _ => h, fun good => ?_⟩
      obtain ⟨a, ha, hbad⟩ := bad
      exact absurd hbad (good a ha)
    · refine ⟨fun bad => ?_, fun _ => ⟨s, h, ?_⟩⟩
      · obtain ⟨a, ha, hbad⟩ := bad
        exact absurd hbad (good a ha)
      rw [hstore, (coherent.run_hub actions).1]
      rfl
  refine ⟨hdone, ⟨fun h => ?_, fun few actions => ?_⟩, ?_⟩
  · -- if one of the numbers were too great, using it once would abort
    have hnot (a : SiteAction) : ¬ a.Uncountable capacity workers := fun bad => by
      obtain ⟨s, hs⟩ := h [a]
      rw [(hdone [a]).1 ⟨a, List.mem_singleton_self a, bad⟩] at hs
      cases hs
    constructor
    · exact Nat.le_of_not_lt fun long => hnot (.listAndWatch everyNamespace) (.inl ⟨rfl, long⟩)
    · exact Nat.le_of_not_lt fun many => hnot (.observe 0) (.inr ⟨rfl, many⟩)
  · have good (a : SiteAction) : ¬ a.Uncountable capacity workers := by
      rintro (⟨-, long⟩ | ⟨-, many⟩)
      · exact Nat.not_lt.mpr few.1 long
      · exact Nat.not_lt.mpr few.2 many
    obtain ⟨s, hs, -⟩ := (hdone actions).2 fun a _ => good a
    exact ⟨s, hs⟩
  · intro actions s hs scope v hv m hm s₁
    obtain ⟨-, h⟩ | ⟨-, s₀, h, reached⟩ := hcases actions
    · cases h.symm.trans hs
    · obtain rfl : s₀ = s := Except.ok.inj (h.symm.trans hs)
      obtain ⟨a, -, rfl⟩ := Store.exists_of_mem_list (reached.coherent coherent) hv
      obtain ⟨answer, s₂, hanswer, -⟩ := externalMetric_of_mem b.metrics hm s₁
      exact ⟨_, hanswer⟩

/-- A configuration that is valid and asks for queues that are too long and for too many permits. -/
theorem aborts_validated :
    let settings : Settings := ⟨"a", .null⟩
    let config : Config :=
      { storage := settings, metrics := settings, scaling := settings, events := none
        workers := 2305843009213693952, store := ⟨2305843009213693952, .disconnect⟩ }
    let site := start config ()
    let b := steady ⟨some 3, some 3⟩
    config.validate = .ok () ∧
      site.performAll b config.workers.toNat [.act (.watch "ns")] = .error .tooManyPermits ∧
      site.performAll b config.workers.toNat [.observe 0] = .error .tooManyPermits := by
  intro settings config site b
  exact ⟨by decide, rfl, rfl⟩

end Site

end Autoscaling

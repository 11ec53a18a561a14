import Autoscaling.Proofs.Control.Observer
import Autoscaling.Proofs.Store.Records
import Autoscaling.Selector.Lemmas
import Mathlib

/-!
# Passes of observations

A pass observes every stored autoscaler, several of them at a time.  Here it is a relation: each
listed view has its own `Progress`, and a step takes one of the views one question further.  Which
one that is, and how often the others come in between, is left open; only a view that is still
waiting needs a permit.  `Site.observeAll` is one of these passes, the one that takes the views one
after the other.

`Site.pass_converges` says what every complete pass comes to if the replies of the scaling backend
depend on what is asked only: the numbers of replicas that were told are stored, nothing else is
changed, and another pass has nothing to do.  The invariant behind it, `Pass.Holds`, tells for each
view what is stored of its autoscaler, according to how far the view has come.
-/

namespace Autoscaling

/-- How far the observation of a view has come. -/
inductive Progress where
  | waiting
  /-- the scale is known, and these metrics are still to be sampled -/
  | sampling (scale : TargetScale) (rest : List View.Metric)
  | done (observation : Observation)

namespace Progress

/-- Whether the observation holds a permit. -/
def isUnderWay : Progress → Bool
  | sampling _ _ => true
  | _ => false

def isDone : Progress → Bool
  | done _ => true
  | _ => false

/-- Whether the observation has written a status. -/
def isWritten : Progress → Bool
  | done .written => true
  | _ => false

end Progress

/-- A pass under way: each of the listed views with its progress. -/
structure Pass (β : Type) where
  site : Site β
  turns : List (View × Progress)

namespace Site

variable {β : Type}

/-- Take the observation of a view one question further. -/
def further (b : Backends β) (now : UInt64) (v : View) : Progress → Site β → Progress × Site β
  | .waiting, s =>
      match getScale b.scaling v.key s with
      | (.error e, s) => (.done .failed, s.warn b now v "FailedGetScale" e)
      | (.ok scale, s) => (.sampling scale v.spec.metrics, s)
  | .sampling scale (m :: rest), s =>
      match externalMetric b.metrics m.name v.ns m.selector s with
      | .error _ => (.done .failed, s)
      | .ok (.ok _, s) => (.sampling scale rest, s)
      | .ok (.error e, s) => (.sampling scale rest, s.warn b now v "FailedGetExternalMetric" e)
  | .sampling scale [], s =>
      let (observation, s) := writeBack b v scale s
      (.done observation, s)
  | .done observation, s => (.done observation, s)

end Site

namespace Pass

variable {β : Type}

/-- The pass before its first question. -/
def start (s : Site β) : Pass β := ⟨s, (s.store.list everyNamespace).map fun v => (v, .waiting)⟩

/-- How many statuses were written. -/
def written (p : Pass β) : Nat := p.turns.countP fun turn => turn.2.isWritten

/-- One of the views is taken further, at any time of day.  A view that is waiting can only be taken
up while fewer than `workers` others are under way; no workers count as one. -/
inductive Step (b : Backends β) (workers : Nat) : Pass β → Pass β → Prop where
  | further (now : UInt64) {s : Site β} {before after : List (View × Progress)} {v : View}
      {progress : Progress}
      (permit : progress = .waiting →
        ((before ++ after).countP fun turn => turn.2.isUnderWay) < max workers 1) :
      Step b workers ⟨s, before ++ (v, progress) :: after⟩
        ⟨(s.further b now v progress).2, before ++ (v, (s.further b now v progress).1) :: after⟩

end Pass

namespace Site

variable {β : Type}

/-- A complete pass leads from one site to another and writes so many statuses. -/
def Passes (b : Backends β) (workers : Nat) (s : Site β) (n : Nat) (s₁ : Site β) : Prop :=
  ∃ turns, Relation.ReflTransGen (Pass.Step b workers) (.start s) ⟨s₁, turns⟩ ∧
    (∀ turn ∈ turns, turn.2.isDone = true) ∧ n = (⟨s₁, turns⟩ : Pass β).written

end Site

/-! ## One view after the other -/

namespace Pass

variable {β : Type} (b : Backends β) (workers : Nat)

/-- While nothing else is under way, a view can be taken to the end of its sampling. -/
theorem reaches_sampled (now : UInt64) (before after : List (View × Progress)) (v : View)
    (scale : TargetScale) (metrics : List View.Metric) (s : Site β) :
    Relation.ReflTransGen (Step b workers) ⟨s, before ++ (v, .sampling scale metrics) :: after⟩
      ⟨(s.sample b now v metrics).2, before ++ (v,
        match (s.sample b now v metrics).1 with
        | some () => .sampling scale []
        | none => .done .failed) :: after⟩ := by
  induction metrics generalizing s with
  | nil => exact .refl
  | cons m rest ih =>
      have step : Step b workers ⟨s, before ++ (v, .sampling scale (m :: rest)) :: after⟩ _ :=
        .further now (by simp)
      rw [Site.sample]
      simp only [Site.further] at step
      rcases hm : Site.externalMetric b.metrics m.name v.ns m.selector s with _ | ⟨_ | _, s₁⟩
      · simp only [hm] at step
        exact .single step
      · simp only [hm] at step
        exact .head step (ih _)
      · simp only [hm] at step
        exact .head step (ih _)

/-- While nothing else is under way, a view can be taken to its end, which is that of an observation
of it alone. -/
theorem reaches_observed (now : UInt64) {before after : List (View × Progress)} (v : View)
    (s : Site β) (alone : ∀ turn ∈ before ++ after, turn.2.isUnderWay = false) :
    Relation.ReflTransGen (Step b workers) ⟨s, before ++ (v, .waiting) :: after⟩
      ⟨(s.observe b now v).2, before ++ (v, .done (s.observe b now v).1) :: after⟩ := by
  have hpermit : ((before ++ after).countP fun turn => turn.2.isUnderWay) < max workers 1 := by
    have hnone : ((before ++ after).countP fun turn => turn.2.isUnderWay) = 0 :=
      List.countP_eq_zero.mpr fun turn hturn => Bool.eq_false_iff.mp (alone turn hturn)
    omega
  have step : Step b workers ⟨s, before ++ (v, .waiting) :: after⟩ _ :=
    .further now fun _ => hpermit
  simp only [Site.further] at step
  rcases hscale : Site.getScale b.scaling v.key s with ⟨_ | scale, s₁⟩
  · simp only [hscale] at step
    simp only [Site.observe, hscale]
    exact .single step
  · simp only [hscale] at step
    have sampled := reaches_sampled b workers now before after v scale v.spec.metrics s₁
    rcases hsample : Site.sample b now v v.spec.metrics s₁ with ⟨_ | ⟨⟨⟩⟩, s₂⟩
    · simp only [hsample] at sampled
      simp only [Site.observe, hscale, hsample]
      exact .head step sampled
    · simp only [hsample] at sampled
      simp only [Site.observe, hscale, hsample]
      exact .head step (.tail sampled (.further now (by simp)))

end Pass

namespace Site

variable {β : Type} (b : Backends β) (workers : Nat)

theorem observeViews_passes (now : UInt64) (views : List View) (before : List (View × Progress))
    (s : Site β) (finished : ∀ turn ∈ before, turn.2.isDone = true) :
    ∃ after, Relation.ReflTransGen (Pass.Step b workers)
        ⟨s, before ++ views.map fun v => (v, .waiting)⟩
        ⟨(s.observeViews b now views).2, before ++ after⟩ ∧
      (∀ turn ∈ after, turn.2.isDone = true) ∧
      (s.observeViews b now views).1 = after.countP fun turn => turn.2.isWritten := by
  induction views generalizing before s with
  | nil => exact ⟨[], by simpa using .refl, nofun, rfl⟩
  | cons v rest ih =>
      let turn : View × Progress := (v, .done (s.observe b now v).1)
      have alone : ∀ turn ∈ before ++ rest.map fun v => (v, Progress.waiting),
          turn.2.isUnderWay = false := by
        intro turn hturn
        rcases List.mem_append.mp hturn with h | h
        · have hdone := finished turn h
          revert hdone
          cases turn.2 <;> simp [Progress.isDone, Progress.isUnderWay]
        · obtain ⟨v, -, rfl⟩ := List.mem_map.mp h
          rfl
      have first := Pass.reaches_observed b workers now v s alone
      have finished' : ∀ t ∈ before ++ [turn], t.2.isDone = true := by
        intro t ht
        rcases List.mem_append.mp ht with h | h
        · exact finished t h
        · rw [List.mem_singleton.mp h]
          rfl
      obtain ⟨after, hrest, hafter, hcount⟩ := ih (before ++ [turn]) (s.observe b now v).2 finished'
      refine ⟨turn :: after, ?_, List.forall_mem_cons.mpr ⟨rfl, hafter⟩, ?_⟩
      · simp only [List.append_assoc, List.singleton_append] at hrest
        exact first.trans hrest
      · rw [observeViews, List.countP_cons, ← hcount]
        cases hobservation : (s.observe b now v).1 <;>
          simp [turn, hobservation, Progress.isWritten]

theorem observeAll_of_lt (now : UInt64) (s : Site β) (many : Abort.greatestCount < workers) :
    s.observeAll b now workers = .error .tooManyPermits :=
  if_pos (Nat.lt_of_lt_of_le many (Nat.le_max_left ..))

theorem observeAll_of_le (now : UInt64) (s : Site β) (countable : workers ≤ Abort.greatestCount) :
    s.observeAll b now workers = .ok (s.observeViews b now (s.store.list everyNamespace)) := by
  have hfew : ¬ Abort.greatestCount < max workers 1 := by
    simp only [Abort.greatestCount] at *
    omega
  rw [observeAll, if_neg hfew]

/-- With as many workers as can be counted, observing everything is a complete pass. -/
theorem observeAll_passes (now : UInt64) (s : Site β) (countable : workers ≤ Abort.greatestCount) :
    ∃ n s₁, s.observeAll b now workers = .ok (n, s₁) ∧ s.Passes b workers n s₁ := by
  obtain ⟨turns, reached, finished, hcount⟩ :=
    observeViews_passes b workers now (s.store.list everyNamespace) [] s nofun
  exact ⟨_, _, observeAll_of_le b workers now s countable, turns, reached, finished, hcount⟩

end Site

/-! ## What one view comes to -/

/-- What the scaling backend replies depends on the key and the settings that it is asked for. -/
def Backends.RepliesBy {β : Type} (b : Backends β)
    (reply : Key → Option Settings → Except BackendError Scale) : Prop :=
  ∀ k settings x, (b.scaling.getScale k settings x).1 = reply k settings

namespace Autoscaler

variable (reply : Key → Option Settings → Except BackendError Scale)

/-- The scale that a pass sees for an autoscaler, if the reply has both halves. -/
def seen? (a : Autoscaler) : Option TargetScale :=
  match reply a.key a.spec.target with
  | .ok scale => (Site.targetScale a.key scale).toOption
  | .error _ => none

/-- What an answer of the scaling backend tells of the scale. -/
def told (a : Autoscaler) : Except BackendError Scale → Except ProviderError TargetScale
  | .error e => .error (.backend e)
  | .ok scale => Site.targetScale a.key scale

/-- Whether a pass sees other numbers of replicas than the view has. -/
def isOutdated (a : Autoscaler) : Bool :=
  match a.seen? reply with
  | some scale => !a.shown.shows scale
  | none => false

/-- The autoscaler with numbers of replicas that were observed. -/
def rescaled (a : Autoscaler) (scale : TargetScale) (version : UInt64) : Autoscaler :=
  ⟨a.spec, { a.status with currentScale := some scale.current, desiredScale := scale.desired },
    version⟩

variable {reply}

theorem seen?_eq_some_iff {a : Autoscaler} {scale : TargetScale} :
    a.seen? reply = some scale ↔
      reply a.key a.spec.target = .ok ⟨some scale.desired, some scale.current⟩ ∧
        scale = ⟨a.key, scale.desired, scale.current, Carrier.encodeReplicas scale.current⟩ := by
  unfold seen?
  rcases reply a.key a.spec.target with _ | ⟨_ | desired, _ | current⟩
  · simp
  · simp [Site.targetScale, Except.toOption]
  · simp [Site.targetScale, Except.toOption]
  · simp [Site.targetScale, Except.toOption]
  · obtain ⟨key, d, c, selector⟩ := scale
    simp only [Site.targetScale, Except.toOption, Option.some.injEq, TargetScale.mk.injEq,
      Except.ok.injEq, Scale.mk.injEq]
    constructor
    · rintro ⟨rfl, rfl, rfl, rfl⟩
      exact ⟨⟨rfl, rfl⟩, rfl, trivial, trivial, rfl⟩
    · rintro ⟨⟨rfl, rfl⟩, rfl, -, -, rfl⟩
      exact ⟨rfl, rfl, rfl, rfl⟩

theorem seen?_eq (a : Autoscaler) (reply : Key → Option Settings → Except BackendError Scale) :
    a.seen? reply = (a.told (reply a.key a.spec.target)).toOption := by
  unfold seen?
  cases reply a.key a.spec.target <;> rfl

/-- Two autoscalers of one specification are seen alike. -/
theorem seen?_congr {a a₀ : Autoscaler} (h : a₀.spec = a.spec) : a₀.seen? reply = a.seen? reply := by
  rw [seen?, seen?, key, key, h]

theorem isOutdated_eq_true_iff {a : Autoscaler} :
    a.isOutdated reply = true ↔ ∃ scale, a.seen? reply = some scale ∧ a.shown.shows scale = false := by
  unfold isOutdated
  cases a.seen? reply <;> simp

theorem shows_rescaled (a : Autoscaler) (scale : TargetScale) (version : UInt64) :
    (a.rescaled scale version).shown.shows scale = true := by
  simp [View.shows, shown, View.Status.of, rescaled]

/-- What was rescaled to what is seen is not outdated any more. -/
theorem isOutdated_rescaled {a : Autoscaler} {scale : TargetScale} (seen : a.seen? reply = some scale)
    (version : UInt64) : (a.rescaled scale version).isOutdated reply = false := by
  have hseen : (a.rescaled scale version).seen? reply = some scale := (seen?_congr rfl).trans seen
  rw [isOutdated, hseen]
  simp [shows_rescaled]

/-- What is stored of an autoscaler, according to how far the observation of its view has come. -/
def Standing (reply : Key → Option Settings → Except BackendError Scale) (a : Autoscaler) :
    Progress → Option Autoscaler → Prop
  | .waiting, stored => stored = some a
  | .sampling scale rest, stored =>
      stored = some a ∧ a.seen? reply = some scale ∧ ∀ m ∈ rest, m ∈ a.shown.spec.metrics
  | .done .written, stored =>
      a.isOutdated reply = true ∧ ∃ scale version, a.seen? reply = some scale ∧
        stored = some (a.rescaled scale version)
  | .done _, stored => stored = some a ∧ a.isOutdated reply = false

end Autoscaler

namespace Site

variable {β : Type} {b : Backends β} {reply : Key → Option Settings → Except BackendError Scale}

theorem lookup_of_stored? {a : Autoscaler} {s : Site β} (stored : s.store.stored? a.key = some a) :
    lookup a.key s = (.ok a, s) := by
  rw [lookup, Store.stored?_eq_some_iff.mp stored]

/-- The scale of a stored autoscaler is what its backend tells of it. -/
theorem getScale_of_stored? (scaling : ScalingClient β) {a : Autoscaler} {s : Site β}
    (stored : s.store.stored? a.key = some a) :
    getScale scaling a.key s = (a.told (scaling.getScale a.key a.spec.target s.outside).1,
      { s with outside := (scaling.getScale a.key a.spec.target s.outside).2 }) := by
  simp only [getScale, lookup_of_stored? stored, call_eq]
  rcases scaling.getScale a.key a.spec.target s.outside with ⟨_ | _, x⟩ <;> rfl

/-- The selector of a metric that is shown carries the name of its autoscaler. -/
theorem externalMetric_shown (metrics : MetricsClient β) (a : Autoscaler) (m : Metric) (s : Site β) :
    externalMetric metrics m.name a.shown.ns (View.Metric.of a.spec.name m).selector s =
      .ok (metricOf metrics m.name a.key s) := by
  have hdecode := Carrier.autoscaler.decode_encode a.spec.name
  simp only [externalMetric, View.Metric.of, hdecode]
  rfl

theorem externalMetric_of_mem (metrics : MetricsClient β) {a : Autoscaler} {m : View.Metric}
    (hm : m ∈ a.shown.spec.metrics) (s : Site β) :
    ∃ answer s₁, externalMetric metrics m.name a.shown.ns m.selector s = .ok (answer, s₁) ∧
      s₁.store = s.store := by
  obtain ⟨metric, -, rfl⟩ := List.mem_map.mp hm
  exact ⟨_, _, externalMetric_shown metrics a metric s, store_metricOf ..⟩

/-- The numbers of replicas that were observed are written for a stored autoscaler unless its view
has them. -/
theorem writeBack_of_stored? {s : Site β} (coherent : s.store.Coherent) {a : Autoscaler}
    (stored : s.store.stored? a.key = some a) (scale : TargetScale) :
    (a.shown.shows scale = true ∧ writeBack b a.shown scale s = (.unchanged, s)) ∨
      ∃ c, a.shown.shows scale = false ∧
        s.store.mutate (.updateStatus a.shown.ns (a.shown.withScale scale)) = .ok c ∧
        (writeBack b a.shown scale s).1 = .written ∧
        (writeBack b a.shown scale s).2.store = c.store ∧
        c.store.stored? a.key = some (a.rescaled scale (s.store.version + 1)) := by
  cases hshows : a.shown.shows scale with
  | true => exact .inl ⟨rfl, by rw [writeBack, if_pos hshows]⟩
  | false =>
      let m : Mutation := .updateStatus a.shown.ns (a.shown.withScale scale)
      have hkey : m.key = a.key := rfl
      have houtcome : m.outcome (s.store.stored? m.key) = .ok (some (a.spec,
          ⟨some scale.current, scale.desired, a.status.conditions, a.status.lastScaleTime⟩)) := by
        have hns : ¬ (a.shown.withScale scale).ns ≠ a.shown.ns := fun h => h rfl
        rw [hkey, stored, Mutation.outcome, if_neg hns, toStatus_withScale rfl scale]
      obtain ⟨e, -, herror⟩ | ⟨c, accepted, commits⟩ := coherent.mutate_cases m
      · rw [herror] at houtcome
        cases houtcome
      · have hstored := (commits.find?_of_outcome houtcome).1
        have hsink : s.store.updateStatus a.shown.ns (a.shown.withScale scale) = .ok c := accepted
        refine .inr ⟨c, rfl, accepted, ?_, ?_, ?_⟩
        · simp [writeBack, hshows, updateStatus, hsink]
        · simp [writeBack, hshows, updateStatus, hsink, store_foldl_tell]
        · rw [← hkey, Store.stored?, hstored]
          rfl

/-- Taken a question further, a view leaves the store as it is, or its numbers of replicas are
written and its observation has come to its end. -/
theorem further_cases (now : UInt64) {s : Site β} (coherent : s.store.Coherent) {a : Autoscaler}
    {progress : Progress} (standing : a.Standing reply progress (s.store.stored? a.key))
    (answered : progress = .waiting →
      (b.scaling.getScale a.key a.spec.target s.outside).1 = reply a.key a.spec.target) :
    let next := s.further b now a.shown progress
    (next.2.store = s.store ∧ next.1.isWritten = progress.isWritten ∧
        a.Standing reply next.1 (s.store.stored? a.key)) ∨
      ∃ m c, m.key = a.key ∧ s.store.mutate m = .ok c ∧ next.2.store = c.store ∧
        progress.isWritten = false ∧ next.1.isWritten = true ∧
        a.Standing reply next.1 (c.store.stored? a.key) := by
  intro next
  cases progress with
  | waiting =>
      have hseen := a.seen?_eq reply
      let s₁ : Site β :=
        { s with outside := (b.scaling.getScale a.key a.spec.target s.outside).2 }
      have hscale : getScale b.scaling a.key s = (a.told (reply a.key a.spec.target), s₁) :=
        answered rfl ▸ getScale_of_stored? b.scaling standing
      refine .inl ?_
      cases htold : a.told (reply a.key a.spec.target) with
      | error e =>
          rw [htold] at hscale hseen
          have hnext : next = (.done .failed, s₁.warn b now a.shown "FailedGetScale" e) := by
            simp only [next, further]
            rw [show a.shown.key = a.key from rfl, hscale]
          rw [hnext]
          exact ⟨store_warn .., rfl, standing, by simp [Autoscaler.isOutdated, hseen, Except.toOption]⟩
      | ok scale =>
          rw [htold] at hscale hseen
          have hnext : next = (.sampling scale a.shown.spec.metrics, s₁) := by
            simp only [next, further]
            rw [show a.shown.key = a.key from rfl, hscale]
          rw [hnext]
          exact ⟨rfl, rfl, standing, hseen, fun _ => id⟩
  | sampling scale rest =>
      obtain ⟨stored, seen, listed⟩ := standing
      cases rest with
      | cons m rest =>
          obtain ⟨hm, hrest⟩ := List.forall_mem_cons.mp listed
          obtain ⟨answer, s₁, hanswer, hstore⟩ := externalMetric_of_mem b.metrics hm s
          refine .inl ?_
          cases answer with
          | ok values =>
              have hnext : next = (.sampling scale rest, s₁) := by
                simp only [next, further, hanswer]
              rw [hnext]
              exact ⟨hstore, rfl, stored, seen, hrest⟩
          | error e =>
              have hnext : next =
                  (.sampling scale rest, s₁.warn b now a.shown "FailedGetExternalMetric" e) := by
                simp only [next, further, hanswer]
              rw [hnext]
              exact ⟨(store_warn ..).trans hstore, rfl, stored, seen, hrest⟩
      | nil =>
          rcases writeBack_of_stored? (b := b) coherent stored scale with
            ⟨hshows, hwrite⟩ | ⟨c, hshows, accepted, hwritten, hstore, hleft⟩
          · have hnext : next = (.done .unchanged, s) := by simp only [next, further, hwrite]
            rw [hnext]
            exact .inl ⟨rfl, rfl, stored, by simp [Autoscaler.isOutdated, seen, hshows]⟩
          · have hnext : next = (.done .written, (writeBack b a.shown scale s).2) := by
              simp only [next, further, hwritten]
            rw [hnext]
            refine .inr ⟨_, c, rfl, accepted, hstore, rfl, rfl, ?_, scale, _, seen, hleft⟩
            exact Autoscaler.isOutdated_eq_true_iff.mpr ⟨scale, seen, hshows⟩
  | done observation => exact .inl ⟨rfl, rfl, standing⟩

end Site

/-! ## What is listed -/

namespace Store

variable {s : Store}

/-- No two listed views have the same key. -/
theorem nodup_keys_list (coherent : s.Coherent) :
    ((s.list everyNamespace).map View.key).Nodup := by
  have hkeys : (s.list everyNamespace).map View.key = s.records.keys := by
    rw [list_everyNamespace coherent, List.map_map, OrderedMap.values, OrderedMap.keys,
      List.map_map]
    refine List.map_congr_left fun e he => ?_
    have stored := OrderedMap.mem_entries_iff.mp he
    rw [find?_records] at stored
    exact key_of_stored? coherent stored
  rw [hkeys]
  exact s.nodup_keys_records

theorem stored?_of_mem (coherent : s.Coherent) {a : Autoscaler} (h : a ∈ s.records.values) :
    s.stored? a.key = some a := by
  obtain ⟨k, found⟩ := OrderedMap.mem_values_iff.mp h
  rw [find?_records] at found
  rw [show a.key = k from key_of_stored? coherent found, found]

theorem getView_of_stored? (coherent : s.Coherent) {k : Key} {a : Autoscaler}
    (stored : s.stored? k = some a) : s.getView k = .ok a.shown := by
  obtain ⟨entry, found, rfl⟩ := Option.map_eq_some_iff.mp stored
  have hview := (Autoscaler.view_eq_ok_iff.mp (coherent k entry found).2).2
  exact getView_eq_ok_iff.mpr ⟨entry, found, hview⟩

end Store

/-! ## What a pass comes to -/

namespace Pass

variable {β : Type} {b : Backends β} {workers : Nat}
  {reply : Key → Option Settings → Except BackendError Scale} {s₀ : Store}

/-- A pass over what a store lists: the views of its autoscalers stand as they should, nothing else is
stored, and what was written is counted. -/
structure Holds (reply : Key → Option Settings → Except BackendError Scale) (s₀ : Store)
    (p : Pass β) : Prop where
  coherent : p.site.store.Coherent
  listed : p.turns.map Prod.fst = s₀.list everyNamespace
  standing : ∀ a progress, s₀.stored? a.key = some a → (a.shown, progress) ∈ p.turns →
    a.Standing reply progress (p.site.store.stored? a.key)
  nothingElse : ∀ k, s₀.stored? k = none → p.site.store.stored? k = none
  version : p.site.store.version = s₀.version + UInt64.ofNat p.written
  /-- before anything is written the store is as it was -/
  quiet : p.written = 0 → p.site.store = s₀

theorem holds_start {s : Site β} (coherent : s.store.Coherent) :
    (start s).Holds reply s.store := by
  have hcount : (start s).written = 0 := by
    refine List.countP_eq_zero.mpr fun turn hturn => ?_
    obtain ⟨v, -, rfl⟩ := List.mem_map.mp hturn
    exact Bool.false_ne_true
  have hlisted : (start s).turns.map Prod.fst = s.store.list everyNamespace := by
    rw [start, List.map_map]
    exact List.map_id _
  refine ⟨coherent, hlisted, ?_, fun _ => id, by rw [hcount]; simp [start], fun _ => rfl⟩
  intro a progress stored hturn
  obtain ⟨v, -, hv⟩ := List.mem_map.mp hturn
  obtain ⟨-, rfl⟩ := Prod.mk.inj hv
  exact stored

/-- How many statuses were written, with one of the views looked at by itself. -/
theorem written_middle (s : Site β) (before after : List (View × Progress)) (v : View)
    (progress : Progress) :
    (⟨s, before ++ (v, progress) :: after⟩ : Pass β).written =
      ((before ++ after).countP fun turn => turn.2.isWritten) + progress.isWritten.toNat := by
  simp only [written, List.countP_append, List.countP_cons]
  cases progress.isWritten
  · simp
  · simp only [if_true, Bool.toNat_true]
    omega

/-- Each of the turns is about another autoscaler, so after the turn of one of them has changed, it is
enough to look at this one and at those that are about others. -/
theorem forall_turns (coherent₀ : s₀.Coherent) {before after : List (View × Progress)}
    {a : Autoscaler} (stored : s₀.stored? a.key = some a) {progress next : Progress}
    (listed : (before ++ (a.shown, progress) :: after).map Prod.fst = s₀.list everyNamespace)
    {P : Autoscaler → Progress → Prop} (here : P a next)
    (others : ∀ a₀ progress₀, s₀.stored? a₀.key = some a₀ → a₀.key ≠ a.key →
      (a₀.shown, progress₀) ∈ before ++ (a.shown, progress) :: after → P a₀ progress₀) :
    ∀ a₀ progress₀, s₀.stored? a₀.key = some a₀ →
      (a₀.shown, progress₀) ∈ before ++ (a.shown, next) :: after → P a₀ progress₀ := by
  intro a₀ progress₀ stored₀ hturn
  rw [List.perm_middle.mem_iff, List.mem_cons] at hturn
  rcases hturn with h | h
  · obtain ⟨hshown, rfl⟩ := Prod.mk.inj h
    have hkey : a₀.key = a.key := congrArg View.key hshown
    rw [hkey, stored] at stored₀
    exact Option.some.inj stored₀ ▸ here
  · refine others a₀ progress₀ stored₀ (fun hkey => ?_) ?_
    · have distinct := Store.nodup_keys_list coherent₀
      rw [← listed, List.map_map, (List.perm_middle.map _).nodup_iff, List.map_cons,
        List.nodup_cons] at distinct
      exact distinct.1 (List.mem_map.mpr ⟨_, h, hkey⟩)
    · rw [List.perm_middle.mem_iff]
      exact List.mem_cons_of_mem _ h

/-- Taking one view further leaves the standing of the others as it is.  If it was waiting, the reply
is the one that is given now. -/
theorem Holds.further (coherent₀ : s₀.Coherent) (now : UInt64) {s : Site β}
    {before after : List (View × Progress)} {a : Autoscaler} {progress : Progress}
    (hstored : s₀.stored? a.key = some a)
    (holds : (⟨s, before ++ (a.shown, progress) :: after⟩ : Pass β).Holds reply s₀)
    (answered : progress = .waiting →
      (b.scaling.getScale a.key a.spec.target s.outside).1 = reply a.key a.spec.target) :
    (⟨(s.further b now a.shown progress).2,
      before ++ (a.shown, (s.further b now a.shown progress).1) :: after⟩ : Pass β).Holds reply s₀ := by
  have listed := holds.listed
  have hhere := holds.standing a progress hstored
    (List.mem_append_right _ List.mem_cons_self)
  have hlisted : (before ++ (a.shown, (s.further b now a.shown progress).1) :: after).map Prod.fst =
      s₀.list everyNamespace := by
    rw [← listed, List.map_append, List.map_append, List.map_cons, List.map_cons]
  -- it is enough to look at the turn that was taken, and at what is stored under other keys
  have hstanding (now? : Key → Option Autoscaler)
      (hnow : a.Standing reply (s.further b now a.shown progress).1 (now? a.key))
      (helse : ∀ k, k ≠ a.key → now? k = s.store.stored? k) :=
    forall_turns coherent₀ hstored listed (P := fun a₀ progress₀ =>
      a₀.Standing reply progress₀ (now? a₀.key)) hnow fun a₀ progress₀ hstored₀ hkey hturn =>
        helse _ hkey ▸ holds.standing a₀ progress₀ hstored₀ hturn
  have hversion := holds.version
  have hquiet := holds.quiet
  rw [written_middle] at hversion hquiet
  rcases Site.further_cases now holds.coherent hhere answered with
    ⟨hstore, hwritten, standing⟩ | ⟨m, c, hkey, accepted, hstore, hbefore, hafter, standing⟩
  · refine ⟨hstore ▸ holds.coherent, hlisted, ?_, hstore ▸ holds.nothingElse, ?_, ?_⟩
    · exact hstanding _ (hstore ▸ standing) fun k _ => by rw [hstore]
    · rw [written_middle, hwritten, hstore]
      exact hversion
    · rw [written_middle, hwritten, hstore]
      exact hquiet
  · have commits := holds.coherent.commits accepted
    have helse (k : Key) (hk : k ≠ a.key) : c.store.stored? k = s.store.stored? k := by
      rw [Store.stored?, Store.stored?, commits.elsewhere k (hkey ▸ hk)]
    refine ⟨hstore ▸ commits.coherent holds.coherent, hlisted, ?_, ?_, ?_, ?_⟩
    · exact hstanding _ (hstore ▸ standing) fun k hk => by rw [hstore, helse k hk]
    · intro k hk
      have hne : k ≠ a.key := by
        rintro rfl
        rw [hstored] at hk
        cases hk
      rw [hstore, helse k hne]
      exact holds.nothingElse k hk
    · rw [hbefore, Bool.toNat_false, Nat.add_zero] at hversion
      rw [written_middle, hafter, hstore, commits.version, hversion, Bool.toNat_true,
        UInt64.ofNat_add, ← UInt64.add_assoc]
      rfl
    · rw [written_middle, hafter, Bool.toNat_true]
      exact fun h => absurd h (Nat.succ_ne_zero _)

theorem Holds.step (coherent₀ : s₀.Coherent) (replies : b.RepliesBy reply) {p p' : Pass β}
    (holds : p.Holds reply s₀) (step : Step b workers p p') : p'.Holds reply s₀ := by
  obtain @⟨now, s, before, after, v, progress, -⟩ := step
  have hv : v ∈ s₀.list everyNamespace := holds.listed ▸ List.mem_map.mpr
    ⟨(v, progress), List.mem_append_right _ List.mem_cons_self, rfl⟩
  obtain ⟨a, stored, rfl⟩ := Store.exists_of_mem_list coherent₀ hv
  exact holds.further coherent₀ now (Store.stored?_eq_some_iff.mpr stored) fun _ => replies ..

theorem Holds.run (coherent₀ : s₀.Coherent) (replies : b.RepliesBy reply) {p p' : Pass β}
    (holds : p.Holds reply s₀) (run : Relation.ReflTransGen (Step b workers) p p') :
    p'.Holds reply s₀ := by
  induction run with
  | refl => exact holds
  | tail _ step ih => exact ih.step coherent₀ replies step

/-- Each stored autoscaler has its turn. -/
theorem Holds.exists_turn (coherent₀ : s₀.Coherent) {p : Pass β} (holds : p.Holds reply s₀)
    {a : Autoscaler} (stored : s₀.stored? a.key = some a) :
    ∃ progress, (a.shown, progress) ∈ p.turns := by
  have hshown : a.shown ∈ p.turns.map Prod.fst := by
    rw [holds.listed, Store.list_everyNamespace coherent₀]
    refine List.mem_map_of_mem (OrderedMap.mem_values_iff.mpr ⟨a.key, ?_⟩)
    rw [Store.find?_records, stored]
  obtain ⟨⟨v, progress⟩, hturn, rfl⟩ := List.mem_map.mp hshown
  exact ⟨progress, hturn⟩

/-- At the end of a pass an outdated autoscaler has the numbers of replicas that were seen, and any
other one is as it was. -/
theorem Holds.final (coherent₀ : s₀.Coherent) {p : Pass β} (holds : p.Holds reply s₀)
    (finished : ∀ turn ∈ p.turns, turn.2.isDone = true) {a : Autoscaler}
    (stored : s₀.stored? a.key = some a) :
    (a.isOutdated reply = true ∧ ∃ scale version, a.seen? reply = some scale ∧
        p.site.store.stored? a.key = some (a.rescaled scale version)) ∨
      a.isOutdated reply = false ∧ p.site.store.stored? a.key = some a := by
  obtain ⟨progress, hturn⟩ := holds.exists_turn coherent₀ stored
  have standing := holds.standing a progress stored hturn
  cases progress with
  | waiting => exact absurd (finished _ hturn) Bool.false_ne_true
  | sampling scale rest => exact absurd (finished _ hturn) Bool.false_ne_true
  | done observation =>
      cases observation with
      | failed => exact .inr standing.symm
      | unchanged => exact .inr standing.symm
      | written => exact .inl standing

/-- What was written at the end of a pass are the outdated autoscalers. -/
theorem Holds.written_eq (coherent₀ : s₀.Coherent) {p : Pass β} (holds : p.Holds reply s₀)
    (finished : ∀ turn ∈ p.turns, turn.2.isDone = true) :
    p.written = s₀.autoscalers.countP fun a => a.isOutdated reply := by
  let outdated (v : View) : Bool := (s₀.stored? v.key).any fun a => a.isOutdated reply
  have hturns : p.written = p.turns.countP (outdated ∘ Prod.fst) := by
    refine List.countP_congr fun turn hturn => ?_
    obtain ⟨v, progress⟩ := turn
    have hv : v ∈ s₀.list everyNamespace := holds.listed ▸ List.mem_map.mpr ⟨_, hturn, rfl⟩
    obtain ⟨a, stored, rfl⟩ := Store.exists_of_mem_list coherent₀ hv
    have stored : s₀.stored? a.key = some a := Store.stored?_eq_some_iff.mpr stored
    have standing := holds.standing a progress stored hturn
    have houtdated : outdated a.shown = a.isOutdated reply := by
      simp only [outdated, Autoscaler.key_shown, stored, Option.any_some]
    rw [Function.comp_apply, houtdated]
    cases progress with
    | waiting => exact absurd (finished _ hturn) Bool.false_ne_true
    | sampling scale rest => exact absurd (finished _ hturn) Bool.false_ne_true
    | done observation =>
        cases observation with
        | failed => simp [Progress.isWritten, standing.2]
        | unchanged => simp [Progress.isWritten, standing.2]
        | written => simp [Progress.isWritten, standing.1]
  rw [hturns, ← List.countP_map, holds.listed, Store.list_everyNamespace coherent₀,
    Store.autoscalers_eq, List.countP_map]
  refine List.countP_congr fun a ha => ?_
  have stored := Store.stored?_of_mem coherent₀ ha
  simp only [outdated, Function.comp_apply, Autoscaler.key_shown, stored, Option.any_some]

end Pass

namespace Site

variable {β : Type} {b : Backends β} {workers : Nat}
  {reply : Key → Option Settings → Except BackendError Scale} {s s₁ : Site β} {n : Nat}

/-- What a complete pass leaves of what was stored. -/
structure Rescales (reply : Key → Option Settings → Except BackendError Scale)
    (before after : Store) (n : Nat) : Prop where
  coherent : after.Coherent
  /-- an outdated autoscaler has the numbers of replicas that were seen, and any other one is as it
  was -/
  stored : ∀ k a, before.stored? k = some a →
    (a.isOutdated reply = true ∧ ∃ scale version, a.seen? reply = some scale ∧
        after.stored? k = some (a.rescaled scale version)) ∨
      a.isOutdated reply = false ∧ after.stored? k = some a
  nothingElse : ∀ k, before.stored? k = none → after.stored? k = none
  count : n = before.autoscalers.countP fun a => a.isOutdated reply
  version : after.version = before.version + UInt64.ofNat n
  quiet : n = 0 → after = before

theorem Passes.rescales (coherent : s.store.Coherent) (replies : b.RepliesBy reply)
    (passes : s.Passes b workers n s₁) : Rescales reply s.store s₁.store n := by
  obtain ⟨turns, run, finished, rfl⟩ := passes
  have holds := (Pass.holds_start coherent).run coherent replies run
  refine ⟨holds.coherent, fun k a stored => ?_, holds.nothingElse,
    holds.written_eq coherent finished, holds.version, holds.quiet⟩
  obtain rfl : a.key = k := Store.key_of_stored? coherent stored
  exact holds.final coherent finished stored

namespace Rescales

variable {before after : Store} {k : Key} {a : Autoscaler}

/-- Of an outdated autoscaler other numbers of replicas are stored than before. -/
theorem get_eq_iff (rescales : Rescales reply before after n) (stored : before.stored? k = some a) :
    after.get k = before.get k ↔ a.isOutdated reply = false := by
  rw [Store.get_eq, Store.get_eq, stored]
  rcases rescales.stored k a stored with ⟨outdated, scale, version, seen, left⟩ | ⟨current, left⟩
  · have hother : a.rescaled scale version ≠ a := fun h => by
      have hcurrent := Autoscaler.isOutdated_rescaled seen version
      rw [h, outdated] at hcurrent
      exact nomatch hcurrent
    rw [left, outdated]
    simpa using hother
  · rw [left, current]
    simp

/-- After a pass nothing is outdated. -/
theorem isOutdated_eq_false (rescales : Rescales reply before after n)
    (left : after.stored? k = some a) : a.isOutdated reply = false := by
  cases stored : before.stored? k with
  | none =>
      rw [rescales.nothingElse k stored] at left
      exact nomatch left
  | some a₀ =>
      rcases rescales.stored k a₀ stored with ⟨-, scale, version, seen, h⟩ | ⟨current, h⟩
      · obtain rfl : a₀.rescaled scale version = a := Option.some.inj (h.symm.trans left)
        exact Autoscaler.isOutdated_rescaled seen version
      · obtain rfl : a₀ = a := Option.some.inj (h.symm.trans left)
        exact current

/-- What is stored after a pass differs between passes in versions only. -/
theorem content_eq {n₀ : Nat} {after₀ : Store} (rescales : Rescales reply before after n)
    (rescales₀ : Rescales reply before after₀ n₀) (k : Key) :
    (after₀.get k).map Autoscaler.content = (after.get k).map Autoscaler.content := by
  rw [Store.map_get_eq, Store.map_get_eq]
  cases stored : before.stored? k with
  | none => rw [rescales.nothingElse k stored, rescales₀.nothingElse k stored]
  | some a =>
      rcases rescales.stored k a stored with ⟨outdated, scale, version, seen, h⟩ | ⟨current, h⟩
      · rcases rescales₀.stored k a stored with ⟨-, scale₀, version₀, seen₀, h₀⟩ | ⟨current, -⟩
        · obtain rfl : scale₀ = scale := Option.some.inj (seen₀.symm.trans seen)
          rw [h, h₀]
          rfl
        · exact nomatch outdated.symm.trans current
      · rcases rescales₀.stored k a stored with ⟨outdated, -⟩ | ⟨-, h₀⟩
        · exact nomatch outdated.symm.trans current
        · rw [h, h₀]

end Rescales

/-- **A pass converges.**  Let the replies of the scaling backend depend on what is asked only, and
let a run of a store reach the site at which a pass begins.

With as many workers as can be counted, observing everything is a complete pass; with more of them
it aborts.  Every complete pass, in whatever order it takes the views, does the following.  An
autoscaler with a complete reply has the numbers of replicas of the reply in its view.  Of no
autoscaler is anything else of the status changed, or anything of the specification.  What was not
outdated is as it was, and so is what was not stored.  The number of statuses that are written is
that of the autoscalers that were outdated, which are those that are rewritten, and the version
grows by it.  Another pass writes nothing and leaves the store as it is, watches included.  A pass
in another order comes to the same apart from the versions of what was outdated. -/
theorem pass_converges (tuning : Tuning) (handled : Bool) (history : List Action)
    (reached : s.store = (Store.create tuning handled).run history) (replies : b.RepliesBy reply)
    (workers : Nat) :
    (∀ now, (Abort.greatestCount < workers → s.observeAll b now workers = .error .tooManyPermits) ∧
      (workers ≤ Abort.greatestCount →
        ∃ n s₁, s.observeAll b now workers = .ok (n, s₁) ∧ s.Passes b workers n s₁)) ∧
    ∀ n s₁, s.Passes b workers n s₁ →
      (∀ k a desired current, s.store.get k = .ok a →
        reply k a.spec.target = .ok ⟨some desired, some current⟩ →
        ∃ v, s₁.store.getView k = .ok v ∧
          v.status.currentReplicas = current ∧ v.status.desiredReplicas = desired) ∧
      (∀ k a, s.store.get k = .ok a → ∃ a₁, s₁.store.get k = .ok a₁ ∧ a₁.spec = a.spec ∧
        a₁.status.conditions = a.status.conditions ∧
        a₁.status.lastScaleTime = a.status.lastScaleTime) ∧
      (∀ k, (∀ a, s.store.get k = .ok a → a.isOutdated reply = false) →
        s₁.store.get k = s.store.get k ∧ s₁.store.getView k = s.store.getView k) ∧
      (∀ k a, s.store.get k = .ok a →
        (s₁.store.get k ≠ s.store.get k ↔ a.isOutdated reply = true)) ∧
      n = (s.store.autoscalers.countP fun a => a.isOutdated reply) ∧
      s₁.store.version = s.store.version + UInt64.ofNat n ∧
      (∀ workers n₂ s₂, s₁.Passes b workers n₂ s₂ → n₂ = 0 ∧ s₂.store = s₁.store) ∧
      ∀ workers n₀ s₀, s.Passes b workers n₀ s₀ →
        n₀ = n ∧ s₀.store.version = s₁.store.version ∧
          ∀ k, (s₀.store.get k).map Autoscaler.content = (s₁.store.get k).map Autoscaler.content := by
  have coherent : s.store.Coherent := reached ▸ Store.coherent_run tuning handled history
  refine ⟨fun now => ⟨observeAll_of_lt b workers now s, observeAll_passes b workers now s⟩,
    fun n s₁ passes => ?_⟩
  have rescales := passes.rescales coherent replies
  have kept (k : Key) (h : ∀ a, s.store.get k = .ok a → a.isOutdated reply = false) :
      s₁.store.get k = s.store.get k := by
    cases stored : s.store.stored? k with
    | none => rw [Store.get_eq, Store.get_eq, stored, rescales.nothingElse k stored]
    | some a => exact (rescales.get_eq_iff stored).mpr (h a (Store.stored?_eq_some_iff.mp stored))
  refine ⟨?_, ?_, ?_, ?_, rescales.count, rescales.version, ?_, ?_⟩
  · intro k a desired current found hreply
    have stored := Store.stored?_eq_some_iff.mpr found
    obtain rfl : a.key = k := Store.key_of_stored? coherent stored
    let scale : TargetScale := ⟨a.key, desired, current, Carrier.encodeReplicas current⟩
    have seen : a.seen? reply = some scale := Autoscaler.seen?_eq_some_iff.mpr ⟨hreply, rfl⟩
    obtain ⟨a₁, left, hspec⟩ : ∃ a₁, s₁.store.stored? a.key = some a₁ ∧ a₁.spec = a.spec := by
      rcases rescales.stored a.key a stored with ⟨-, scale, version, -, left⟩ | ⟨-, left⟩
      · exact ⟨_, left, rfl⟩
      · exact ⟨a, left, rfl⟩
    have seen₁ : a₁.seen? reply = some scale := (Autoscaler.seen?_congr hspec).trans seen
    have hshows : a₁.shown.shows scale = true := by
      have current := rescales.isOutdated_eq_false left
      rw [Autoscaler.isOutdated, seen₁] at current
      simpa using current
    refine ⟨a₁.shown, Store.getView_of_stored? rescales.coherent left, ?_⟩
    simpa [View.shows, scale] using hshows
  · intro k a found
    rcases rescales.stored k a (Store.stored?_eq_some_iff.mpr found) with
      ⟨-, scale, version, -, left⟩ | ⟨-, left⟩
    · exact ⟨_, Store.stored?_eq_some_iff.mp left, rfl, rfl, rfl⟩
    · exact ⟨a, Store.stored?_eq_some_iff.mp left, rfl, rfl, rfl⟩
  · intro k h
    have hget := kept k h
    exact ⟨hget, by
      rw [Store.getView_eq rescales.coherent, Store.getView_eq coherent, hget]⟩
  · intro k a found
    rw [Ne, rescales.get_eq_iff (Store.stored?_eq_some_iff.mpr found), Bool.not_eq_false]
  · intro workers n₂ s₂ passes₂
    have rescales₂ := passes₂.rescales rescales.coherent replies
    have hnone : n₂ = 0 := by
      rw [rescales₂.count, List.countP_eq_zero]
      intro a ha
      rw [Store.autoscalers_eq] at ha
      rw [rescales.isOutdated_eq_false (Store.stored?_of_mem rescales.coherent ha)]
      exact Bool.false_ne_true
    exact ⟨hnone, rescales₂.quiet hnone⟩
  · intro workers n₀ s₀ passes₀
    have rescales₀ := passes₀.rescales coherent replies
    have hsame : n₀ = n := rescales₀.count.trans rescales.count.symm
    refine ⟨hsame, ?_, rescales.content_eq rescales₀⟩
    rw [rescales₀.version, rescales.version, hsame]

/-- At a fresh site, with a backend that reports three replicas. -/
theorem pass_converges_fresh :
    let b := steady ⟨some 3, some 3⟩
    ∃ n s₁, fresh.observeAll b 0 1 = .ok (n, s₁) ∧ n = 1 ∧ s₁.store.version = 2 ∧
      (∃ v, s₁.store.getView ⟨"ns", "a"⟩ = .ok v ∧
        v.status.currentReplicas = 3 ∧ v.status.desiredReplicas = 3) ∧
      ∀ workers n₂ s₂, s₁.Passes b workers n₂ s₂ → n₂ = 0 ∧ s₂.store = s₁.store := by
  intro b
  let scale : Scale := ⟨some 3, some 3⟩
  have replies : b.RepliesBy fun _ _ => .ok scale := fun _ _ _ => rfl
  obtain ⟨total, converges⟩ :=
    pass_converges (s := fresh) ⟨1, .disconnect⟩ false _ rfl replies 1
  obtain ⟨n, s₁, observed, passes⟩ := (total 0).2 (by decide)
  obtain ⟨shown, -, -, -, count, version, again, -⟩ := converges n s₁ passes
  have hcount : n = 1 := count.trans (by decide)
  have hversion : s₁.store.version = 2 := by
    rw [version, hcount]
    decide
  exact ⟨n, s₁, observed, hcount, hversion, shown _ _ 3 3 rfl rfl, again⟩

/-- With more workers than can be counted, no number of written statuses is returned. -/
theorem observeAll_aborts_fresh :
    ¬ ∀ workers : Nat, workers < UInt64.size →
      ∃ n s₁, fresh.observeAll (steady ⟨some 3, some 3⟩) 0 workers = .ok (n, s₁) := by
  intro h
  obtain ⟨n, s₁, observed⟩ := h (2 ^ 61) (by decide)
  rw [observeAll_of_lt _ _ _ _ (by decide)] at observed
  exact nomatch observed

end Site

end Autoscaling

import Autoscaling.Proofs.Control.Journal
import Autoscaling.Proofs.Control.Sampling
import Mathlib.Tactic.Common

/-!
# What a pass asks and reports

In a pass the exchanges about one autoscaler come one after the other, with those about others in
between.  What is asked about an autoscaler, what is reported of it and what is written is determined
by the answers about this one: `Autoscaler.inquiry` are the exchanges, read off the autoscaler as it
is stored in the beginning and the `Answers` about it.  `Site.pass_inquires` says that every complete
pass has such exchanges about every autoscaler, whatever fails.

The invariant is `Pass.Inquires`: the exchanges so far are those of an inquiry that has come as far as
the view has (`Autoscaler.Exchanged`).
-/

namespace Autoscaling

/-- What the backends answer about an autoscaler in a pass, and at what time of day: the scale of its
target, and then the values of its metrics in their order. -/
structure Answers where
  now : UInt64
  scale : Except BackendError Scale
  metrics : List (UInt64 × Except BackendError (List Int64))

namespace Exchange

/-- The warning about what failed, if there is a receiver of events. -/
def warning (heard : Bool) (k : Key) (now : UInt64) (reason : String) (e : ProviderError) :
    List Exchange :=
  if heard then [.event k (.warning now reason e.message)] else []

theorem key_of_mem_warning {heard : Bool} {k : Key} {now : UInt64} {reason : String}
    {e : ProviderError} {exchange : Exchange} (h : exchange ∈ warning heard k now reason e) :
    exchange.key = k := by
  cases heard with
  | false => exact nomatch h
  | true => exact List.mem_singleton.mp h ▸ rfl

end Exchange

namespace Autoscaler

/-- Asking for a metric, and the warning if that failed. -/
def sampling (heard : Bool) (a : Autoscaler) (m : Metric) (now : UInt64)
    (answer : Except BackendError (List Int64)) : List Exchange :=
  .metric m.name a.key (a.spec.metricSettings? m.name) answer ::
    match answer with
    | .error e => Exchange.warning heard a.key now "FailedGetExternalMetric" (.backend e)
    | .ok _ => []

/-- Asking for several metrics, one after the other. -/
def samplings (heard : Bool) (a : Autoscaler) (metrics : List Metric)
    (answers : List (UInt64 × Except BackendError (List Int64))) : List Exchange :=
  (metrics.zip answers).flatMap fun (m, now, answer) => a.sampling heard m now answer

/-- What passes between the hub and the backends about an autoscaler in a pass: it is asked once for
the scale.  If there is none, this is reported, and otherwise it is asked once for each metric, in
their order. -/
def inquiry (heard : Bool) (a : Autoscaler) (answers : Answers) : List Exchange :=
  .scale a.key a.spec.target answers.scale ::
    match a.told answers.scale with
    | .error e => Exchange.warning heard a.key answers.now "FailedGetScale" e
    | .ok _ => a.samplings heard a.spec.metrics answers.metrics

/-- What is left of an autoscaler after a pass that got this answer about its scale.  It is as it was
if no scale was told, or the one that it shows.  Otherwise it has the numbers of replicas that were
told. -/
def Leaves (a : Autoscaler) (answer : Except BackendError Scale)
    (left : Except StateError Autoscaler) : Prop :=
  match a.told answer with
  | .error _ => left = .ok a
  | .ok scale =>
      if a.shown.shows scale then left = .ok a else ∃ version, left = .ok (a.rescaled scale version)

/-- What has passed about an autoscaler, by how far the observation of its view has come. -/
def Exchanged (heard : Bool) (a : Autoscaler) (answers : Answers) :
    Progress → List Exchange → Prop
  | .waiting, exchanges => exchanges = []
  | .sampling scale rest, exchanges => a.told answers.scale = .ok scale ∧
      ∃ sampled remaining, a.spec.metrics = sampled ++ remaining ∧
        rest = remaining.map (View.Metric.of a.spec.name) ∧
        answers.metrics.length = sampled.length ∧
        exchanges = .scale a.key a.spec.target answers.scale ::
          a.samplings heard sampled answers.metrics
  | .done _, exchanges => exchanges = a.inquiry heard answers ∧
      ∀ scale, a.told answers.scale = .ok scale → answers.metrics.length = a.spec.metrics.length

variable {heard : Bool} {a : Autoscaler}

theorem samplings_concat {sampled : List Metric}
    {answers : List (UInt64 × Except BackendError (List Int64))}
    (hlength : answers.length = sampled.length) (m : Metric) (now : UInt64)
    (answer : Except BackendError (List Int64)) :
    a.samplings heard (sampled ++ [m]) (answers ++ [(now, answer)]) =
      a.samplings heard sampled answers ++ a.sampling heard m now answer := by
  rw [samplings, List.zip_append hlength.symm, List.flatMap_append]
  simp [samplings]

theorem key_of_mem_sampling {m : Metric} {now : UInt64}
    {answer : Except BackendError (List Int64)} {exchange : Exchange}
    (h : exchange ∈ a.sampling heard m now answer) : exchange.key = a.key := by
  rcases List.mem_cons.mp h with rfl | h
  · rfl
  · cases answer with
    | error e => exact Exchange.key_of_mem_warning h
    | ok values => exact nomatch h

namespace Standing

variable {reply reply₁ : Key → Option Settings → Except BackendError Scale} {progress : Progress}
  {stored : Option Autoscaler}

/-- Before its observation has come to an end, an autoscaler is stored as it was. -/
theorem stored_eq (standing : a.Standing reply progress stored) (h : progress.isDone = false) :
    stored = some a := by
  cases progress with
  | waiting => exact standing
  | sampling scale rest => exact standing.1
  | done observation => exact nomatch h

/-- Only the reply about the autoscaler counts, and it does not count while the view is waiting. -/
theorem congr (standing : a.Standing reply progress stored)
    (h : progress ≠ .waiting → reply₁ a.key a.spec.target = reply a.key a.spec.target) :
    a.Standing reply₁ progress stored := by
  have hseen (h : reply₁ a.key a.spec.target = reply a.key a.spec.target) :
      a.seen? reply₁ = a.seen? reply := by rw [seen?_eq, seen?_eq, h]
  cases progress with
  | waiting => exact standing
  | sampling scale rest =>
      rw [Standing, hseen (h (by simp))]
      exact standing
  | done observation =>
      have houtdated : a.isOutdated reply₁ = a.isOutdated reply := by
        rw [isOutdated, isOutdated, hseen (h (by simp))]
      cases observation with
      | written =>
          rw [Standing, houtdated, hseen (h (by simp))]
          exact standing
      | failed => exact ⟨standing.1, houtdated.trans standing.2⟩
      | unchanged => exact ⟨standing.1, houtdated.trans standing.2⟩

end Standing

end Autoscaler

/-! ## One view -/

namespace Site

variable {β : Type} {b : Backends β}

theorem journal_warn (b : Backends β) (now : UInt64) (v : View) (reason : String) (e : ProviderError)
    (s : Site (β × List Exchange)) : (s.warn b.noting now v reason e).journal =
      s.journal ++ Exchange.warning b.events.isSome v.key now reason e := by
  simp only [warn, record, Backends.noting]
  cases b.events with
  | none => exact (List.append_nil _).symm
  | some client => rfl

/-- Asked for the scale of a stored autoscaler, the scaling backend is asked once. -/
theorem getScale_noting {s : Site (β × List Exchange)} {a : Autoscaler}
    (stored : s.store.stored? a.key = some a) :
    let answer := (b.noting.scaling.getScale a.key a.spec.target s.outside).1
    ∃ s₁, getScale b.noting.scaling a.key s = (a.told answer, s₁) ∧
      s₁.journal = s.journal ++ [.scale a.key a.spec.target answer] :=
  ⟨_, getScale_of_stored? b.noting.scaling stored, rfl⟩

/-- Asked for a metric of a stored autoscaler as its view shows it, the metrics backend is asked
once. -/
theorem externalMetric_noting {s : Site (β × List Exchange)} {a : Autoscaler}
    (stored : s.store.stored? a.key = some a) (m : Metric) :
    ∃ answer s₁, externalMetric b.noting.metrics m.name a.shown.ns
        (View.Metric.of a.spec.name m).selector s = .ok (answer.mapError .backend, s₁) ∧
      s₁.journal =
        s.journal ++ [.metric m.name a.key (a.spec.metricSettings? m.name) answer] := by
  have hanswer := externalMetric_of_stored? b.noting.metrics stored m
  rw [call_eq] at hanswer
  exact ⟨_, _, hanswer, rfl⟩

/-- What the next question about an autoscaler adds to the journal, and to what has passed about it:
these are the answers then. -/
structure Adds (b : Backends β) (a : Autoscaler) (exchanges : List Exchange) (answers : Answers)
    (more : List Exchange) (s : Site (β × List Exchange)) (next : Progress × Site (β × List Exchange)) :
    Prop where
  journal : next.2.journal = s.journal ++ more
  about : ∀ exchange ∈ more, exchange.key = a.key
  exchanged : a.Exchanged b.events.isSome answers next.1 (exchanges ++ more)

section

variable {s : Site (β × List Exchange)} {a : Autoscaler} {answers : Answers}
  {exchanges : List Exchange}

theorem adds_waiting (now : UInt64) (stored : s.store.stored? a.key = some a) :
    let answer := (b.noting.scaling.getScale a.key a.spec.target s.outside).1
    ∃ more, Adds b a [] ⟨now, answer, []⟩ more s (s.further b.noting now a.shown .waiting) := by
  intro answer
  obtain ⟨s₁, hscale, hjournal⟩ := getScale_noting (b := b) stored
  let asked : Exchange := .scale a.key a.spec.target answer
  cases htold : a.told answer with
  | error e =>
      let warned := Exchange.warning b.events.isSome a.key now "FailedGetScale" e
      have hnext : s.further b.noting now a.shown .waiting =
          (.done .failed, s₁.warn b.noting now a.shown "FailedGetScale" e) := by
        rw [further, show a.shown.key = a.key from rfl, hscale, htold]
      rw [hnext]
      refine ⟨asked :: warned, ?_, ?_, ?_, fun scale h => ?_⟩
      · rw [journal_warn, hjournal, List.append_assoc]
        rfl
      · exact List.forall_mem_cons.mpr ⟨rfl, fun _ => Exchange.key_of_mem_warning⟩
      · simp only [Autoscaler.inquiry, htold]
        rfl
      · cases htold.symm.trans h
  | ok scale =>
      have hnext : s.further b.noting now a.shown .waiting =
          (.sampling scale a.shown.spec.metrics, s₁) := by
        rw [further, show a.shown.key = a.key from rfl, hscale, htold]
      rw [hnext]
      exact ⟨[asked], hjournal, List.forall_mem_singleton.mpr rfl,
        htold, [], a.spec.metrics, rfl, rfl, rfl, rfl⟩

/-- One metric after the other is asked for, and then nothing more. -/
theorem adds_sampling (now : UInt64) (stored : s.store.stored? a.key = some a) {scale : TargetScale}
    {rest : List View.Metric}
    (exchanged : a.Exchanged b.events.isSome answers (.sampling scale rest) exchanges) :
    ∃ answers₁ more, answers₁.scale = answers.scale ∧
      Adds b a exchanges answers₁ more s (s.further b.noting now a.shown (.sampling scale rest)) := by
  obtain ⟨htold, sampled, remaining, hmetrics, rfl, hlength, rfl⟩ := exchanged
  cases remaining with
  | nil =>
      rw [List.append_nil] at hmetrics
      have hjournal : (writeBack b.noting a.shown scale s).2.journal = s.journal ++ [] := by
        rw [writeBack_noting, List.append_nil]
        rfl
      refine ⟨answers, [], rfl, hjournal, nofun, ?_, fun _ _ => hmetrics ▸ hlength⟩
      simp only [Autoscaler.inquiry, htold, hmetrics, List.append_nil]
  | cons m remaining =>
      obtain ⟨answer, s₁, hanswer, hjournal⟩ := externalMetric_noting (b := b) stored m
      let more := a.sampling b.events.isSome m now answer
      let left := remaining.map (View.Metric.of a.spec.name)
      obtain ⟨s₂, hnext, hjournal₂⟩ : ∃ s₂, s.further b.noting now a.shown
          (.sampling scale ((m :: remaining).map (View.Metric.of a.spec.name))) =
            (.sampling scale left, s₂) ∧ s₂.journal = s.journal ++ more := by
        have hname : (View.Metric.of a.spec.name m).name = m.name := rfl
        cases answer with
        | ok values =>
            refine ⟨s₁, ?_, hjournal⟩
            simp only [List.map_cons, further, hname, hanswer]
            rfl
        | error e =>
            refine ⟨s₁.warn b.noting now a.shown "FailedGetExternalMetric" (.backend e), ?_, ?_⟩
            · simp only [List.map_cons, further, hname, hanswer]
              rfl
            · rw [journal_warn, hjournal, List.append_assoc]
              rfl
      rw [hnext]
      refine ⟨⟨answers.now, answers.scale, answers.metrics ++ [(now, answer)]⟩, more, rfl,
        hjournal₂, fun _ => Autoscaler.key_of_mem_sampling, htold, sampled ++ [m], remaining, ?_,
        rfl, ?_, ?_⟩
      · rw [hmetrics, List.append_assoc, List.singleton_append]
      · simp only [List.length_append, hlength, List.length_singleton]
      · rw [Autoscaler.samplings_concat hlength, List.cons_append]

/-- Taken a question further, a view adds to the journal what is asked about it next.  While it is
waiting, that is the scale, and afterwards the answer about the scale stays. -/
theorem exists_adds (now : UInt64) {progress : Progress}
    (stored : progress.isDone = false → s.store.stored? a.key = some a)
    (exchanged : a.Exchanged b.events.isSome answers progress exchanges) :
    ∃ answers₁ more,
      Adds b a exchanges answers₁ more s (s.further b.noting now a.shown progress) ∧
      (progress = .waiting →
        (b.noting.scaling.getScale a.key a.spec.target s.outside).1 = answers₁.scale) ∧
      (progress ≠ .waiting → answers₁.scale = answers.scale) := by
  cases progress with
  | waiting =>
      obtain rfl : exchanges = [] := exchanged
      obtain ⟨more, adds⟩ := adds_waiting (b := b) now (stored rfl)
      exact ⟨_, more, adds, fun _ => rfl, fun h => absurd rfl h⟩
  | sampling scale rest =>
      obtain ⟨answers₁, more, kept, adds⟩ := adds_sampling now (stored rfl) exchanged
      exact ⟨answers₁, more, adds, nofun, fun _ => kept⟩
  | done observation =>
      have adds : Adds b a exchanges answers [] s (.done observation, s) :=
        ⟨(List.append_nil _).symm, nofun, (List.append_nil exchanges).symm ▸ exchanged⟩
      exact ⟨answers, [], adds, nofun, fun _ => rfl⟩

end

end Site

/-! ## A whole pass -/

namespace Pass

variable {β : Type} {b : Backends β} {workers : Nat} {s₀ : Store} {answers : Key → Answers}

/-- A pass over what a store lists, with a journal: it stands as it should with these answers, and
what has passed about each autoscaler goes with them. -/
structure Inquires (b : Backends β) (s₀ : Store) (answers : Key → Answers)
    (p : Pass (β × List Exchange)) : Prop where
  holds : p.Holds (fun k _ => (answers k).scale) s₀
  exchanged : ∀ a progress, s₀.stored? a.key = some a → (a.shown, progress) ∈ p.turns →
    a.Exchanged b.events.isSome (answers a.key) progress (Exchange.about a.key p.site.journal)
  ofStored : ∀ exchange ∈ p.site.journal, ∃ a, s₀.stored? exchange.key = some a

theorem inquires_start {s : Site β} (coherent : s.store.Coherent) (answers : Key → Answers) :
    (start (s.withJournal [])).Inquires b s.store answers := by
  refine ⟨holds_start (s := s.withJournal []) coherent, fun a progress _ hturn => ?_, nofun⟩
  obtain ⟨v, -, hv⟩ := List.mem_map.mp hturn
  obtain ⟨-, rfl⟩ := Prod.mk.inj hv
  rfl

/-- What is asked about one autoscaler leaves what has passed about the others as it is. -/
theorem Inquires.step (coherent₀ : s₀.Coherent) {p p' : Pass (β × List Exchange)}
    (inquires : p.Inquires b s₀ answers) (step : Step b.noting workers p p') :
    ∃ answers', p'.Inquires b s₀ answers' := by
  obtain @⟨now, s, before, after, v, progress, -⟩ := step
  have holds := inquires.holds
  have hturn : (v, progress) ∈ before ++ (v, progress) :: after :=
    List.mem_append_right _ List.mem_cons_self
  obtain ⟨a, found, rfl⟩ :=
    Store.exists_of_mem_list coherent₀ (holds.listed ▸ List.mem_map_of_mem hturn)
  have hstored : s₀.stored? a.key = some a := Store.stored?_eq_some_iff.mpr found
  have standing := holds.standing a progress hstored hturn
  obtain ⟨answers₁, more, ⟨hjournal, hkeys, exchanged⟩, answered, kept⟩ :=
    Site.exists_adds now standing.stored_eq (inquires.exchanged a progress hstored hturn)
  -- the answers are those so far, with what was answered now
  let answers' := Function.update answers a.key answers₁
  have hself : answers' a.key = answers₁ := Function.update_self ..
  have hother {k : Key} (h : k ≠ a.key) : answers' k = answers k := Function.update_of_ne h ..
  have holds' : (⟨s, before ++ (a.shown, progress) :: after⟩ : Pass (β × List Exchange)).Holds
      (fun k _ => (answers' k).scale) s₀ :=
    { holds with
      standing := forall_turns coherent₀ hstored holds.listed
        (standing.congr fun h => hself ▸ kept h) fun a₀ progress₀ stored₀ hkey hturn₀ =>
          (holds.standing a₀ progress₀ stored₀ hturn₀).congr fun _ => by rw [hother hkey] }
  refine ⟨answers', holds'.further coherent₀ now hstored fun h => hself ▸ answered h, ?_, ?_⟩
  · refine forall_turns coherent₀ hstored holds.listed ?_ fun a₀ progress₀ stored₀ hkey hturn₀ => ?_
    · rw [hself, hjournal, Exchange.about_append, Exchange.about_of_forall hkeys]
      exact exchanged
    · have hnone : Exchange.about a₀.key more = [] :=
        Exchange.about_of_forall_ne fun exchange h heq => hkey (heq.symm.trans (hkeys exchange h))
      rw [hother hkey, hjournal, Exchange.about_append, hnone, List.append_nil]
      exact inquires.exchanged a₀ progress₀ stored₀ hturn₀
  · intro exchange h
    rw [hjournal, List.mem_append] at h
    rcases h with h | h
    · exact inquires.ofStored exchange h
    · exact ⟨a, hkeys exchange h ▸ hstored⟩

theorem Inquires.run (coherent₀ : s₀.Coherent) {p p' : Pass (β × List Exchange)}
    (inquires : p.Inquires b s₀ answers)
    (run : Relation.ReflTransGen (Step b.noting workers) p p') :
    ∃ answers', p'.Inquires b s₀ answers' := by
  induction run with
  | refl => exact ⟨answers, inquires⟩
  | tail _ step ih =>
      obtain ⟨answers₁, inquires₁⟩ := ih
      exact inquires₁.step coherent₀ step

end Pass

namespace Autoscaler

variable {a : Autoscaler} {answer : Except BackendError Scale}

/-- An outdated autoscaler is left with what was seen of it, any other one as it was. -/
theorem leaves_of_final {reply : Key → Option Settings → Except BackendError Scale} {store : Store}
    (hreply : reply a.key a.spec.target = answer)
    (final : (a.isOutdated reply = true ∧ ∃ scale version, a.seen? reply = some scale ∧
        store.stored? a.key = some (a.rescaled scale version)) ∨
      a.isOutdated reply = false ∧ store.stored? a.key = some a) :
    a.Leaves answer (store.get a.key) := by
  have hseen : a.seen? reply = (a.told answer).toOption := hreply ▸ a.seen?_eq reply
  rw [isOutdated, hseen] at final
  rw [Leaves, Store.get_eq]
  cases htold : a.told answer with
  | error e =>
      rw [htold] at final
      rcases final with ⟨h, -⟩ | ⟨-, left⟩
      · cases h
      · rw [left]
  | ok scale =>
      simp only [htold, Except.toOption] at final ⊢
      rcases final with ⟨h, scale₀, version, hscale, left⟩ | ⟨h, left⟩
      · obtain rfl : scale = scale₀ := Option.some.inj hscale
        rw [left, if_neg (by simpa using h)]
        exact ⟨version, rfl⟩
      · rw [left, if_pos (by simpa using h)]

/-- What is left differs between passes with the same answer in its version only. -/
theorem Leaves.content_eq {left left₀ : Except StateError Autoscaler} (h : a.Leaves answer left)
    (h₀ : a.Leaves answer left₀) : left₀.map content = left.map content := by
  rw [Leaves] at h h₀
  cases htold : a.told answer with
  | error e =>
      simp only [htold] at h h₀
      rw [h, h₀]
  | ok scale =>
      simp only [htold] at h h₀
      split_ifs at h h₀
      · rw [h, h₀]
      · obtain ⟨version, rfl⟩ := h
        obtain ⟨version₀, rfl⟩ := h₀
        rfl

end Autoscaler

namespace Site

/-- What a complete pass comes to that makes so many writes and has such a journal, where these are
the answers about each autoscaler. -/
structure Inquires (heard : Bool) (before after : Store) (n : Nat) (journal : List Exchange)
    (answers : Key → Answers) : Prop where
  asked : ∀ k a, before.get k = .ok a →
    Exchange.about k journal = a.inquiry heard (answers k)
  /-- if a scale was told, every metric was answered, one way or another -/
  answered : ∀ k a scale, before.get k = .ok a → a.told (answers k).scale = .ok scale →
    (answers k).metrics.length = a.spec.metrics.length
  leaves : ∀ k a, before.get k = .ok a → a.Leaves (answers k).scale (after.get k)
  /-- nothing is asked or reported about what is not stored -/
  ofStored : ∀ exchange ∈ journal, ∃ a, before.get exchange.key = .ok a
  nothingElse : ∀ k e, before.get k = .error e → after.get k = .error e
  count : n = before.autoscalers.countP fun a => a.isOutdated fun k _ => (answers k).scale
  version : after.version = before.version + UInt64.ofNat n

variable {β : Type} {b : Backends β} {workers : Nat}

/-- Every complete pass inquires. -/
theorem Passes.inquires {s s₁ : Site β} {n : Nat} {journal : List Exchange}
    (coherent : s.store.Coherent)
    (passes : (s.withJournal []).Passes b.noting workers n (s₁.withJournal journal)) :
    ∃ answers, Inquires b.events.isSome s.store s₁.store n journal answers := by
  obtain ⟨turns, run, finished, rfl⟩ := passes
  have started := Pass.inquires_start (b := b) coherent fun _ => ⟨0, .ok default, []⟩
  obtain ⟨answers, inquires⟩ := started.run coherent run
  have holds := inquires.holds
  -- the view of a stored autoscaler was listed, and its observation has come to its end
  have exchanged (a : Autoscaler) (stored : s.store.stored? a.key = some a) :
      Exchange.about a.key journal = a.inquiry b.events.isSome (answers a.key) ∧
        ∀ scale, a.told (answers a.key).scale = .ok scale →
          (answers a.key).metrics.length = a.spec.metrics.length := by
    obtain ⟨progress, hturn⟩ := holds.exists_turn coherent stored
    have hdone := finished _ hturn
    have h := inquires.exchanged a progress stored hturn
    cases progress with
    | waiting => exact nomatch hdone
    | sampling scale rest => exact nomatch hdone
    | done observation => exact h
  have keyed {k : Key} {a : Autoscaler} (found : s.store.get k = .ok a) :
      s.store.stored? a.key = some a ∧ a.key = k := by
    have stored := Store.stored?_eq_some_iff.mpr found
    have hkey : a.key = k := Store.key_of_stored? coherent stored
    exact ⟨hkey ▸ stored, hkey⟩
  refine ⟨answers, fun k a found => ?_, fun k a scale found => ?_, fun k a found => ?_,
    fun exchange h => ?_, fun k e missing => ?_, holds.written_eq coherent finished, holds.version⟩
  · obtain ⟨stored, rfl⟩ := keyed found
    exact (exchanged a stored).1
  · obtain ⟨stored, rfl⟩ := keyed found
    exact (exchanged a stored).2 scale
  · obtain ⟨stored, rfl⟩ := keyed found
    exact Autoscaler.leaves_of_final rfl (holds.final coherent finished stored)
  · obtain ⟨a, stored⟩ := inquires.ofStored exchange h
    exact ⟨a, Store.stored?_eq_some_iff.mp stored⟩
  · rw [Store.get_eq] at missing ⊢
    cases stored : s.store.stored? k with
    | some a =>
        rw [stored] at missing
        cases missing
    | none =>
        have hleft : s₁.store.stored? k = none := holds.nothingElse k stored
        rw [stored] at missing
        rw [hleft]
        exact missing

/-- At a fresh site, with a metrics backend that is down: this is reported, and the scale is written
all the same. -/
example :
    let down : BackendError := ⟨["down"]⟩
    let b : Backends Unit :=
      { steady ⟨some 3, some 3⟩ with
        metrics := ⟨fun _ _ _ s => (.error down, s)⟩
        events := some ⟨fun _ _ s => (.ok (), s)⟩ }
    let k : Key := ⟨"ns", "a"⟩
    ((fresh.withJournal []).observeAll b.noting 60 1).map (fun passed => (passed.1, passed.2.journal)) =
      .ok (1, [.scale k none (.ok ⟨some 3, some 3⟩), .metric "load" k none (.error down),
        .event k (.warning 60 "FailedGetExternalMetric" "backend error: down")]) := rfl

end Site

end Autoscaling

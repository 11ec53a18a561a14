import Autoscaling.Control.Observer
import Autoscaling.Proofs.Store.Representation
import Autoscaling.Proofs.View.Status
import Mathlib.Tactic.Common

/-!
# Observations of what changes meanwhile

An observation holds a view while it waits for the backends, and others go on working with the
store.  An `Interlude` is what they do while it waits, and `Site.observeAmid` is an observation with
an interlude before its first question and after every answer.  Without interludes it is
`Site.observe`.

The view that an observation writes in the end is the listed one, with other numbers of replicas.
The sink takes the whole status of it and does not ask how old it is.  So the conditions and the
scaling time that an observation leaves are those that were listed, not those that were stored last
(`Site.observation_writes_listed`), and what the engine wrote of them meanwhile is lost
(`Site.observation_loses_status`).
-/

namespace Autoscaling

/-- What others do at a site meanwhile: actions on the store, and anything outside of it. -/
structure Interlude (β : Type) where
  effect : Site β → Site β
  acts : ∀ s, ∃ actions, (effect s).store = s.store.run actions

namespace Site

variable {β : Type} {b : Backends β} {now : UInt64} {v : View}

/-! ## What becomes of the store -/

@[simp] theorem store_tell (storage : StorageClient β) (s : Site β) (n : Notification) :
    (s.tell storage n).store = s.store := by
  cases n <;> rfl

theorem store_foldl_tell (storage : StorageClient β) (notifications : List Notification)
    (s : Site β) : (notifications.foldl (tell storage) s).store = s.store := by
  induction notifications generalizing s with
  | nil => rfl
  | cons n rest ih => rw [List.foldl_cons, ih, store_tell]

/-- To the store, writing a status is an action, whoever is told of it. -/
theorem store_updateStatus (storage : StorageClient β) (sink : String) (v : View) (s : Site β) :
    (s.updateStatus storage sink v).2.store = s.store.act (.mutate (.updateStatus sink v)) := by
  simp only [updateStatus, Store.act, Store.mutate]
  cases s.store.updateStatus sink v with
  | ok commit => rw [store_foldl_tell]
  | error e => rfl

/-- A call changes what is outside only. -/
theorem call_eq {α : Type} (operation : Operation β BackendError α) (s : Site β) :
    call operation s = ((operation s.outside).1.mapError .backend,
      { s with outside := (operation s.outside).2 }) := by
  unfold call
  rcases operation s.outside with ⟨_ | _, x⟩ <;> rfl

@[simp] theorem store_call {α : Type} (operation : Operation β BackendError α) (s : Site β) :
    (call operation s).2.store = s.store := by
  rw [call_eq]

@[simp] theorem snd_lookup (k : Key) (s : Site β) : (lookup k s).2 = s := by
  unfold lookup
  split <;> rfl

@[simp] theorem store_record (events : Option (EventClient β)) (k : Key) (event : Event)
    (s : Site β) : (s.record events k event).store = s.store := by
  cases events <;> rfl

@[simp] theorem store_warn (reason : String) (e : ProviderError) (s : Site β) :
    (s.warn b now v reason e).store = s.store :=
  store_record ..

@[simp] theorem store_metricOf (metrics : MetricsClient β) (metric : String) (k : Key)
    (s : Site β) : (metricOf metrics metric k s).2.store = s.store := by
  have hlookup := snd_lookup k s
  unfold metricOf
  split
  · next h =>
      rw [h] at hlookup
      exact congrArg store hlookup
  · next h =>
      rw [h] at hlookup
      rw [store_call]
      exact congrArg store hlookup

theorem store_externalMetric {metrics : MetricsClient β} {metric ns : String}
    {selector : Selector} {s s₁ : Site β} {answer : Except ProviderError (List Int64)}
    (h : externalMetric metrics metric ns selector s = .ok (answer, s₁)) :
    s₁.store = s.store := by
  obtain ⟨name, -, h⟩ := bind_eq_ok_iff.mp h
  have hstore := store_metricOf metrics metric ⟨ns, name⟩ s
  rw [Except.ok.inj h] at hstore
  exact hstore

@[simp] theorem store_getScale (scaling : ScalingClient β) (k : Key) (s : Site β) :
    (getScale scaling k s).2.store = s.store := by
  have hlookup := snd_lookup k s
  unfold getScale
  split
  · next h =>
      rw [h] at hlookup
      exact congrArg store hlookup
  · next a s₁ h =>
      rw [h] at hlookup
      have hcall : (call (scaling.getScale k a.spec.target) s₁).2.store = s.store :=
        (store_call ..).trans (congrArg store hlookup)
      split
      · next h =>
          rw [h] at hcall
          exact hcall
      · next h =>
          rw [h] at hcall
          exact hcall

/-! ## Observing while others work -/

/-- The site after the first of the interludes that are still to come. -/
def meanwhile (interludes : List (Interlude β)) (s : Site β) : Site β :=
  match interludes with
  | [] => s
  | interlude :: _ => interlude.effect s

@[simp] theorem meanwhile_nil (s : Site β) : s.meanwhile [] = s := rfl

/-- Sample metrics of a view, with an interlude after each of them. -/
def sampleAmid (b : Backends β) (now : UInt64) (v : View) : List View.Metric →
    List (Interlude β) → Site β → Option Unit × Site β
  | [], _, s => (some (), s)
  | m :: rest, interludes, s =>
      match externalMetric b.metrics m.name v.ns m.selector s with
      | .error _ => (none, s)
      | .ok (.ok _, s) => sampleAmid b now v rest interludes.tail (s.meanwhile interludes)
      | .ok (.error e, s) =>
          sampleAmid b now v rest interludes.tail
            ((s.warn b now v "FailedGetExternalMetric" e).meanwhile interludes)

/-- Observe the autoscaler of a view, with an interlude before the scale is asked for, one after
the answer and one after each metric, as long as there are interludes. -/
def observeAmid (b : Backends β) (now : UInt64) (v : View) (interludes : List (Interlude β))
    (s : Site β) : Observation × Site β :=
  match getScale b.scaling v.key (s.meanwhile interludes) with
  | (.error e, s) => (.failed, s.warn b now v "FailedGetScale" e)
  | (.ok scale, s) =>
      match sampleAmid b now v v.spec.metrics interludes.tail.tail
          (s.meanwhile interludes.tail) with
      | (none, s) => (.failed, s)
      | (some (), s) => writeBack b v scale s

theorem sampleAmid_nil (metrics : List View.Metric) (s : Site β) :
    sampleAmid b now v metrics [] s = sample b now v metrics s := by
  induction metrics generalizing s with
  | nil => rfl
  | cons m rest ih =>
      rw [sampleAmid, sample]
      rcases externalMetric b.metrics m.name v.ns m.selector s with _ | ⟨_ | _, s₁⟩
      · rfl
      · exact ih _
      · exact ih _

theorem observeAmid_nil (s : Site β) : s.observeAmid b now v [] = s.observe b now v := by
  rw [observeAmid, meanwhile_nil, observe]
  rcases getScale b.scaling v.key s with ⟨_ | scale, s₁⟩
  · rfl
  · let finish : Option Unit × Site β → Observation × Site β
      | (none, s) => (.failed, s)
      | (some (), s) => writeBack b v scale s
    exact congrArg finish (sampleAmid_nil v.spec.metrics s₁)

/-- One site has the store of another one after some actions. -/
def Reaches (s s₁ : Site β) : Prop := ∃ actions, s₁.store = s.store.run actions

namespace Reaches

variable {s s₁ s₂ : Site β}

theorem of_store_eq (h : s₁.store = s.store) : s.Reaches s₁ := ⟨[], h⟩

theorem trans (first : s.Reaches s₁) (second : s₁.Reaches s₂) : s.Reaches s₂ := by
  obtain ⟨before, hbefore⟩ := first
  obtain ⟨after, hafter⟩ := second
  exact ⟨before ++ after, by rw [Store.run_append, ← hbefore, hafter]⟩

theorem coherent (h : s.Reaches s₁) (coherent : s.store.Coherent) : s₁.store.Coherent := by
  obtain ⟨actions, hstore⟩ := h
  rw [hstore]
  exact coherent.run actions

end Reaches

theorem reaches_meanwhile (interludes : List (Interlude β)) (s : Site β) :
    s.Reaches (s.meanwhile interludes) := by
  cases interludes with
  | nil => exact .of_store_eq rfl
  | cons interlude rest => exact interlude.acts s

theorem reaches_sampleAmid (metrics : List View.Metric) (interludes : List (Interlude β))
    (s : Site β) : s.Reaches (sampleAmid b now v metrics interludes s).2 := by
  induction metrics generalizing interludes s with
  | nil => exact .of_store_eq rfl
  | cons m rest ih =>
      rw [sampleAmid]
      split
      · exact .of_store_eq rfl
      · next h =>
          have asked := Reaches.of_store_eq (store_externalMetric h)
          exact asked.trans ((reaches_meanwhile ..).trans (ih ..))
      · next e s₁ h =>
          have asked := Reaches.of_store_eq (store_externalMetric h)
          have warned : s₁.Reaches (s₁.warn b now v "FailedGetExternalMetric" e) :=
            .of_store_eq (store_warn ..)
          exact asked.trans (warned.trans ((reaches_meanwhile ..).trans (ih ..)))

/-- An observation that writes has been told the scale, and writes what it was told at a site that
the others have brought about meanwhile. -/
theorem exists_writeBack_of_observeAmid {interludes : List (Interlude β)} {s s₁ : Site β}
    (h : s.observeAmid b now v interludes = (.written, s₁)) :
    ∃ scale s₀, (getScale b.scaling v.key (s.meanwhile interludes)).1 = .ok scale ∧
      s.Reaches s₀ ∧ writeBack b v scale s₀ = (.written, s₁) := by
  have asked := Reaches.of_store_eq
    (store_getScale b.scaling v.key (s.meanwhile interludes))
  unfold observeAmid at h
  split at h
  · cases h
  · next scale s₀ hscale =>
      let s₁ := s₀.meanwhile interludes.tail
      have sampled : s₁.Reaches
          (sampleAmid b now v v.spec.metrics interludes.tail.tail s₁).2 :=
        reaches_sampleAmid ..
      rw [hscale] at asked ⊢
      split at h
      · cases h
      · next s₂ hsample =>
          rw [hsample] at sampled
          have reached := ((reaches_meanwhile interludes s).trans asked).trans
            ((reaches_meanwhile interludes.tail s₀).trans sampled)
          exact ⟨scale, s₂, rfl, reached, h⟩

/-! ## What is left in the end -/

theorem updateStatus_of_writeBack {scale : TargetScale} {s s₁ : Site β}
    (h : writeBack b v scale s = (.written, s₁)) :
    ∃ answer, s.updateStatus b.storage v.ns (v.withScale scale) = (.ok answer, s₁) := by
  unfold writeBack at h
  split_ifs at h
  · cases h
  · split at h
    · next answer s₂ hupdate =>
        cases h
        exact ⟨answer, hupdate⟩
    · cases h

theorem exists_commit_of_updateStatus {storage : StorageClient β} {sink : String} {v answer : View}
    {s s₁ : Site β} (h : s.updateStatus storage sink v = (.ok answer, s₁)) :
    ∃ c, s.store.mutate (.updateStatus sink v) = .ok c ∧ s₁.store = c.store := by
  unfold updateStatus at h
  split at h
  · next c accepted =>
      obtain ⟨-, rfl⟩ := Prod.mk.inj h
      exact ⟨c, accepted, store_foldl_tell ..⟩
  · cases h

/-- The view that is written carries the listed status, with the numbers of replicas that were
observed. -/
theorem toStatus_withScale {a : Autoscaler} (hv : v = a.shown) (scale : TargetScale) :
    (v.withScale scale).status.toStatus =
      .ok ⟨some scale.current, scale.desired, a.status.conditions, a.status.lastScaleTime⟩ := by
  subst hv
  exact View.Status.toStatus_of a.status scale.current scale.desired

/-- What is written back is the whole status of the view, and nothing else of it. -/
theorem content_of_writeBack {scale : TargetScale} {status : Status} {s s₁ : Site β}
    (coherent : s.store.Coherent) (hstatus : (v.withScale scale).status.toStatus = .ok status)
    (h : writeBack b v scale s = (.written, s₁)) :
    ∃ last left, s.store.get v.key = .ok last ∧ s₁.store.get v.key = .ok left ∧
      left.content = (last.spec, status) := by
  obtain ⟨answer, hupdate⟩ := updateStatus_of_writeBack h
  obtain ⟨c, accepted, hstore⟩ := exists_commit_of_updateStatus hupdate
  obtain ⟨last, status₀, hstatus₀, hlast, hcontent⟩ :=
    (coherent.commits accepted).content_updateStatus
  obtain ⟨left, hleft, hcontent⟩ := Option.map_eq_some_iff.mp hcontent
  rw [← hstore] at hleft
  have hsame : status₀ = status := Except.ok.inj (hstatus₀.symm.trans hstatus)
  exact ⟨last, left, Store.stored?_eq_some_iff.mp hlast, Store.stored?_eq_some_iff.mp hleft,
    hsame ▸ hcontent⟩

/-- **An observation writes what was listed.**  Let a view be listed in a store that a run reaches,
and let others do whatever they like while the view is observed.  If the observation writes in the
end, then it was told a scale, and it replaces the status of what is stored when it writes.  The
numbers of replicas are those of the scale, but the conditions and the scaling time are those that
were stored when the view was listed, whatever was written since. -/
theorem observation_writes_listed (tuning : Tuning) (handled : Bool) (history : List Action)
    {site : Site β} (reached : site.store = (Store.create tuning handled).run history) {v : View}
    (listed : v ∈ site.store.list everyNamespace) (b : Backends β) (now : UInt64)
    (interludes : List (Interlude β))
    (written : (site.observeAmid b now v interludes).1 = .written) :
    ∃ scale first s last left,
      (getScale b.scaling v.key (site.meanwhile interludes)).1 = .ok scale ∧
      site.store.get v.key = .ok first ∧
      site.Reaches s ∧ writeBack b v scale s = site.observeAmid b now v interludes ∧
      s.store.get v.key = .ok last ∧
      (site.observeAmid b now v interludes).2.store.get v.key = .ok left ∧
      left.content = (last.spec,
        ⟨some scale.current, scale.desired, first.status.conditions, first.status.lastScaleTime⟩)
    := by
  have coherent : site.store.Coherent := reached ▸ Store.coherent_run tuning handled history
  obtain ⟨first, hfirst, hv⟩ := Store.exists_of_mem_list coherent listed
  have hwritten : site.observeAmid b now v interludes =
      (.written, (site.observeAmid b now v interludes).2) := Prod.ext written rfl
  obtain ⟨scale, s, hscale, later, hwrite⟩ := exists_writeBack_of_observeAmid hwritten
  obtain ⟨last, left, hlast, hleft, hcontent⟩ :=
    content_of_writeBack (later.coherent coherent) (toStatus_withScale hv scale) hwrite
  exact ⟨scale, first, s, last, left, hscale, hfirst, later, hwrite.trans hwritten.symm, hlast,
    hleft, hcontent⟩

/-- Someone writes the status of a view back through the sink of a namespace. -/
def writing (storage : StorageClient β) (sink : String) (v : View) : Interlude β where
  effect site := (site.updateStatus storage sink v).2
  acts site := ⟨[.mutate (.updateStatus sink v)], site.store_updateStatus storage sink v⟩

/-- Backends that declare nothing, measure nothing and always report the same scale. -/
def steady (scale : Scale) : Backends Unit where
  storage := ⟨fun s => (.ok [], s), fun _ => id, none⟩
  metrics := ⟨fun _ _ _ s => (.ok [], s)⟩
  scaling := ⟨fun _ _ s => (.ok scale, s), fun _ _ _ s => (.ok (), s)⟩
  events := none

/-- A site with one autoscaler, of which no status was written yet. -/
def fresh : Site Unit :=
  let spec : Spec := ⟨"ns", "a", none, 5, [⟨"load", 1, none⟩], none, none⟩
  ⟨(Store.create ⟨1, .disconnect⟩ false).run [.mutate (.add (.declared spec))], (), []⟩

/-- At a fresh site, with a status that is written while the view is observed. -/
theorem observation_writes_listed_fresh :
    let b := steady ⟨some 3, some 3⟩
    let v := (fresh.store.list everyNamespace).headD default
    let engine : View :=
      { v with status := ⟨1, 1, [⟨"ScalingActive", "True", 60, "ready", ""⟩], some 60⟩ }
    let interlude : Interlude Unit := writing b.storage "ns" engine
    v ∈ fresh.store.list everyNamespace ∧
      ∃ scale first s last left,
        (getScale b.scaling v.key (fresh.meanwhile [interlude])).1 = .ok scale ∧
        fresh.store.get v.key = .ok first ∧
        fresh.Reaches s ∧ writeBack b v scale s = fresh.observeAmid b 0 v [interlude] ∧
        s.store.get v.key = .ok last ∧
        (fresh.observeAmid b 0 v [interlude]).2.store.get v.key = .ok left ∧
        left.content = (last.spec,
          ⟨some scale.current, scale.desired, first.status.conditions, first.status.lastScaleTime⟩)
    := by
  intro b v engine interlude
  have listed : v ∈ fresh.store.list everyNamespace := List.mem_cons_self
  have written : (fresh.observeAmid b 0 v [interlude]).1 = .written := by decide
  refine ⟨listed, ?_⟩
  exact observation_writes_listed ⟨1, .disconnect⟩ false _ rfl listed b 0 [interlude] written

/-- A status that the engine writes while the view is observed is accepted and stored, and then its
conditions and its scaling time are overwritten. -/
theorem observation_loses_status :
    let b := steady ⟨some 3, some 3⟩
    let condition : Condition := ⟨.scalingActive, "True", 60, "ready", ""⟩
    let v := (fresh.store.list everyNamespace).headD default
    let engine : View := { v with status := ⟨1, 1, [.of condition], some 60⟩ }
    let interlude : Interlude Unit := writing b.storage "ns" engine
    let observed := fresh.observeAmid b 0 v [interlude]
    v ∈ fresh.store.list everyNamespace ∧
      ((interlude.effect fresh).store.get v.key).map Autoscaler.status =
        .ok ⟨some 1, 1, [condition], 60⟩ ∧
      observed.1 = .written ∧
      (observed.2.store.get v.key).map Autoscaler.status = .ok ⟨some 3, 3, [], 0⟩ := by
  intro b condition v engine interlude observed
  have listed : v ∈ fresh.store.list everyNamespace := List.mem_cons_self
  exact ⟨listed, by decide⟩

end Site

end Autoscaling

import Autoscaling.Proofs.Control.Pass
import Autoscaling.Proofs.Watch.Queue
import Mathlib.Tactic.Common

/-!
# Selectors that lead back

The engine asks for a metric by the selector that a view carries, possibly long after it got the
view, and a selector that does not carry the name of an autoscaler ends the task that asks.
`Site.selectors_lead_back` says that this never happens with views of the store: whatever way a view
is handed out, and whatever has been done since, the selectors in it carry the name in it, and the
question is taken to the autoscaler of that name or answered with the fact that there is none.

A view that is read from the entries is that of a stored autoscaler, and such views carry their
names (`View.CarriesName`).  A view that is received from a watch need not be that of anything that
is stored.  It was published by a mutation of the run (`Store.Coherent.mem_queued_run`), and the view
that a mutation publishes is, up to its version, one that is or was stored.
-/

namespace Autoscaling

/-! ## Views that carry their names -/

/-- The selector of every metric carries the name of the view. -/
def View.CarriesName (v : View) : Prop :=
  ∀ m ∈ v.spec.metrics, m.selector = Carrier.autoscaler.encode v.name

theorem Autoscaler.carriesName_shown (a : Autoscaler) : a.shown.CarriesName := by
  intro m hm
  obtain ⟨metric, -, rfl⟩ := List.mem_map.mp hm
  rfl

theorem Autoscaler.carriesName_of_view {a : Autoscaler} {v : View} (h : a.view = .ok v) :
    v.CarriesName := by
  rw [(view_eq_ok_iff.mp h).2]
  exact a.carriesName_shown

namespace Hub

/-! ## Queues -/

theorem mem_queued_publish {h : Hub} {c d : Change} {id : Nat}
    (hd : d ∈ (h.publish c).queued id) : d ∈ h.queued id ∨ d = c := by
  rw [queued_publish, List.mem_append] at hd
  refine hd.imp_right fun hd => ?_
  split at hd
  · exact List.mem_singleton.mp hd
  · exact nomatch hd

theorem mem_queued_subscribe {h : Hub} {scope : String} {c : Change} {id : Nat}
    (hc : c ∈ (h.subscribe scope).2.queued id) : c ∈ h.queued id := by
  rw [queued, find?_watches_subscribe] at hc
  by_cases hid : id = h.lastId + 1
  · simp [hid] at hc
  · rwa [if_neg hid] at hc

theorem mem_queued_receive {h : Hub} {c : Change} {id id₀ : Nat}
    (hc : c ∈ (h.receive id₀).2.queued id) : c ∈ h.queued id := by
  by_cases hid : id = id₀
  · subst hid
    rw [← queued_receive]
    exact List.mem_append_right _ hc
  · rwa [queued, find?_watches_receive hid] at hc

theorem mem_queued_stop {h : Hub} {c : Change} {id id₀ : Nat}
    (hc : c ∈ (h.stop id₀).queued id) : c ∈ h.queued id := by
  by_cases hid : id = id₀
  · subst hid
    cases hw : h.watches.find? id with
    | none => rwa [stop, hw] at hc
    | some w =>
        by_cases stopped : w.stopped = true
        · simpa [stop, hw, stopped] using hc
        · simp [stop, hw, stopped, queued] at hc
  · rwa [queued, find?_watches_stop hid] at hc

/-- What is received was queued. -/
theorem mem_queued_of_receive {h : Hub} {id : Nat} {c : Change}
    (received : (h.receive id).1 = .change c) : c ∈ h.queued id := by
  rw [← queued_receive, received]
  exact List.mem_append_left _ List.mem_cons_self

end Hub

namespace Store

/-! ## What is queued was published -/

/-- What is queued after an action was queued before it, or is what the action published. -/
theorem Coherent.mem_queued_act {s : Store} (coherent : s.Coherent) {a : Action} {id : Nat}
    {c : Change} (hc : c ∈ (s.act a).hub.queued id) :
    c ∈ s.hub.queued id ∨ ∃ x, s.accepted? a = some x ∧ x.change = c := by
  cases a with
  | mutate m =>
      cases hm : s.mutate m with
      | error e =>
          simp only [Store.act, hm] at hc
          exact .inl hc
      | ok commit =>
          simp only [Store.act, hm, (coherent.commits hm).hub] at hc
          refine (Hub.mem_queued_publish hc).imp_right ?_
          rintro rfl
          exact ⟨⟨s, m, commit⟩, by simp only [accepted?, hm], rfl⟩
  | watch scope =>
      simp only [Store.act, Store.watch] at hc
      split_ifs at hc
      · exact .inl hc
      · exact .inl (Hub.mem_queued_subscribe hc)
  | receive id₀ => exact .inl (Hub.mem_queued_receive hc)
  | stop id₀ => exact .inl (Hub.mem_queued_stop hc)
  | listen ns name => exact .inl hc
  | unlisten ns => exact .inl hc

/-- What is queued after a run was queued before it, or was published by a mutation of the run. -/
theorem Coherent.mem_queued_run {s : Store} (coherent : s.Coherent) {actions : List Action}
    {id : Nat} {c : Change} (hc : c ∈ (s.run actions).hub.queued id) :
    c ∈ s.hub.queued id ∨ ∃ first m second commit, actions = first ++ .mutate m :: second ∧
      (s.run first).mutate m = .ok commit ∧ commit.change = c := by
  induction actions generalizing s with
  | nil => exact .inl hc
  | cons a rest ih =>
      rcases ih (coherent.act a) hc with hact | ⟨first, m, second, commit, rfl, accepted, rfl⟩
      · refine (coherent.mem_queued_act hact).imp_right ?_
        rintro ⟨x, hx, rfl⟩
        obtain ⟨rfl, -, accepted, -⟩ := accepted?_eq_some hx
        exact ⟨[], x.mutation, rest, x.commit, rfl, accepted, rfl⟩
      · exact .inr ⟨a :: first, m, second, commit, rfl, accepted, rfl⟩

/-! ## What is handed out -/

/-- The ways in which a store hands out a view. -/
inductive HandsOut (s : Store) : View → Prop where
  | listed {scope : String} {v : View} (h : v ∈ s.list scope) : s.HandsOut v
  | got {k : Key} {v : View} (h : s.getView k = .ok v) : s.HandsOut v
  /-- in the list that a watch is opened with -/
  | snapshot {scope : String} {views : List View} {version : UInt64} {id : Nat} {s' : Store}
      {v : View} (h : s.listAndWatch scope = .ok (views, version, id, s')) (hv : v ∈ views) :
      s.HandsOut v
  /-- in a change of any kind, received from any watch -/
  | received {id : Nat} {c : Change} (h : (s.receive id).1 = .change c) : s.HandsOut c.view
  /-- as the answer to a status that is written -/
  | answered {sink : String} {v : View} {c : Commit} (h : s.updateStatus sink v = .ok c) :
      s.HandsOut c.change.view

/-- What is published carries its name, also when it is the last view of what was deleted. -/
theorem Coherent.carriesName_change {s : Store} (coherent : s.Coherent) {m : Mutation}
    {c : Commit} (accepted : s.mutate m = .ok c) : c.change.view.CarriesName := by
  have commits := coherent.commits accepted
  by_cases hkind : m.kind = .deleted
  · obtain ⟨-, entry, found, hview⟩ := commits.deleted hkind
    have hstored := Autoscaler.carriesName_of_view (coherent _ entry found).2
    -- only the version is another one than in the view that was stored
    rw [hview]
    exact hstored
  · obtain ⟨a, -, -, hview, -⟩ := commits.written hkind
    exact Autoscaler.carriesName_of_view hview

theorem Coherent.carriesName_of_mem_list {s : Store} (coherent : s.Coherent) {scope : String}
    {v : View} (listed : v ∈ s.list scope) : v.CarriesName := by
  obtain ⟨a, -, rfl⟩ := exists_of_mem_list coherent listed
  exact a.carriesName_shown

/-- Whatever a store hands out after a run carries its name. -/
theorem HandsOut.carriesName {tuning : Tuning} {handled : Bool} {history : List Action} {v : View}
    (h : ((create tuning handled).run history).HandsOut v) : v.CarriesName := by
  have coherent := coherent_run tuning handled history
  cases h with
  | listed h => exact coherent.carriesName_of_mem_list h
  | got h =>
      rw [getView_eq coherent] at h
      obtain ⟨a, -, hview⟩ := bind_eq_ok_iff.mp h
      exact Autoscaler.carriesName_of_view hview
  | snapshot h hv =>
      obtain ⟨rfl, -⟩ := list_of_listAndWatch h
      exact coherent.carriesName_of_mem_list hv
  | received h =>
      have hqueued := Hub.mem_queued_of_receive h
      rcases (coherent_create tuning handled).mem_queued_run hqueued with
        hnone | ⟨first, m, second, commit, -, accepted, rfl⟩
      · exact nomatch hnone
      · exact (coherent_run tuning handled first).carriesName_change accepted
  | @answered sink v _ h =>
      have accepted : ((create tuning handled).run history).mutate (.updateStatus sink v) = .ok _ := h
      exact coherent.carriesName_change accepted

end Store

namespace Site

/-! ## Asking -/

variable {β : Type}

/-- With a selector that carries the name of a view, the question is one about that name. -/
theorem externalMetric_of_carriesName (metrics : MetricsClient β) {v : View}
    (carries : v.CarriesName) {m : View.Metric} (hm : m ∈ v.spec.metrics) (s : Site β) :
    externalMetric metrics m.name v.ns m.selector s = .ok (metricOf metrics m.name v.key s) := by
  rw [carries m hm, externalMetric, Carrier.decode_encode]
  rfl

/-- Nobody is asked about a key that nothing is stored under. -/
theorem metricOf_of_not_live (metrics : MetricsClient β) (metric : String) {k : Key} {s : Site β}
    (dead : ¬ s.store.Live k) :
    metricOf metrics metric k s = (.error (.state (Store.notFound k)), s) := by
  rw [metricOf, lookup, Store.get_eq, Store.not_live_iff.mp dead]

/-- **Selectors lead back to their autoscalers.**  Let a run reach a store, let the store hand out
a view, in a list, on request, with a watch, in a change of any kind or as the answer to a status,
and let any other run follow.  Every selector in the view carries the name in the view.  Whoever
asks with it for a metric in the namespace of the view is not ended by an abort: if an autoscaler of
that namespace and name is stored now, the metrics client is called with its key and its settings;
if there is none, the answer is that it was not found, and no client is called. -/
theorem selectors_lead_back (tuning : Tuning) (handled : Bool) (history later : List Action)
    (outside : β) (told : List (String × Autoscaler)) :
    let s := (Store.create tuning handled).run history
    let site : Site β := ⟨s.run later, outside, told⟩
    ∀ v, s.HandsOut v → ∀ m ∈ v.spec.metrics,
      Carrier.autoscaler.decode m.selector = .ok v.name ∧
      ∀ metrics : MetricsClient β,
        (∀ abort, externalMetric metrics m.name v.ns m.selector site ≠ .error abort) ∧
        (∀ a, site.store.get v.key = .ok a →
          a.key = v.key ∧
          externalMetric metrics m.name v.ns m.selector site =
            .ok (call (metrics.getMetric m.name v.key (a.spec.metricSettings? m.name)) site)) ∧
        (¬ site.store.Live v.key →
          externalMetric metrics m.name v.ns m.selector site =
            .ok (.error (.state (Store.notFound v.key)), site)) := by
  intro s site v handsOut m hm
  have carries := handsOut.carriesName
  have coherent : site.store.Coherent := (Store.coherent_run tuning handled history).run later
  refine ⟨Carrier.decode_eq_ok_iff.mpr (carries m hm), fun metrics => ?_⟩
  have hasked := externalMetric_of_carriesName metrics carries hm site
  refine ⟨fun abort h => ?_, fun a found => ?_, fun dead => ?_⟩
  · exact nomatch hasked.symm.trans h
  · have stored := Store.stored?_eq_some_iff.mpr found
    have hkey : a.key = v.key := Store.key_of_stored? coherent stored
    refine ⟨hkey, ?_⟩
    rw [hasked, metricOf, lookup, found]
  · rw [hasked, metricOf_of_not_live metrics m.name dead]

/-- An autoscaler whose name and namespace look like labels. -/
def labelLike : Spec := ⟨"=,", "a=b,c", none, 5, [⟨"load", 1, none⟩], none, none⟩

/-- The last view of a deleted autoscaler is received, and its metric is asked for afterwards. -/
theorem selectors_lead_back_deleted :
    let s := (Store.create ⟨2, .disconnect⟩ true).run
      [.watch everyNamespace, .mutate (.add (.declared labelLike)),
        .mutate (.delete labelLike.key), .receive 1]
    let site : Site Unit := ⟨s.run [.receive 1], (), []⟩
    ∃ c m, (s.receive 1).1 = .change c ∧ c.kind = .deleted ∧ m ∈ c.view.spec.metrics ∧
      c.view.key = ⟨"=,", "a=b,c"⟩ ∧ ¬ site.store.Live c.view.key ∧
      ∀ metrics, externalMetric metrics m.name c.view.ns m.selector site =
        .ok (.error (.state (Store.notFound ⟨"=,", "a=b,c"⟩)), site) := by
  intro s site
  have received : (s.receive 1).1 = .change
      ⟨.deleted, { (Autoscaler.declared labelLike).shown with resourceVersion := 2 }⟩ := rfl
  have dead : ¬ site.store.Live ⟨"=,", "a=b,c"⟩ := Store.not_live_iff.mpr rfl
  refine ⟨_, View.Metric.of "a=b,c" ⟨"load", 1, none⟩, received, rfl, List.mem_cons_self, rfl, dead,
    fun metrics => ?_⟩
  have leads := selectors_lead_back ⟨2, .disconnect⟩ true
    [.watch everyNamespace, .mutate (.add (.declared labelLike)),
      .mutate (.delete labelLike.key), .receive 1] [.receive 1] () []
    _ (.received received) _ List.mem_cons_self
  exact (leads.2 metrics).2.2 dead

end Site

end Autoscaling

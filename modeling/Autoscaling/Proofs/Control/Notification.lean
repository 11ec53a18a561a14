import Autoscaling.Control.Site
import Autoscaling.Proofs.Store.Run
import Mathlib

/-!
# Who is told of a status

A status that is written is told to the handler of the store and to the listener of its namespace.
What has to be told is a matter of the store and of what is done next: `Store.writtenStatus?` says
it without looking at how the store goes about it, and `Store.writtenStatuses` reads it off a run.
`Site.run_eq` says that this is what the handler and the listeners of a site are told in a run, each
of it once and in this order, and `Site.told_once` adds what each of it consists of.
-/

namespace Autoscaling

/-- A status that is written: the listener of its namespace, if there is one, and the autoscaler as
it is stored with the status. -/
structure WrittenStatus where
  listener : Option String
  record : Autoscaler

/-- What is told to a listener because of a status. -/
def WrittenStatus.dispatch? (w : WrittenStatus) : Option (String × Autoscaler) :=
  w.listener.map fun name => (name, w.record)

/-- Whether an action changes who listens to a namespace. -/
def Action.changesListener (ns : String) : Action → Bool
  | .listen ns₀ _ => ns₀ == ns
  | .unlisten ns₀ => ns₀ == ns
  | _ => false

/-- The listener of a namespace after some actions is the one that was set last, unless the listener
of the namespace was changed again. -/
def Listens (history : List Action) (ns name : String) : Prop :=
  ∃ earlier later, history = earlier ++ .listen ns name :: later ∧
    ∀ a ∈ later, a.changesListener ns = false

theorem listens_concat_iff {history : List Action} {a : Action} {ns name : String} :
    Listens (history ++ [a]) ns name ↔
      a = .listen ns name ∨ (Listens history ns name ∧ a.changesListener ns = false) := by
  constructor
  · rintro ⟨earlier, later, hhistory, hlater⟩
    rcases concat_eq_append_cons_iff.mp hhistory with ⟨rfl, rfl, rfl⟩ | ⟨later, rfl, rfl⟩
    · exact .inl rfl
    · obtain ⟨hlater, hlast⟩ := List.forall_mem_append.mp hlater
      exact .inr ⟨⟨earlier, later, rfl, hlater⟩, hlast a (List.mem_singleton_self a)⟩
  · rintro (rfl | ⟨⟨earlier, later, rfl, hlater⟩, hlast⟩)
    · exact ⟨history, [], rfl, List.forall_mem_nil _⟩
    · refine ⟨earlier, later ++ [a], List.append_assoc .., List.forall_mem_append.mpr ⟨hlater, ?_⟩⟩
      simpa using hlast

namespace Store

/-- The status that an action has written, if it is one that the store accepts. -/
def writtenStatus? (s : Store) : Action → Option WrittenStatus
  | .mutate (.updateStatus sink v) =>
      match (Mutation.updateStatus sink v).outcome (s.stored? ⟨sink, v.name⟩) with
      | .ok (some (spec, status)) => some ⟨s.listeners.find? sink, ⟨spec, status, s.version + 1⟩⟩
      | _ => none
  | _ => none

/-- The statuses that a run writes, in their order. -/
def writtenStatuses (s : Store) (actions : List Action) : List WrittenStatus :=
  s.collect writtenStatus? actions

theorem writtenStatuses_concat (s : Store) (actions : List Action) (a : Action) :
    s.writtenStatuses (actions ++ [a]) =
      s.writtenStatuses actions ++ ((s.run actions).writtenStatus? a).toList := by
  simp [writtenStatuses, collect_append, collect]

/-! ## Those who are told of a mutation -/

/-- Those who are to know of a mutation are told of what is stored by it. -/
theorem Coherent.notifications_eq {s : Store} (coherent : s.Coherent) {m : Mutation} {c : Commit}
    (h : s.mutate m = .ok c) :
    c.notifications = match c.store.stored? m.key with
      | some a => s.toTell m a
      | none => [] := by
  by_cases hkind : m.kind = .deleted
  · rw [stored?, ((coherent.commits h).deleted hkind).1]
    cases m with
    | delete k =>
        obtain ⟨entry, -, rfl⟩ := delete_eq_ok_iff.mp h
        rfl
    | _ => cases hkind
  · obtain ⟨a, hput, hstored⟩ := exists_put_of_mutate h hkind
    obtain ⟨view, -, rfl⟩ := put_eq_ok_iff.mp hput
    rw [stored?, find?_publish, find?_file, if_pos (hstored coherent).1.symm]
    rfl

/-- Nobody is told of a mutation that is not the writing of a status. -/
theorem Coherent.notifications_eq_nil {s : Store} (coherent : s.Coherent) {m : Mutation}
    {c : Commit} (h : s.mutate m = .ok c) (hm : ∀ sink v, m ≠ .updateStatus sink v) :
    c.notifications = [] := by
  rw [coherent.notifications_eq h]
  cases c.store.stored? m.key with
  | none => rfl
  | some a =>
      cases m with
      | updateStatus sink v => exact absurd rfl (hm sink v)
      | _ => rfl

/-! ## What a written status consists of -/

/-- What is noted of an accepted status: what is declared is what was stored, and the status is the
one that was written.  It is stored like this, and the store publishes the view of it. -/
theorem Coherent.writtenStatus?_of_accepted {s : Store} (coherent : s.Coherent) {sink : String}
    {v : View} {c : Commit} (h : s.updateStatus sink v = .ok c) :
    ∃ b status w, s.stored? ⟨sink, v.name⟩ = some b ∧ v.status.toStatus = .ok status ∧
      w = ⟨s.listeners.find? sink, ⟨b.spec, status, s.version + 1⟩⟩ ∧
      s.writtenStatus? (.mutate (.updateStatus sink v)) = some w ∧
      c.store.stored? ⟨sink, v.name⟩ = some w.record ∧ w.record.view = .ok c.change.view ∧
      c.notifications = s.audience sink w.record := by
  have commits : s.Commits (.updateStatus sink v) c := coherent.commits h
  obtain ⟨b, status, hstatus, hbefore, hcontent⟩ := commits.content_updateStatus
  have houtcome : (Mutation.updateStatus sink v).outcome (s.stored? ⟨sink, v.name⟩) =
      .ok (some (b.spec, status)) :=
    commits.outcome.trans (congrArg Except.ok hcontent)
  obtain ⟨hfind, hview⟩ := commits.find?_of_outcome houtcome
  have hfiled : c.store.stored? (Mutation.updateStatus sink v).key =
      some ⟨b.spec, status, s.version + 1⟩ :=
    congrArg (Option.map Entry.autoscaler) hfind
  have htold : c.notifications = s.audience sink ⟨b.spec, status, s.version + 1⟩ := by
    rw [coherent.notifications_eq (m := .updateStatus sink v) h, hfiled]
    rfl
  exact ⟨b, status, _, hbefore, hstatus, rfl, by rw [writtenStatus?, houtcome], hfiled, hview,
    htold⟩

theorem Coherent.writtenStatus?_eq_none {s : Store} (coherent : s.Coherent) {a : Action}
    (h : ∀ sink v c, a = .mutate (.updateStatus sink v) → s.updateStatus sink v ≠ .ok c) :
    s.writtenStatus? a = none := by
  cases a with
  | mutate m =>
      cases m with
      | updateStatus sink v =>
          rcases coherent.mutate_cases (.updateStatus sink v) with ⟨e, -, hfails⟩ | ⟨c, hc, -⟩
          · have hfails : (Mutation.updateStatus sink v).outcome (s.stored? ⟨sink, v.name⟩) =
              .error e := hfails
            rw [writtenStatus?, hfails]
          · exact absurd hc (h sink v c rfl)
      | _ => rfl
  | _ => rfl

theorem Coherent.accepted?_of_writtenStatus? {s : Store} (coherent : s.Coherent) {a : Action}
    {w : WrittenStatus} (h : s.writtenStatus? a = some w) :
    w.record.version = s.version + 1 ∧ ∃ x, s.accepted? a = some x := by
  by_cases hc : ∃ sink v c, a = .mutate (.updateStatus sink v) ∧ s.updateStatus sink v = .ok c
  · obtain ⟨sink, v, c, rfl, hc⟩ := hc
    obtain ⟨b, status, w₀, -, -, hw₀, hwrite, -⟩ := coherent.writtenStatus?_of_accepted hc
    rw [hwrite] at h
    cases Option.some.inj h
    refine ⟨hw₀ ▸ rfl, ⟨s, .updateStatus sink v, c⟩, ?_⟩
    simp only [accepted?, mutate, hc]
  · rw [coherent.writtenStatus?_eq_none fun sink v c ha hok => hc ⟨sink, v, c, ha, hok⟩] at h
    cases h

/-- The versions of the records that a run tells of are versions of its accepted mutations, in their
order. -/
theorem versions_writtenStatuses_sublist (tuning : Tuning) (handled : Bool)
    (actions : List Action) :
    (((create tuning handled).writtenStatuses actions).map fun w => w.record.version).Sublist
      ((List.range ((create tuning handled).log actions).length).map fun i =>
        UInt64.ofNat (i + 1)) := by
  induction actions using List.reverseRecOn with
  | nil => exact List.nil_sublist _
  | append_singleton actions a ih =>
      have coherent := coherent_run tuning handled actions
      have hversion := version_run_create tuning handled actions
      rw [writtenStatuses_concat, log_append, List.map_append]
      cases haccepted : ((create tuning handled).run actions).accepted? a with
      | none =>
          have hnone : ((create tuning handled).run actions).writtenStatus? a = none := by
            by_contra hsome
            obtain ⟨w, hw⟩ := Option.ne_none_iff_exists'.mp hsome
            obtain ⟨-, x, hx⟩ := coherent.accepted?_of_writtenStatus? hw
            rw [haccepted] at hx
            exact nomatch hx
          rw [hnone, log_cons_of_not_accepted haccepted]
          simpa [log, collect] using ih
      | some x =>
          have hlog : (((create tuning handled).run actions).log [a]).length = 1 := by
            rw [log_cons_of_accepted haccepted]
            rfl
          rw [List.length_append, hlog, List.range_succ, List.map_append]
          refine ih.append ?_
          cases hwrite : ((create tuning handled).run actions).writtenStatus? a with
          | none => exact List.nil_sublist _
          | some w =>
              have hnext : w.record.version =
                  UInt64.ofNat (((create tuning handled).log actions).length + 1) := by
                rw [(coherent.accepted?_of_writtenStatus? hwrite).1, hversion, UInt64.ofNat_add]
                rfl
              simp only [Option.toList_some, List.map_singleton, hnext]
              exact List.Sublist.refl _

/-! ## Listeners -/

theorem Coherent.handled_act {s : Store} (coherent : s.Coherent) (a : Action) :
    (s.act a).handled = s.handled := by
  cases a with
  | mutate m =>
      rcases coherent.mutate_cases m with ⟨e, hm, -⟩ | ⟨c, hm, commits⟩
      · simp only [Store.act, hm]
      · simp only [Store.act, hm, commits.handled]
  | watch scope =>
      simp only [Store.act, Store.watch]
      split_ifs <;> rfl
  | _ => rfl

theorem Coherent.handled_run {s : Store} (coherent : s.Coherent) (actions : List Action) :
    (s.run actions).handled = s.handled := by
  induction actions generalizing s with
  | nil => rfl
  | cons a rest ih => rw [run_cons, ih (coherent.act a), coherent.handled_act]

theorem Coherent.find?_listeners_act {s : Store} (coherent : s.Coherent) (a : Action)
    (ns : String) :
    (a.changesListener ns = false ∧ (s.act a).listeners.find? ns = s.listeners.find? ns) ∨
      (∃ name, a = .listen ns name ∧ (s.act a).listeners.find? ns = some name) ∨
      (a = .unlisten ns ∧ (s.act a).listeners.find? ns = none) := by
  cases a with
  | mutate m =>
      refine .inl ⟨rfl, ?_⟩
      rcases coherent.mutate_cases m with ⟨e, hm, -⟩ | ⟨c, hm, commits⟩
      · simp only [Store.act, hm]
      · simp only [Store.act, hm, commits.listeners]
  | watch scope =>
      refine .inl ⟨rfl, ?_⟩
      simp only [Store.act, Store.watch]
      split_ifs <;> rfl
  | receive id => exact .inl ⟨rfl, rfl⟩
  | stop id => exact .inl ⟨rfl, rfl⟩
  | listen ns₀ name =>
      by_cases hns : ns = ns₀
      · subst hns
        exact .inr (.inl ⟨name, rfl, by simp [Store.act, listen]⟩)
      · exact .inl ⟨beq_false_of_ne (Ne.symm hns), by simp [Store.act, listen, hns]⟩
  | unlisten ns₀ =>
      by_cases hns : ns = ns₀
      · subst hns
        exact .inr (.inr ⟨rfl, by simp [Store.act, unlisten]⟩)
      · exact .inl ⟨beq_false_of_ne (Ne.symm hns), by simp [Store.act, unlisten, hns]⟩

theorem find?_listeners_run (tuning : Tuning) (handled : Bool) (actions : List Action)
    (ns name : String) :
    ((create tuning handled).run actions).listeners.find? ns = some name ↔
      Listens actions ns name := by
  induction actions using List.reverseRecOn with
  | nil => simp [create, Listens]
  | append_singleton actions a ih =>
      rw [listens_concat_iff, ← ih, run_append, run_cons, run_nil]
      rcases (coherent_run tuning handled actions).find?_listeners_act a ns with
        ⟨hother, hfind⟩ | ⟨name₀, rfl, hfind⟩ | ⟨rfl, hfind⟩
      · have hne : a ≠ .listen ns name := by
          rintro rfl
          simp [Action.changesListener] at hother
        simp [hfind, hother, hne]
      · simp [hfind, Action.changesListener]
      · simp [hfind, Action.changesListener]

end Store

namespace Site

variable {β : Type} (storage : StorageClient β)

/-! ## What a site tells -/

/-- The listener of the namespace and the handler are told, if there are any. -/
theorem foldl_tell_audience (store : Store) (ns : String) (a : Autoscaler) (s : Site β) :
    (store.audience ns a).foldl (tell storage) s =
      { s with
        outside := if store.handled then storage.statusUpdated a s.outside else s.outside
        told := s.told ++ ((WrittenStatus.mk (store.listeners.find? ns) a).dispatch?).toList } := by
  unfold Store.audience WrittenStatus.dispatch?
  cases store.listeners.find? ns <;> cases store.handled <;> simp [tell]

/-- Do something with the store of a site, and tell those who are to know of it. -/
def act (s : Site β) (a : Action) : Site β :=
  match s.store.accepted? a with
  | some x => x.commit.notifications.foldl (tell storage) { s with store := x.commit.store }
  | none => { s with store := s.store.act a }

/-- Do several things, one after the other. -/
def run (s : Site β) (actions : List Action) : Site β := actions.foldl (act storage) s

theorem run_concat (s : Site β) (actions : List Action) (a : Action) :
    s.run storage (actions ++ [a]) = (s.run storage actions).act storage a := List.foldl_append ..

/-- Writing a status back is one of these things. -/
theorem updateStatus_eq (sink : String) (v : View) (s : Site β) :
    s.updateStatus storage sink v =
      ((s.store.updateStatus sink v).map fun c => c.change.view,
        s.act storage (.mutate (.updateStatus sink v))) := by
  rw [updateStatus, act]
  cases h : s.store.updateStatus sink v <;>
    simp [Store.accepted?, Store.act, Store.mutate, h, Except.map]

/-- What is told of an action is the status that it has written, if it has. -/
theorem act_eq {s : Site β} (coherent : s.store.Coherent) (a : Action) :
    s.act storage a =
      ⟨s.store.act a,
        (if s.store.handled then (s.store.writtenStatus? a).toList.map WrittenStatus.record
          else []).foldl (fun b a => storage.statusUpdated a b) s.outside,
        s.told ++ (s.store.writtenStatus? a).toList.filterMap WrittenStatus.dispatch?⟩ := by
  by_cases h : ∃ sink v c, a = .mutate (.updateStatus sink v) ∧
      s.store.updateStatus sink v = .ok c
  · obtain ⟨sink, v, c, rfl, hc⟩ := h
    obtain ⟨b, status, w, -, -, hw, hwrite, -, -, htold⟩ := coherent.writtenStatus?_of_accepted hc
    have hlistener : w.listener = s.store.listeners.find? sink := hw ▸ rfl
    have haccepted : s.store.accepted? (.mutate (.updateStatus sink v)) =
        some ⟨s.store, .updateStatus sink v, c⟩ := by
      simp only [Store.accepted?, Store.mutate, hc]
    have hact := (Store.accepted?_eq_some haccepted).2.2.2
    simp only [act, haccepted, htold]
    rw [foldl_tell_audience, hwrite, ← hlistener, hact]
    cases s.store.handled <;> rfl
  · have hnone : s.store.writtenStatus? a = none :=
      coherent.writtenStatus?_eq_none fun sink v c ha hok => h ⟨sink, v, c, ha, hok⟩
    have hsilent : s.act storage a = { s with store := s.store.act a } := by
      rw [act]
      cases haccepted : s.store.accepted? a with
      | none => rfl
      | some x =>
          obtain ⟨rfl, -, hc, hact⟩ := Store.accepted?_eq_some haccepted
          have htold := coherent.notifications_eq_nil hc fun sink v hm => by
            rw [hm] at hc
            exact h ⟨sink, v, x.commit, by rw [hm], hc⟩
          simp only [htold, hact, List.foldl_nil]
    rw [hsilent, hnone]
    cases s.store.handled <;> simp

/-- What is told in a run are the statuses that the run writes, each of them once and in their
order. -/
theorem run_eq {s : Site β} (coherent : s.store.Coherent) (actions : List Action) :
    s.run storage actions =
      ⟨s.store.run actions,
        (if s.store.handled then (s.store.writtenStatuses actions).map WrittenStatus.record
          else []).foldl (fun b a => storage.statusUpdated a b) s.outside,
        s.told ++ (s.store.writtenStatuses actions).filterMap WrittenStatus.dispatch?⟩ := by
  have hhandled (actions : List Action) : (s.store.run actions).handled = s.store.handled :=
    Store.Coherent.handled_run coherent actions
  induction actions using List.reverseRecOn with
  | nil =>
      obtain ⟨store, outside, told⟩ := s
      cases hhandled : store.handled <;> simp [run, Store.writtenStatuses, Store.collect]
  | append_singleton actions a ih =>
      have hstore : (s.run storage actions).store = s.store.run actions := by rw [ih]
      rw [run_concat, act_eq storage (hstore ▸ coherent.run actions), ih, hhandled,
        Store.writtenStatuses_concat, Store.run_append, List.filterMap_append, List.map_append]
      cases s.store.handled <;> simp

/-- **A status is told once to each who is to know.**  In every run of a store, the handler is told
of the statuses that the run writes, in the order of their versions, and so are the listeners of
their namespaces, and nobody is told of anything else.

When a status is written, the autoscaler that is told of has the specification that was stored, the
status that is written and the next version.  It is stored like that, and it is told to the listener
that was set last for this very namespace, unless the namespace has none any more.  Its view is
published once, as modified, and the writer gets it for an answer.  Nobody is told of anything else
that is done, or of a status that is refused. -/
theorem told_once (tuning : Tuning) (handled : Bool) (outside : β) (history : List Action) :
    let start := Store.create tuning handled
    let s := start.run history
    let site (actions : List Action) : Site β := run storage ⟨start, outside, []⟩ actions
    let writes (actions : List Action) : List WrittenStatus := start.writtenStatuses actions
    site history =
        ⟨s, (if handled then (writes history).map WrittenStatus.record else []).foldl
          (fun b a => storage.statusUpdated a b) outside,
          (writes history).filterMap WrittenStatus.dispatch?⟩ ∧
    ((writes history).map fun w => w.record.version).Sublist
      ((List.range (start.log history).length).map fun i => UInt64.ofNat (i + 1)) ∧
    (∀ sink v c, s.updateStatus sink v = .ok c →
      let next := history ++ [.mutate (.updateStatus sink v)]
      ∃ b status w view, s.get ⟨sink, v.name⟩ = .ok b ∧ v.status.toStatus = .ok status ∧
        writes next = writes history ++ [w] ∧
        w.record = ⟨b.spec, status, UInt64.ofNat ((start.log history).length + 1)⟩ ∧
        c.store.get ⟨sink, v.name⟩ = .ok w.record ∧
        (∀ name, w.listener = some name ↔ Listens history sink name) ∧
        w.record.view = .ok view ∧ c.store.hub = s.hub.publish ⟨.modified, view⟩ ∧
        (site history).updateStatus storage sink v = (.ok view, site next)) ∧
    ∀ a, (∀ sink v c, a = .mutate (.updateStatus sink v) → s.updateStatus sink v ≠ .ok c) →
      writes (history ++ [a]) = writes history ∧
        site (history ++ [a]) = { site history with store := s.act a } := by
  intro start s site writes
  have hstart : start.Coherent := Store.coherent_create tuning handled
  have coherent : s.Coherent := hstart.run history
  have hsite (actions : List Action) : site actions =
      ⟨start.run actions, (if handled then (writes actions).map WrittenStatus.record else []).foldl
        (fun b a => storage.statusUpdated a b) outside,
        (writes actions).filterMap WrittenStatus.dispatch?⟩ :=
    run_eq storage hstart actions
  have hnext (a : Action) :
      writes (history ++ [a]) = writes history ++ (s.writtenStatus? a).toList :=
    Store.writtenStatuses_concat start history a
  refine ⟨hsite history, Store.versions_writtenStatuses_sublist tuning handled history, ?_, ?_⟩
  · intro sink v c hc next
    obtain ⟨b, status, w, hbefore, hstatus, hw, hwrite, hafter, hview, -⟩ :=
      coherent.writtenStatus?_of_accepted hc
    have commits : s.Commits (.updateStatus sink v) c := coherent.commits hc
    have hversion : s.version + 1 = UInt64.ofNat ((start.log history).length + 1) := by
      rw [Store.version_run_create, UInt64.ofNat_add]
      rfl
    have hkind : c.change.kind = .modified := commits.kind
    refine ⟨b, status, w, c.change.view, Store.stored?_eq_some_iff.mp hbefore, hstatus, ?_, ?_,
      Store.stored?_eq_some_iff.mp hafter, ?_, hview, ?_, ?_⟩
    · rw [hnext, hwrite]
      rfl
    · rw [hw, hversion]
    · rw [hw]
      exact Store.find?_listeners_run tuning handled history sink
    · rw [commits.hub, ← hkind]
    · have hanswer : (site history).store.updateStatus sink v = .ok c := by rw [hsite, hc]
      rw [updateStatus_eq, hanswer, ← run_concat]
      rfl
  · intro a ha
    have hwrites : writes (history ++ [a]) = writes history := by
      rw [hnext, coherent.writtenStatus?_eq_none ha, Option.toList_none, List.append_nil]
    refine ⟨hwrites, ?_⟩
    rw [hsite, hsite, hwrites, Store.run_append]
    rfl

/-- A listener is told until its namespace is given up, and the handler is told of everything. -/
example :
    let storage : StorageClient (List UInt64) :=
      ⟨fun told => (.ok [], told), fun a told => told ++ [a.version], none⟩
    let x : Autoscaler := .declared ⟨"a", "x", none, 1, [⟨"load", 1, none⟩], none, none⟩
    let write : Action := .mutate (.updateStatus "a" x.shown)
    let site := run storage ⟨.create ⟨1, .disconnect⟩ true, [], []⟩
      [.mutate (.add x), .listen "a" "listener", write, .unlisten "a", write]
    site.told.map (fun told => (told.1, told.2.version)) = [("listener", 2)] ∧
      site.outside = [2, 3] := by
  decide

end Site

end Autoscaling

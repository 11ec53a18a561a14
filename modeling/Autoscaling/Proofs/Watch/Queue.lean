import Autoscaling.Proofs.Watch.Delivery
import Mathlib.Tactic.Common

/-!
# What is queued for a watch

Under both policies a watch delivers what was queued for it, and what is queued is told here by the
hub alone: `Hub.enqueues` says whether publishing a change queues it, and `Store.enqueued` lists the
changes that a run queues.  As long as a watch is not stopped, what its reader has got and what is
still in its queue are together what was queued (`Store.Coherent.received_append_queued`); when it
is stopped, the rest is forgotten (`Store.Coherent.received_prefix_enqueued`).

Which changes are queued is a matter of room: a change in the scope of a registered watch is queued
or overruns the watch (`Store.enqueued_or_overrun`).  What comes after an overrun is a matter of the
policy.
-/

namespace Autoscaling

namespace Hub

/-- Whether publishing a change queues it for the watch with an id. -/
def enqueues (h : Hub) (id : Nat) (c : Change) : Bool :=
  match h.registered.find? id with
  | some scope => h.delivery c.view.ns scope (h.watches.find? id) == .queued
  | none => false

theorem queued_publish (h : Hub) (c : Change) (id : Nat) :
    (h.publish c).queued id = h.queued id ++ (if h.enqueues id c then [c] else []) := by
  rw [queued, queued, enqueues, find?_watches_publish]
  cases hw : h.watches.find? id with
  | none =>
      cases h.registered.find? id with
      | none => rfl
      | some scope =>
          -- nothing can be queued where there is no queue
          by_cases hscope : covers scope c.view.ns = true <;> simp [delivery, hscope]
  | some w =>
      cases h.registered.find? id with
      | none => simp
      | some scope =>
          by_cases hqueued : h.delivery c.view.ns scope (some w) = .queued <;> simp [hqueued]

theorem queued_subscribe {h : Hub} {id : Nat} (known : id ≤ h.lastId) (scope : String) :
    (h.subscribe scope).2.queued id = h.queued id := by
  have other : id ≠ h.lastId + 1 := by omega
  rw [queued, queued, find?_watches_subscribe, if_neg other]

/-- A receive takes from the queue what it delivers. -/
theorem queued_receive (h : Hub) (id : Nat) :
    (h.receive id).1.change?.toList ++ (h.receive id).2.queued id = h.queued id := by
  cases hw : h.watches.find? id with
  | none => simp [receive, hw, Receipt.change?]
  | some w =>
      by_cases closed : w.closed = true
      · simp [receive, hw, closed, Receipt.change?]
      · cases hqueue : w.queue with
        | nil =>
            by_cases registered : h.registered.contains id = true <;>
              simp [receive, hw, closed, hqueue, registered, Receipt.change?, queued]
        | cons c rest => simp [receive, hw, closed, hqueue, Receipt.change?, queued]

/-- A change is queued for a watch in its scope that is registered and has room for it. -/
theorem Shows.enqueues_iff {h : Hub} {id : Nat} {scope : String} {feed : Feed}
    (shows : h.Shows id scope feed) {c : Change} :
    h.enqueues id c = true ↔
      covers scope c.view.ns = true ∧
        ∃ unread, feed = .registered unread ∧ unread.length < h.capacity := by
  rw [enqueues, shows.registered, shows.watch]
  cases feed with
  | registered unread =>
      simp [Feed.registration, Feed.watch, delivery_eq_queued_iff]
  | _ => simp [Feed.registration]

end Hub

namespace Store

/-- The change that an action queues for the watch with an id. -/
def enqueued? (id : Nat) (s : Store) (a : Action) : Option Change :=
  ((s.accepted? a).map Accepted.change).filter (s.hub.enqueues id)

/-- The changes that a run queues for the watch with an id. -/
def enqueued (s : Store) (id : Nat) (actions : List Action) : List Change :=
  s.collect (enqueued? id) actions

theorem enqueued_append (s : Store) (id : Nat) (first second : List Action) :
    s.enqueued id (first ++ second) = s.enqueued id first ++ (s.run first).enqueued id second :=
  collect_append ..

theorem enqueued_cons (s : Store) (id : Nat) (a : Action) (rest : List Action) :
    s.enqueued id (a :: rest) = (s.enqueued? id a).toList ++ (s.act a).enqueued id rest := rfl

theorem received_cons (s : Store) (id : Nat) (a : Action) (rest : List Action) :
    s.received id (a :: rest) =
      ((s.receipt? id a).bind Receipt.change?).toList ++ (s.act a).received id rest := by
  rw [received, receipts, collect, List.filterMap_append]
  cases h : s.receipt? id a with
  | none => rfl
  | some r => cases hc : r.change? <;> simp [hc, received, receipts]

theorem enqueued?_eq_some_iff {s : Store} {id : Nat} {a : Action} {c : Change} :
    s.enqueued? id a = some c ↔
      ∃ m commit, a = .mutate m ∧ s.mutate m = .ok commit ∧ commit.change = c ∧
        s.hub.enqueues id c = true := by
  rw [enqueued?, Option.filter_eq_some_iff, Option.map_eq_some_iff]
  constructor
  · rintro ⟨⟨x, hx, rfl⟩, henqueues⟩
    obtain ⟨rfl, -, accepted, -⟩ := accepted?_eq_some hx
    exact ⟨x.mutation, x.commit, rfl, accepted, rfl, henqueues⟩
  · rintro ⟨m, commit, rfl, accepted, rfl, henqueues⟩
    exact ⟨⟨⟨s, m, commit⟩, by simp [accepted?, accepted], rfl⟩, henqueues⟩

/-- What an accepted mutation queues. -/
theorem enqueued?_mutate {s : Store} {id : Nat} {m : Mutation} {c : Commit}
    (accepted : s.mutate m = .ok c) :
    (s.enqueued? id (.mutate m)).toList = if s.hub.enqueues id c.change then [c.change] else [] := by
  by_cases henqueues : s.hub.enqueues id c.change = true <;>
    simp [enqueued?, accepted?, accepted, Accepted.change, Option.filter_some, henqueues]

/-- What a run queues is queued by one of its mutations, and what was queued before is what was
queued by the actions before it. -/
theorem exists_of_enqueued_eq {s : Store} {id : Nat} {actions : List Action}
    {earlier later : List Change} {c : Change}
    (h : s.enqueued id actions = earlier ++ c :: later) :
    ∃ first m second commit, actions = first ++ .mutate m :: second ∧
      (s.run first).mutate m = .ok commit ∧ commit.change = c ∧ s.enqueued id first = earlier ∧
      commit.store.enqueued id second = later ∧
      (s.run first).enqueued? id (.mutate m) = some c := by
  obtain ⟨first, a, second, rfl, hfirst, ha⟩ := exists_of_collect_eq h
  obtain ⟨m, commit, rfl, accepted, rfl, -⟩ := enqueued?_eq_some_iff.mp ha
  have hact : (s.run first).act (.mutate m) = commit.store := by simp only [act, accepted]
  refine ⟨first, m, second, commit, rfl, accepted, rfl, hfirst, ?_, ha⟩
  rw [enqueued_append, enqueued_cons, ha, hact, show s.enqueued id first = earlier from hfirst] at h
  simpa using h

/-- What an action delivers to the reader of a watch it takes from the front of the queue, and what
it queues it puts to the end.  Only stopping the watch does otherwise. -/
theorem Coherent.queued_act {s : Store} (coherent : s.Coherent) {id : Nat}
    (known : id ≤ s.hub.lastId) {a : Action} (hstop : a ≠ .stop id) :
    ((s.receipt? id a).bind Receipt.change?).toList ++ (s.act a).hub.queued id =
      s.hub.queued id ++ (s.enqueued? id a).toList := by
  cases a with
  | mutate m =>
      cases hm : s.mutate m with
      | error e => simp [Store.act, receipt?, enqueued?, accepted?, hm]
      | ok c =>
          rw [enqueued?_mutate hm]
          simp only [Store.act, hm, (coherent.commits hm).hub, receipt?]
          exact s.hub.queued_publish c.change id
  | watch scope =>
      simp only [Store.act, Store.watch, receipt?, enqueued?, accepted?]
      split_ifs
      · simp
      · simpa using Hub.queued_subscribe known scope
  | receive id₀ =>
      by_cases hid : id₀ = id
      · subst hid
        simpa [receipt?, Store.act, Store.receive, enqueued?, accepted?] using s.hub.queued_receive id₀
      · have other := Hub.find?_watches_receive (Ne.symm hid) s.hub
        simp [receipt?, hid, Store.act, Store.receive, enqueued?, accepted?, Hub.queued, other]
  | stop id₀ =>
      have hid : id ≠ id₀ := fun h => hstop (congrArg Action.stop h.symm)
      have other := Hub.find?_watches_stop hid s.hub
      simp [receipt?, Store.act, Store.stop, enqueued?, accepted?, Hub.queued, other]
  | listen ns name => simp [receipt?, Store.act, listen, enqueued?, accepted?]
  | unlisten ns => simp [receipt?, Store.act, unlisten, enqueued?, accepted?]

section Watched

variable {s : Store} {id : Nat} {scope : String} {feed : Feed}

/-- The reader of a watch that was stopped gets nothing. -/
theorem Coherent.received_of_stopped (coherent : s.Coherent)
    (shows : s.hub.Shows id scope .stopped) (actions : List Action) :
    s.received id actions = [] := by
  have hreceipts := (coherent.shows_run shows actions).2
  rw [received, List.filterMap_eq_nil_iff, hreceipts]
  intro r hr
  rw [Feed.answers_of_closed (.inr rfl) _ r hr]
  rfl

/-- As long as a watch is not stopped, what was queued is delivered, in this order, or is still in
the queue. -/
theorem Coherent.received_append_queued (coherent : s.Coherent)
    (shows : s.hub.Shows id scope feed) {actions : List Action} (hstop : Action.stop id ∉ actions) :
    s.received id actions ++ (s.run actions).hub.queued id =
      s.hub.queued id ++ s.enqueued id actions := by
  induction actions generalizing s feed with
  | nil => simp [received, receipts, enqueued, collect]
  | cons a rest ih =>
      have hfirst := coherent.queued_act shows.known (fun h => hstop (h ▸ List.mem_cons_self))
      have hrest := ih (coherent.act a) (coherent.shows_act shows a).1
        (fun h => hstop (List.mem_cons_of_mem _ h))
      rw [received_cons, enqueued_cons, run_cons, List.append_assoc, hrest, ← List.append_assoc,
        hfirst, List.append_assoc]

/-- Whatever is done, the reader of a watch gets a first part of what was queued. -/
theorem Coherent.received_prefix_enqueued (coherent : s.Coherent)
    (shows : s.hub.Shows id scope feed) (actions : List Action) :
    s.received id actions <+: s.hub.queued id ++ s.enqueued id actions := by
  induction actions generalizing s feed with
  | nil => exact List.nil_prefix
  | cons a rest ih =>
      by_cases hstop : a = .stop id
      · subst hstop
        have nothing := (coherent.act (.stop id)).received_of_stopped shows.stop rest
        rw [received_cons, nothing]
        exact List.nil_prefix
      · have hrest := ih (coherent.act a) (coherent.shows_act shows a).1
        rw [received_cons, enqueued_cons, ← List.append_assoc,
          ← coherent.queued_act shows.known hstop, List.append_assoc]
        exact (List.prefix_append_right_inj _).mpr hrest

/-- A watch that is registered after a run was registered before it. -/
theorem Coherent.registered_of_run (coherent : s.Coherent) (shows : s.hub.Shows id scope feed)
    {actions : List Action}
    (hregistered : (s.run actions).hub.registered.find? id = some scope) :
    ∃ unread, feed = .registered unread := by
  rw [(coherent.shows_run shows actions).1.registered] at hregistered
  by_contra hfeed
  have hne (unread : List Change) : feed ≠ .registered unread := fun h => hfeed ⟨unread, h⟩
  cases hrun : feed.run s.hub.capacity s.hub.overflow (s.feedEvents id scope actions) with
  | registered unread => exact Feed.run_ne_registered feed hne _ unread hrun
  | _ => simp [hrun, Feed.registration] at hregistered

/-- What an accepted mutation in the scope of a registered watch comes to: its change is queued, or
it overruns the watch. -/
theorem enqueued_or_overrun {unread : List Change} (shows : s.hub.Shows id scope (.registered unread))
    (fits : unread.length ≤ s.hub.capacity) {m : Mutation} {c : Commit}
    (accepted : s.mutate m = .ok c) (hscope : covers scope c.change.view.ns = true) :
    (unread.length < s.hub.capacity ∧ s.enqueued? id (.mutate m) = some c.change) ∨
      (s.Overrun id scope s.hub.capacity m ∧ s.enqueued? id (.mutate m) = none) := by
  by_cases room : unread.length < s.hub.capacity
  · have henqueues : s.hub.enqueues id c.change = true :=
      shows.enqueues_iff.mpr ⟨hscope, unread, rfl, room⟩
    exact .inl ⟨room, enqueued?_eq_some_iff.mpr ⟨m, c, rfl, accepted, rfl, henqueues⟩⟩
  · have hlength : (s.hub.queued id).length = s.hub.capacity := by
      rw [shows.queued]
      exact Nat.le_antisymm fits (Nat.le_of_not_lt room)
    refine .inr ⟨⟨c, accepted, hscope, hlength⟩, ?_⟩
    rw [Option.eq_none_iff_forall_ne_some]
    intro d hd
    obtain ⟨m₀, c₀, hm, accepted₀, rfl, henqueues⟩ := enqueued?_eq_some_iff.mp hd
    obtain ⟨-, unread₀, hfeed, room₀⟩ := shows.enqueues_iff.mp henqueues
    cases hfeed
    exact room room₀

/-- A mutation is missed by a watch for which changes are queued later on only if the watch loses
what does not fit and the mutation overran it. -/
theorem Coherent.overrun_of_enqueued_later (coherent : s.Coherent)
    (shows : s.hub.Shows id scope feed) (fits : feed.unread.length ≤ s.hub.capacity) {m : Mutation}
    {c : Commit} (accepted : s.mutate m = .ok c) (hscope : covers scope c.change.view.ns = true)
    (missed : s.enqueued? id (.mutate m) = none) {later : List Action} {a : Action} {d : Change}
    (hlater : ((s.act (.mutate m)).run later).enqueued? id a = some d) :
    s.hub.overflow = .dropNewest ∧ s.Overrun id scope s.hub.capacity m := by
  have hact := coherent.act (.mutate m)
  have hshows := (coherent.shows_act shows (.mutate m)).1
  -- the watch is registered later, hence after the mutation, hence before it
  have hregistered : ((s.act (.mutate m)).run later).hub.registered.find? id = some scope := by
    obtain ⟨-, -, -, -, -, henqueues⟩ := enqueued?_eq_some_iff.mp hlater
    have hlast := (hact.shows_run hshows later).1
    obtain ⟨-, unread, hfeed, -⟩ := hlast.enqueues_iff.mp henqueues
    rw [hlast.registered, hfeed]
    rfl
  obtain ⟨after, hafter⟩ := hact.registered_of_run hshows hregistered
  rw [← run_cons] at hregistered
  obtain ⟨unread, rfl⟩ := coherent.registered_of_run shows hregistered
  rcases enqueued_or_overrun shows fits accepted hscope with ⟨-, henqueued⟩ | ⟨overrun, -⟩
  · exact nomatch henqueued.symm.trans missed
  · refine ⟨?_, overrun⟩
    cases hpolicy : s.hub.overflow with
    | dropNewest => rfl
    | disconnect =>
        -- the overrun would have cut the watch off
        obtain ⟨c₀, accepted₀, -, hlength⟩ := overrun
        rw [shows.queued] at hlength
        have full : ¬ unread.length < s.hub.capacity := by
          rw [show unread.length = s.hub.capacity from hlength]
          exact Nat.lt_irrefl _
        have hevent : s.feedEvent? id scope (.mutate m) = some (.publish c.change) :=
          congrArg (Option.map Feed.Event.publish)
            (published?_eq_some_iff.mpr ⟨m, c, rfl, accepted, rfl, hscope⟩)
        rw [hevent, hpolicy] at hafter
        exact nomatch (Feed.step_publish_of_full full c.change).symm.trans hafter

/-- The queue of a watch that was opened without anything to read never grows beyond its capacity. -/
theorem Coherent.length_queued_le (coherent : s.Coherent)
    (shows : s.hub.Shows id scope (.registered [])) (actions : List Action) :
    ((s.run actions).hub.queued id).length ≤ s.hub.capacity := by
  rw [(coherent.shows_run shows actions).1.queued]
  exact Feed.length_unread_run_le _ (Nat.zero_le _) _

end Watched

end Store

end Autoscaling

import Autoscaling.Proofs.Store.Run
import Autoscaling.Proofs.Watch.Feed
import Autoscaling.Store.Hub.Lemmas
import Mathlib.Tactic.Common

/-!
# The watches of a store as feeds

Every watch of a hub behaves as a `Feed`, whatever is done with the other watches:
`Hub.Shows h id scope feed` says that the watch with that id, opened for that scope, stands as
`feed`, and `Store.Coherent.shows_run` says that a run of the store takes it to where the events of
that watch take the feed.  The events are read off the run by `Store.feedEvents`: the accepted
mutations in the scope, the receives and the stops.
-/

namespace Autoscaling

namespace Feed

/-- The scope that a feed is registered for. -/
def registration (scope : String) : Feed → Option String
  | registered _ => some scope
  | _ => none

/-- The reader's end of a feed. -/
def watch (scope : String) : Feed → Watch
  | registered unread => ⟨scope, unread, false, false⟩
  | cutOff unread => ⟨scope, unread, false, false⟩
  | ended => ⟨scope, [], false, true⟩
  | stopped => ⟨scope, [], true, true⟩

@[simp] theorem queue_watch (scope : String) (feed : Feed) :
    (feed.watch scope).queue = feed.unread := by
  cases feed <;> rfl

end Feed

namespace Hub

/-- A watch that was opened for a scope stands as a feed. -/
structure Shows (h : Hub) (id : Nat) (scope : String) (feed : Feed) : Prop where
  known : id ≤ h.lastId
  registered : h.registered.find? id = feed.registration scope
  watch : h.watches.find? id = some (feed.watch scope)

variable {h : Hub} {id : Nat} {scope : String} {feed : Feed}

/-- A new watch is registered, with nothing to read. -/
theorem shows_subscribe (h : Hub) (scope : String) :
    (h.subscribe scope).2.Shows (h.subscribe scope).1 scope (.registered []) where
  known := Nat.le_refl _
  registered := by rw [find?_registered_subscribe]; exact if_pos rfl
  watch := by rw [find?_watches_subscribe]; exact if_pos rfl

/-- Opening a watch does not touch the others: ids are not used twice. -/
theorem Shows.subscribe (shows : h.Shows id scope feed) (scope₀ : String) :
    (h.subscribe scope₀).2.Shows id scope feed := by
  have other : id ≠ h.lastId + 1 := by have := shows.known; omega
  refine ⟨Nat.le_succ_of_le shows.known, ?_, ?_⟩
  · rw [find?_registered_subscribe, if_neg other, shows.registered]
  · rw [find?_watches_subscribe, if_neg other, shows.watch]

/-- A change out of its scope does not reach a watch. -/
theorem Shows.publish_of_not_covers (shows : h.Shows id scope feed) {c : Change}
    (hscope : covers scope c.view.ns = false) : (h.publish c).Shows id scope feed := by
  refine ⟨shows.known, ?_, ?_⟩
  · rw [find?_registered_publish, shows.registered]
    cases feed <;> simp [Feed.registration, delivery, hscope]
  · rw [find?_watches_publish, shows.watch, shows.registered]
    cases feed <;> simp [Feed.registration, delivery, hscope]

/-- A change in its scope reaches a watch. -/
theorem Shows.publish_of_covers (shows : h.Shows id scope feed) {c : Change}
    (hscope : covers scope c.view.ns = true) :
    (h.publish c).Shows id scope (feed.step h.capacity h.overflow (.publish c)) := by
  refine ⟨shows.known, ?_, ?_⟩
  · rw [find?_registered_publish, shows.registered, shows.watch]
    cases feed with
    | registered unread =>
        by_cases room : unread.length < h.capacity
        · simp [Feed.registration, Feed.watch, Feed.step, delivery, hscope, room]
        · cases hoverflow : h.overflow <;>
            simp [Feed.registration, Feed.watch, Feed.step, delivery, hscope, room, hoverflow]
    | _ => rfl
  · rw [find?_watches_publish, shows.watch, shows.registered]
    cases feed with
    | registered unread =>
        by_cases room : unread.length < h.capacity
        · simp [Feed.registration, Feed.watch, Feed.step, delivery, hscope, room]
        · cases hoverflow : h.overflow <;>
            simp [Feed.registration, Feed.watch, Feed.step, delivery, hscope, room, hoverflow]
    | _ => rfl

theorem Shows.receive (shows : h.Shows id scope feed) :
    (h.receive id).1 = feed.answer ∧
      (h.receive id).2.Shows id scope (feed.step h.capacity h.overflow .receive) := by
  obtain ⟨known, registered, watch⟩ := shows
  -- each condition of the feed decides what the receive comes to
  cases feed with
  | registered unread =>
      cases unread with
      | nil =>
          have hreceive : h.receive id = (.pending, h) := by
            simp [Hub.receive, watch, Feed.watch, OrderedMap.contains, registered,
              Feed.registration]
          rw [hreceive]
          exact ⟨rfl, known, registered, watch⟩
      | cons c rest =>
          have hreceive : h.receive id = (.change c, { h with
              watches := h.watches.insert id ⟨scope, rest, false, false⟩ }) := by
            simp [Hub.receive, watch, Feed.watch]
          rw [hreceive]
          exact ⟨rfl, known, registered, by simp [Feed.step, Feed.watch]⟩
  | cutOff unread =>
      cases unread with
      | nil =>
          have hreceive : h.receive id = (.ended, { h with
              watches := h.watches.insert id ⟨scope, [], false, true⟩ }) := by
            simp [Hub.receive, watch, Feed.watch, OrderedMap.contains, registered,
              Feed.registration]
          rw [hreceive]
          exact ⟨rfl, known, registered, by simp [Feed.step, Feed.watch]⟩
      | cons c rest =>
          have hreceive : h.receive id = (.change c, { h with
              watches := h.watches.insert id ⟨scope, rest, false, false⟩ }) := by
            simp [Hub.receive, watch, Feed.watch]
          rw [hreceive]
          exact ⟨rfl, known, registered, by simp [Feed.step, Feed.watch]⟩
  | ended =>
      have hreceive : h.receive id = (.ended, h) := by simp [Hub.receive, watch, Feed.watch]
      rw [hreceive]
      exact ⟨rfl, known, registered, watch⟩
  | stopped =>
      have hreceive : h.receive id = (.ended, h) := by simp [Hub.receive, watch, Feed.watch]
      rw [hreceive]
      exact ⟨rfl, known, registered, watch⟩

/-- Receiving touches nothing but the readers' ends. -/
theorem exists_receive_eq (h : Hub) (id : Nat) :
    ∃ watches, (h.receive id).2 = { h with watches := watches } := by
  unfold Hub.receive
  split
  · exact ⟨h.watches, rfl⟩
  · split
    · exact ⟨h.watches, rfl⟩
    · split
      · exact ⟨_, rfl⟩
      · split
        · exact ⟨h.watches, rfl⟩
        · exact ⟨_, rfl⟩

theorem Shows.receive_other (shows : h.Shows id scope feed) {id₀ : Nat} (other : id ≠ id₀) :
    (h.receive id₀).2.Shows id scope feed := by
  refine ⟨?_, ?_, ?_⟩
  · obtain ⟨watches, hreceive⟩ := h.exists_receive_eq id₀
    rw [hreceive]
    exact shows.known
  · rw [registered_receive, shows.registered]
  · rw [find?_watches_receive other, shows.watch]

/-- Stopping touches nothing but the registrations and the readers' ends. -/
theorem exists_stop_eq (h : Hub) (id : Nat) :
    ∃ registered watches, h.stop id = { h with registered := registered, watches := watches } := by
  unfold Hub.stop
  split
  · exact ⟨h.registered, h.watches, rfl⟩
  · split
    · exact ⟨h.registered, h.watches, rfl⟩
    · exact ⟨_, _, rfl⟩

theorem Shows.stop (shows : h.Shows id scope feed) : (h.stop id).Shows id scope .stopped := by
  obtain ⟨known, registered, watch⟩ := shows
  have hstop (hopen : (feed.watch scope).stopped = false) : h.stop id = { h with
      registered := h.registered.erase id
      watches := h.watches.insert id { feed.watch scope with
        queue := [], stopped := true, closed := true } } := by
    simp [Hub.stop, watch, hopen]
  cases feed with
  | stopped =>
      have same : h.stop id = h := by simp [Hub.stop, watch, Feed.watch]
      rw [same]
      exact ⟨known, registered, watch⟩
  | _ =>
      rw [hstop rfl]
      exact ⟨known, by simp [Feed.registration], by simp [Feed.watch]⟩

theorem Shows.stop_other (shows : h.Shows id scope feed) {id₀ : Nat} (other : id ≠ id₀) :
    (h.stop id₀).Shows id scope feed := by
  refine ⟨?_, ?_, ?_⟩
  · obtain ⟨registered, watches, hstop⟩ := h.exists_stop_eq id₀
    rw [hstop]
    exact shows.known
  · rw [find?_registered_stop other, shows.registered]
  · rw [find?_watches_stop other, shows.watch]

end Hub

namespace Store

/-! ## What is published -/

/-- The change that an action publishes in a scope. -/
def published? (scope : String) (s : Store) (a : Action) : Option Change :=
  ((s.accepted? a).map Accepted.change).filter fun c => covers scope c.view.ns

/-- The changes in a scope that a run publishes. -/
def published (s : Store) (scope : String) (actions : List Action) : List Change :=
  s.collect (published? scope) actions

theorem published_append (s : Store) (scope : String) (first second : List Action) :
    s.published scope (first ++ second) =
      s.published scope first ++ (s.run first).published scope second :=
  collect_append ..

/-- What is published in a scope is what the log has in it. -/
theorem published_eq (s : Store) (scope : String) (actions : List Action) :
    s.published scope actions =
      ((s.log actions).map Accepted.change).filter fun c => covers scope c.view.ns := by
  induction actions generalizing s with
  | nil => rfl
  | cons a rest ih =>
      have hrest := ih (s.act a)
      simp only [published, log, collect, List.map_append, List.filter_append] at hrest ⊢
      rw [hrest]
      congr 1
      cases h : s.accepted? a with
      | none => simp [published?, h]
      | some x => by_cases hscope : covers scope x.change.view.ns = true <;>
          simp [published?, h, hscope]

theorem published?_eq_some_iff {s : Store} {scope : String} {a : Action} {c : Change} :
    s.published? scope a = some c ↔
      ∃ m commit, a = .mutate m ∧ s.mutate m = .ok commit ∧ commit.change = c ∧
        covers scope c.view.ns = true := by
  simp only [published?, Option.filter_eq_some_iff, Option.map_eq_some_iff]
  constructor
  · rintro ⟨⟨x, hx, rfl⟩, hscope⟩
    obtain ⟨rfl, -, accepted, -⟩ := accepted?_eq_some hx
    exact ⟨x.mutation, x.commit, rfl, accepted, rfl, hscope⟩
  · rintro ⟨m, commit, rfl, accepted, rfl, hscope⟩
    exact ⟨⟨⟨s, m, commit⟩, by simp [accepted?, accepted], rfl⟩, hscope⟩

/-! ## What happens to a watch -/

/-- What an action does to the watch with an id, opened for a scope. -/
def feedEvent? (id : Nat) (scope : String) (s : Store) : Action → Option Feed.Event
  | .receive id₀ => if id₀ = id then some .receive else none
  | .stop id₀ => if id₀ = id then some .stop else none
  | a => (s.published? scope a).map .publish

/-- What a run does to the watch with an id, opened for a scope. -/
def feedEvents (s : Store) (id : Nat) (scope : String) (actions : List Action) : List Feed.Event :=
  s.collect (feedEvent? id scope) actions

/-- No action changes how long the queues are and what becomes of a watch whose queue is full. -/
theorem Coherent.act_hub {s : Store} (coherent : s.Coherent) (a : Action) :
    (s.act a).hub.capacity = s.hub.capacity ∧ (s.act a).hub.overflow = s.hub.overflow := by
  cases a with
  | mutate m =>
      cases hm : s.mutate m with
      | error e => simp [Store.act, hm]
      | ok c => simp [Store.act, hm, (coherent.commits hm).hub, Hub.publish]
  | watch scope =>
      simp only [Store.act, Store.watch]
      split_ifs <;> exact ⟨rfl, rfl⟩
  | receive id =>
      obtain ⟨watches, hreceive⟩ := s.hub.exists_receive_eq id
      simp [Store.act, Store.receive, hreceive]
  | stop id =>
      obtain ⟨registered, watches, hstop⟩ := s.hub.exists_stop_eq id
      simp [Store.act, Store.stop, hstop]
  | listen ns name => exact ⟨rfl, rfl⟩
  | unlisten ns => exact ⟨rfl, rfl⟩

theorem Coherent.run_hub {s : Store} (coherent : s.Coherent) (actions : List Action) :
    (s.run actions).hub.capacity = s.hub.capacity ∧
      (s.run actions).hub.overflow = s.hub.overflow := by
  induction actions generalizing s with
  | nil => exact ⟨rfl, rfl⟩
  | cons a rest ih =>
      obtain ⟨hcapacity, hoverflow⟩ := ih (coherent.act a)
      exact ⟨hcapacity.trans (coherent.act_hub a).1, hoverflow.trans (coherent.act_hub a).2⟩

/-- An action does to a watch what its event does to the feed. -/
theorem Coherent.shows_act {s : Store} (coherent : s.Coherent) {id : Nat} {scope : String}
    {feed : Feed} (shows : s.hub.Shows id scope feed) (a : Action) :
    (s.act a).hub.Shows id scope
        (feed.run s.hub.capacity s.hub.overflow (s.feedEvent? id scope a).toList) ∧
      (s.receipt? id a).toList =
        feed.answers s.hub.capacity s.hub.overflow (s.feedEvent? id scope a).toList := by
  cases a with
  | mutate m =>
      cases hm : s.mutate m with
      | error e =>
          simp only [Store.act, feedEvent?, receipt?, published?, accepted?, hm]
          exact ⟨shows, rfl⟩
      | ok c =>
          simp only [Store.act, feedEvent?, receipt?, published?, accepted?, hm, Option.map_some,
            Option.filter_some, Accepted.change, (coherent.commits hm).hub]
          by_cases hscope : covers scope c.change.view.ns = true
          · rw [if_pos hscope]
            exact ⟨shows.publish_of_covers hscope, rfl⟩
          · rw [if_neg hscope]
            exact ⟨shows.publish_of_not_covers (Bool.eq_false_iff.mpr hscope), rfl⟩
  | watch scope₀ =>
      simp only [Store.act, Store.watch, feedEvent?, receipt?]
      split_ifs
      · exact ⟨shows, rfl⟩
      · exact ⟨shows.subscribe scope₀, rfl⟩
  | receive id₀ =>
      simp only [Store.act, Store.receive, feedEvent?, receipt?]
      by_cases hid : id₀ = id
      · subst hid
        obtain ⟨hanswer, hshows⟩ := shows.receive
        rw [if_pos rfl, if_pos rfl, hanswer]
        exact ⟨hshows, rfl⟩
      · rw [if_neg hid, if_neg hid]
        exact ⟨shows.receive_other (Ne.symm hid), rfl⟩
  | stop id₀ =>
      simp only [Store.act, Store.stop, feedEvent?, receipt?]
      by_cases hid : id₀ = id
      · subst hid
        rw [if_pos rfl]
        refine ⟨?_, rfl⟩
        cases feed <;> exact shows.stop
      · rw [if_neg hid]
        exact ⟨shows.stop_other (Ne.symm hid), rfl⟩
  | listen ns name => exact ⟨shows, rfl⟩
  | unlisten ns => exact ⟨shows, rfl⟩

/-- A run does to a watch what its events do to the feed. -/
theorem Coherent.shows_run {s : Store} (coherent : s.Coherent) {id : Nat} {scope : String}
    {feed : Feed} (shows : s.hub.Shows id scope feed) (actions : List Action) :
    (s.run actions).hub.Shows id scope
        (feed.run s.hub.capacity s.hub.overflow (s.feedEvents id scope actions)) ∧
      s.receipts id actions =
        feed.answers s.hub.capacity s.hub.overflow (s.feedEvents id scope actions) := by
  induction actions generalizing s feed with
  | nil => exact ⟨shows, rfl⟩
  | cons a rest ih =>
      obtain ⟨hshows, hreceipt⟩ := coherent.shows_act shows a
      obtain ⟨hlater, hreceipts⟩ := ih (coherent.act a) hshows
      rw [(coherent.act_hub a).1, (coherent.act_hub a).2, ← Feed.run_append] at hlater
      rw [(coherent.act_hub a).1, (coherent.act_hub a).2] at hreceipts
      refine ⟨hlater, ?_⟩
      simp only [receipts, feedEvents, collect, Feed.answers_append] at hreceipts ⊢
      rw [hreceipt, hreceipts]

/-- What an action publishes to a watch is what it publishes in its scope. -/
theorem published_feedEvent? (s : Store) (id : Nat) (scope : String) (a : Action) :
    Feed.published (s.feedEvent? id scope a).toList = (s.published? scope a).toList := by
  cases a with
  | mutate m =>
      cases h : s.published? scope (.mutate m) <;>
        simp [feedEvent?, h, Feed.published, Feed.Event.published?]
  | receive id₀ =>
      by_cases hid : id₀ = id <;>
        simp [feedEvent?, hid, Feed.published, Feed.Event.published?, published?, accepted?]
  | stop id₀ =>
      by_cases hid : id₀ = id <;>
        simp [feedEvent?, hid, Feed.published, Feed.Event.published?, published?, accepted?]
  | _ => rfl

theorem published_feedEvents (s : Store) (id : Nat) (scope : String) (actions : List Action) :
    Feed.published (s.feedEvents id scope actions) = s.published scope actions := by
  induction actions generalizing s with
  | nil => rfl
  | cons a rest ih =>
      have hfirst := s.published_feedEvent? id scope a
      have hrest := ih (s.act a)
      simp only [Feed.published, published, feedEvents, collect, List.filterMap_append]
        at hfirst hrest ⊢
      rw [hfirst, hrest]

/-- An event of a watch is a receive from it, a stop of it, or the publication of a change. -/
theorem feedEvent?_eq_some {s : Store} {id : Nat} {scope : String} {a : Action} {e : Feed.Event}
    (h : s.feedEvent? id scope a = some e) :
    (e = .receive ∧ a = .receive id) ∨ (e = .stop ∧ a = .stop id) ∨
      ∃ c, e = .publish c ∧ s.published? scope a = some c := by
  cases a with
  | receive id₀ =>
      simp only [feedEvent?] at h
      split_ifs at h with hid
      exact .inl ⟨(Option.some.inj h).symm, hid ▸ rfl⟩
  | stop id₀ =>
      simp only [feedEvent?] at h
      split_ifs at h with hid
      exact .inr (.inl ⟨(Option.some.inj h).symm, hid ▸ rfl⟩)
  | mutate m =>
      obtain ⟨c, hc, he⟩ := Option.map_eq_some_iff.mp h
      exact .inr (.inr ⟨c, he.symm, hc⟩)
  | _ => exact nomatch h

/-- A run in which a watch is not stopped has no stop for it. -/
theorem stop_not_mem_feedEvents {id : Nat} {actions : List Action} (h : Action.stop id ∉ actions)
    (s : Store) (scope : String) : Feed.Event.stop ∉ s.feedEvents id scope actions := by
  intro hmem
  obtain ⟨before, after, hevents⟩ := List.append_of_mem hmem
  obtain ⟨first, a, second, rfl, -, ha⟩ := exists_of_collect_eq hevents
  rcases feedEvent?_eq_some ha with ⟨he, -⟩ | ⟨-, rfl⟩ | ⟨c, he, -⟩
  · exact nomatch he
  · exact h (List.mem_append_right _ List.mem_cons_self)
  · exact nomatch he

/-! ## Opening a watch -/

theorem watch_eq_ok_iff {s s' : Store} {scope : String} {id : Nat} :
    s.watch scope = .ok (id, s') ↔
      s.hub.capacity ≤ Abort.greatestCount ∧ id = (s.hub.subscribe scope).1 ∧
        s' = { s with hub := (s.hub.subscribe scope).2 } := by
  unfold Store.watch
  by_cases room : Abort.greatestCount < s.hub.capacity
  · simp [room, Nat.not_le.mpr room]
  · simp [room, Nat.le_of_not_lt room, eq_comm]

/-- A watch is opened without touching anything but the hub, where it is registered and has nothing
to read. -/
theorem opened_watch {s s' : Store} {scope : String} {id : Nat}
    (h : s.watch scope = .ok (id, s')) :
    s' = s.act (.watch scope) ∧ s'.hub.capacity = s.hub.capacity ∧
      s'.hub.overflow = s.hub.overflow ∧ s'.hub.Shows id scope (.registered []) := by
  obtain ⟨-, rfl, rfl⟩ := watch_eq_ok_iff.mp h
  exact ⟨by rw [act, h], rfl, rfl, s.hub.shows_subscribe scope⟩

end Store

end Autoscaling

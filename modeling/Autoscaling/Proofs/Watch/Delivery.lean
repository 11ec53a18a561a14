import Autoscaling.Proofs.Watch.Simulation
import Mathlib.Tactic.Common

/-!
# Delivery without gaps

Under the policy that ends a watch on overflow, the reader of a watch gets the mutations of its
scope in the order in which they were accepted, each once, from the opening of the watch on and up
to some point.  `Store.delivery_gap_free` says how far that is: the reader falls short only of what
was published after an overrun, that is, after a mutation in its scope was accepted while all places
of its queue were taken.  After an overrun the reader gets what is queued and is then told of the
end.

The parts of that theorem are lemmas on a store in which a watch stands as a registered feed with
nothing to read, which is how a watch is opened.
-/

namespace Autoscaling

theorem Hub.Shows.queued {h : Hub} {id : Nat} {scope : String} {feed : Feed}
    (shows : h.Shows id scope feed) : h.queued id = feed.unread := by
  rw [Hub.queued, shows.watch]
  exact Feed.queue_watch scope feed

theorem Hub.Shows.isClosed {h : Hub} {id : Nat} {scope : String} {feed : Feed}
    (shows : h.Shows id scope feed) : h.isClosed id = (feed.watch scope).closed := by
  rw [Hub.isClosed, shows.watch]

namespace Store

/-- The changes that the reader of a watch gets in a run. -/
def received (s : Store) (id : Nat) (actions : List Action) : List Change :=
  (s.receipts id actions).filterMap Receipt.change?

/-- A mutation is accepted in the scope of a watch while all places of its queue are taken. -/
def Overrun (s : Store) (id : Nat) (scope : String) (capacity : Nat) (m : Mutation) : Prop :=
  ∃ c, s.mutate m = .ok c ∧ covers scope c.change.view.ns = true ∧
    (s.hub.queued id).length = capacity

instance (s : Store) (id : Nat) (scope : String) (capacity : Nat) (m : Mutation) :
    Decidable (s.Overrun id scope capacity m) :=
  match accepted : s.mutate m with
  | .ok c =>
      decidable_of_iff
        (covers scope c.change.view.ns = true ∧ (s.hub.queued id).length = capacity)
        ⟨fun overrun => ⟨c, accepted, overrun⟩, fun ⟨_, h, overrun⟩ =>
          Except.ok.inj (accepted.symm.trans h) ▸ overrun⟩
  | .error _ => .isFalse fun ⟨_, h, _⟩ => nomatch accepted.symm.trans h

/-- A watch that is overrun is cut off, with its queue as it is. -/
theorem Coherent.shows_of_overrun {s : Store} (coherent : s.Coherent)
    (hpolicy : s.hub.overflow = .disconnect) (hcapacity : 0 < s.hub.capacity) {id : Nat}
    {scope : String} {feed : Feed} (shows : s.hub.Shows id scope feed) {m : Mutation}
    (overrun : s.Overrun id scope s.hub.capacity m) :
    (s.act (.mutate m)).hub.Shows id scope (.cutOff (s.hub.queued id)) := by
  obtain ⟨c, accepted, hscope, hlength⟩ := overrun
  have published := shows.publish_of_covers hscope
  rw [hpolicy] at published
  rw [shows.queued] at hlength ⊢
  simp only [Store.act, accepted, (coherent.commits accepted).hub]
  cases feed with
  | registered unread =>
      rw [Feed.step_publish_of_full (by rw [← hlength]; exact Nat.lt_irrefl _)] at published
      exact published
  | cutOff unread => exact published
  -- nothing is queued in these two conditions, but the queue is full and has a place
  | ended => exact absurd hlength (Nat.ne_of_lt hcapacity)
  | stopped => exact absurd hlength (Nat.ne_of_lt hcapacity)

/-- A watch that was cut off is not registered again. -/
theorem Coherent.unregistered_of_cutOff {s : Store} (coherent : s.Coherent) {id : Nat}
    {scope : String} {full : List Change} (shows : s.hub.Shows id scope (.cutOff full))
    (actions : List Action) : (s.run actions).hub.registered.find? id = none := by
  rw [(coherent.shows_run shows actions).1.registered]
  cases hfeed : Feed.run s.hub.capacity s.hub.overflow (.cutOff full)
      (s.feedEvents id scope actions) with
  | registered unread => exact absurd hfeed (Feed.run_ne_registered (.cutOff full) nofun _ unread)
  | _ => rfl

/-- The reader of a watch that was cut off and is not stopped gets what is queued, one change by one
receive, and every later receive reports the end. -/
theorem Coherent.receipts_of_cutOff {s : Store} (coherent : s.Coherent) {id : Nat} {scope : String}
    {full : List Change} (shows : s.hub.Shows id scope (.cutOff full)) {actions : List Action}
    (hstop : Action.stop id ∉ actions) :
    (∀ i (hi : i < (s.receipts id actions).length), (s.receipts id actions)[i] =
        match full[i]? with
        | some c => .change c
        | none => .ended) ∧
      ((s.run actions).hub.isClosed id = true ↔
        full.length < (s.receipts id actions).length) := by
  obtain ⟨hshows, hreceipts⟩ := coherent.shows_run shows actions
  have hevents := stop_not_mem_feedEvents hstop s scope
  rw [Feed.run_cutOff hevents, ← hreceipts] at hshows
  constructor
  · simp only [hreceipts]
    exact Feed.answers_cutOff hevents full
  · rw [hshows.isClosed]
    split_ifs with hleft
    · simpa [Feed.watch] using hleft
    · simpa [Feed.watch] using hleft

section Disconnecting

variable {s : Store} {id : Nat} {scope : String} (coherent : s.Coherent)
  (hpolicy : s.hub.overflow = .disconnect) (shows : s.hub.Shows id scope (.registered []))

include coherent hpolicy shows

/-- What the reader has got and what is queued is a first part of what was published. -/
theorem received_append_queued_prefix (actions : List Action) :
    s.received id actions ++ (s.run actions).hub.queued id <+: s.published scope actions := by
  obtain ⟨hshows, hreceipts⟩ := coherent.shows_run shows actions
  rw [received, hreceipts, hshows.queued, hpolicy, ← published_feedEvents s id]
  exact Feed.delivered_prefix [] _

/-- As long as a watch is registered, nothing that was published is lost. -/
theorem received_append_queued_of_registered {actions : List Action}
    (hregistered : (s.run actions).hub.registered.find? id = some scope) :
    s.received id actions ++ (s.run actions).hub.queued id = s.published scope actions := by
  obtain ⟨hshows, hreceipts⟩ := coherent.shows_run shows actions
  rw [hpolicy] at hshows hreceipts
  -- of the four conditions only one is registered
  rw [hshows.registered] at hregistered
  rw [received, hreceipts, hshows.queued, ← published_feedEvents s id]
  cases hfeed : Feed.run s.hub.capacity .disconnect (.registered [])
      (s.feedEvents id scope actions) with
  | registered unread => exact Feed.delivered_of_registered hfeed
  | _ => simp [hfeed, Feed.registration] at hregistered

omit hpolicy in
/-- A watch that was neither stopped nor overrun is registered. -/
theorem registered_of_no_overrun {actions : List Action} (hstop : Action.stop id ∉ actions)
    (hno : ∀ first m second, actions = first ++ .mutate m :: second →
      ¬ (s.run first).Overrun id scope s.hub.capacity m) :
    (s.run actions).hub.registered.find? id = some scope := by
  obtain ⟨hshows, -⟩ := coherent.shows_run shows actions
  rw [hshows.registered]
  cases hfeed : Feed.run s.hub.capacity s.hub.overflow (.registered [])
      (s.feedEvents id scope actions) with
  | registered unread => rfl
  | _ =>
      exfalso
      -- the feed overflowed at some event, and the action behind it is an overrun
      obtain ⟨before, c, after, full, hevents, hfull, hlength⟩ :=
        Feed.exists_overflow [] (stop_not_mem_feedEvents hstop s scope)
          (fun unread h => nomatch hfeed.symm.trans h)
      obtain ⟨first, a, second, hactions, hfirst, ha⟩ := exists_of_collect_eq hevents
      have hc : (s.run first).published? scope a = some c := by
        rcases feedEvent?_eq_some ha with ⟨he, -⟩ | ⟨he, -⟩ | ⟨d, he, hd⟩
        · exact nomatch he
        · exact nomatch he
        · cases he
          exact hd
      obtain ⟨m, commit, rfl, accepted, rfl, hscope⟩ := published?_eq_some_iff.mp hc
      have hfeedFull := (coherent.shows_run shows first).1
      rw [show s.feedEvents id scope first = before from hfirst, hfull] at hfeedFull
      refine hno first m second hactions ⟨commit, accepted, hscope, ?_⟩
      have hle : (Feed.run s.hub.capacity s.hub.overflow (.registered []) before).unread.length ≤
          s.hub.capacity := Feed.length_unread_run_le _ (Nat.zero_le _) before
      rw [hfull] at hle
      rw [hfeedFull.queued]
      exact Nat.le_antisymm hle hlength

/-- After an overrun a watch is not registered any more.  Unless its reader stops it, the reader
gets what was queued then, one change by one receive, and every later receive reports the end. -/
theorem run_of_overrun {first : List Action} {m : Mutation} (hcapacity : 0 < s.hub.capacity)
    (overrun : (s.run first).Overrun id scope s.hub.capacity m) (second : List Action) :
    let full := (s.run first).hub.queued id
    let receipts := ((s.run first).act (.mutate m)).receipts id second
    (s.run (first ++ .mutate m :: second)).hub.registered.find? id = none ∧
      (Action.stop id ∉ second →
        (∀ i (hi : i < receipts.length), receipts[i] = match full[i]? with
          | some c => .change c
          | none => .ended) ∧
        ((s.run (first ++ .mutate m :: second)).hub.isClosed id = true ↔
          full.length < receipts.length)) := by
  obtain ⟨hcap, hover⟩ := coherent.run_hub first
  have cut := (coherent.run first).shows_of_overrun (hover.trans hpolicy) (hcap ▸ hcapacity)
    (coherent.shows_run shows first).1 (hcap.symm ▸ overrun)
  have hact := (coherent.run first).act (.mutate m)
  rw [run_append]
  exact ⟨hact.unregistered_of_cutOff cut second, fun hstop => hact.receipts_of_cutOff cut hstop⟩

end Disconnecting

/-- **Delivery without gaps.**  In a run of a store that ends watches on overflow, the `i`-th
accepted mutation is published under the number `i`.  Of the mutations that are accepted in its
scope after it was opened, a watch delivers, and holds ready, a first part, in their order and each
once.  It is all of them unless the watch was stopped or overrun.  From an overrun on the watch is
not registered; its reader gets what fills the queue, and then the end. -/
theorem delivery_gap_free (tuning : Tuning) (handled : Bool)
    (hpolicy : tuning.watchOverflow = .disconnect) (before after : List Action) (scope : String)
    {id : Nat} {s : Store}
    (opened : ((create tuning handled).run before).watch scope = .ok (id, s)) :
    let start := create tuning handled
    let capacity := max tuning.watchQueueCapacity.toNat 1
    let log := start.log (before ++ .watch scope :: after)
    let later := (log.drop (start.log before).length).map Accepted.change
    let inScope := later.filter fun c => covers scope c.view.ns
    (∀ i (hi : i < log.length), log[i].Stamped (i + 1)) ∧
      s.received id after ++ (s.run after).hub.queued id <+: inScope ∧
      (Action.stop id ∉ after →
        (∀ first m second, after = first ++ .mutate m :: second →
          ¬ (s.run first).Overrun id scope capacity m) →
        s.received id after ++ (s.run after).hub.queued id = inScope) ∧
      ∀ first m second, after = first ++ .mutate m :: second →
        (s.run first).Overrun id scope capacity m →
        let full := (s.run first).hub.queued id
        let receipts := ((s.run first).act (.mutate m)).receipts id second
        full.length = capacity ∧ (s.run after).hub.registered.find? id = none ∧
          (Action.stop id ∉ second →
            (∀ i (hi : i < receipts.length), receipts[i] = match full[i]? with
              | some c => .change c
              | none => .ended) ∧
            ((s.run after).hub.isClosed id = true ↔ capacity < receipts.length)) := by
  intro start capacity log later inScope
  have hstart : start.Coherent := coherent_create tuning handled
  obtain ⟨hact, hcapacity, hoverflow, shows⟩ := opened_watch opened
  have coherent : s.Coherent := hact ▸ (hstart.run before).act _
  have hcap : s.hub.capacity = capacity := hcapacity.trans (hstart.run_hub before).1
  have hover : s.hub.overflow = .disconnect :=
    hoverflow.trans ((hstart.run_hub before).2.trans hpolicy)
  -- the log after the opening, in the scope, is what is published to the watch
  have hpublished : inScope = s.published scope after := by
    have hlog : log = start.log before ++ s.log after := by
      show start.log (before ++ .watch scope :: after) = _
      rw [log_append, hact]
      rfl
    show (List.map Accepted.change (log.drop _)).filter _ = _
    rw [hlog, List.drop_left, published_eq]
  rw [hpublished, ← hcap]
  refine ⟨?_, received_append_queued_prefix coherent hover shows after, ?_, ?_⟩
  · intro i hi
    simpa using hstart.stamped_log (n := 0) rfl _ i hi
  · intro hstop hno
    exact received_append_queued_of_registered coherent hover shows
      (registered_of_no_overrun coherent shows hstop hno)
  · rintro first m second rfl overrun
    have hpositive : 0 < s.hub.capacity := by
      rw [hcap]
      exact Nat.lt_of_lt_of_le Nat.zero_lt_one (Nat.le_max_right _ _)
    have hfull : ((s.run first).hub.queued id).length = s.hub.capacity := overrun.choose_spec.2.2
    obtain ⟨hregistered, hrest⟩ :=
      run_of_overrun coherent hover shows hpositive overrun second
    refine ⟨hfull, hregistered, fun hstop => ?_⟩
    obtain ⟨hreceipts, hclosed⟩ := hrest hstop
    rw [hfull] at hclosed
    exact ⟨hreceipts, hclosed⟩

/-- A watch with one place misses the second of two mutations, and its reader learns of it. -/
theorem delivery_gap_free_one_place :
    let spec (name : String) : Spec := ⟨"ns", name, none, 1, [⟨"load", 1, none⟩], none, none⟩
    let add (name : String) : Mutation := .add (.declared (spec name))
    let start := create ⟨1, .disconnect⟩ false
    let s := start.run [.mutate (add "a"), .watch "ns"]
    let after : List Action :=
      [.mutate (add "b"), .mutate (add "c"), .receive 1, .mutate (add "d"), .receive 1]
    (start.run [.mutate (add "a")]).watch "ns" = .ok (1, s) ∧
      (s.run [.mutate (add "b")]).Overrun 1 "ns" 1 (add "c") ∧
      (s.run after).hub.registered.find? 1 = none ∧ (s.run after).hub.isClosed 1 = true := by
  intro spec add start s after
  have opened : (start.run [.mutate (add "a")]).watch "ns" = .ok (1, s) := rfl
  have overrun : (s.run [.mutate (add "b")]).Overrun 1 "ns" 1 (add "c") := by decide
  have main := delivery_gap_free ⟨1, .disconnect⟩ false rfl [.mutate (add "a")] after "ns" opened
  obtain ⟨-, hregistered, hrest⟩ := main.2.2.2 [.mutate (add "b")] (add "c")
    [.receive 1, .mutate (add "d"), .receive 1] rfl overrun
  have hstop : Action.stop 1 ∉ [.receive 1, .mutate (add "d"), .receive 1] := by simp
  exact ⟨opened, overrun, hregistered, (hrest hstop).2.mpr (by decide)⟩

end Store

end Autoscaling

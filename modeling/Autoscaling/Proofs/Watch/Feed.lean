import Autoscaling.Store.Hub
import Mathlib.Tactic.Common

/-!
# Feeds

A feed is one watch on its own.  It goes through four conditions: it is registered, it is cut off
from the hub and its reader has not noticed yet, the reader has been told of the end, or the reader
has stopped it.  Three things happen to it: a change in its scope is published, its reader receives,
and its reader stops it.

This module is about the feed as an automaton.  What it delivers and what it still holds is compared
with what was published:

* `Feed.delivered_of_registered` — as long as a feed that ends on overflow is registered, nothing
  that was published is lost, repeated or moved;
* `Feed.delivered_prefix` — whatever happens, it is a first part of what was published;
* `Feed.exists_overflow` — a feed that nobody stopped is registered unless it overflowed;
* `Feed.answers_cutOff` — a feed that was cut off delivers what is left, and then reports the end.

That the watches of a hub behave as feeds is shown in `Autoscaling.Proofs.Watch.Simulation`.
-/

namespace Autoscaling

/-- The change that a receipt delivers. -/
def Receipt.change? : Receipt → Option Change
  | change c => some c
  | pending => none
  | ended => none

/-- How a watch stands. -/
inductive Feed where
  /-- registered, with the changes that are not read yet -/
  | registered (unread : List Change)
  /-- not registered any more, and the reader does not know it yet -/
  | cutOff (unread : List Change)
  /-- not registered any more, and the reader knows it -/
  | ended
  /-- stopped by its reader -/
  | stopped

/-- Something that happens to a watch. -/
inductive Feed.Event where
  /-- a change in its scope is published -/
  | publish (c : Change)
  | receive
  | stop

namespace Feed

/-- The changes that are queued. -/
def unread : Feed → List Change
  | registered unread => unread
  | cutOff unread => unread
  | ended => []
  | stopped => []

/-- What becomes of a feed. -/
def step (capacity : Nat) (overflow : Overflow) : Feed → Event → Feed
  | _, .stop => stopped
  | registered unread, .publish c =>
      if unread.length < capacity then registered (unread ++ [c])
      else
        match overflow with
        | .disconnect => cutOff unread
        | .dropNewest => registered unread
  | registered (_ :: rest), .receive => registered rest
  | cutOff (_ :: rest), .receive => cutOff rest
  | cutOff [], .receive => ended
  | feed, _ => feed

/-- The answer to a receive. -/
def answer : Feed → Receipt
  | registered (c :: _) => .change c
  | registered [] => .pending
  | cutOff (c :: _) => .change c
  | cutOff [] => .ended
  | ended => .ended
  | stopped => .ended

/-- What becomes of a feed in the end. -/
def run (capacity : Nat) (overflow : Overflow) (feed : Feed) (events : List Event) : Feed :=
  events.foldl (step capacity overflow) feed

/-- The answers to the receives, in their order. -/
def answers (capacity : Nat) (overflow : Overflow) : Feed → List Event → List Receipt
  | _, [] => []
  | feed, .receive :: rest =>
      feed.answer :: answers capacity overflow (feed.step capacity overflow .receive) rest
  | feed, .publish c :: rest =>
      answers capacity overflow (feed.step capacity overflow (.publish c)) rest
  | feed, .stop :: rest => answers capacity overflow (feed.step capacity overflow .stop) rest

/-- The change that an event publishes. -/
def Event.published? : Event → Option Change
  | publish c => some c
  | receive => none
  | stop => none

/-- What was published. -/
def published (events : List Event) : List Change := events.filterMap Event.published?

/-- The changes that are delivered to the reader. -/
def delivered (capacity : Nat) (overflow : Overflow) (feed : Feed) (events : List Event) :
    List Change :=
  (answers capacity overflow feed events).filterMap Receipt.change?

variable {capacity : Nat} {overflow : Overflow}

theorem run_append (feed : Feed) (first second : List Event) :
    feed.run capacity overflow (first ++ second) =
      (feed.run capacity overflow first).run capacity overflow second :=
  List.foldl_append

theorem answers_append (feed : Feed) (first second : List Event) :
    feed.answers capacity overflow (first ++ second) =
      feed.answers capacity overflow first ++
        (feed.run capacity overflow first).answers capacity overflow second := by
  induction first generalizing feed with
  | nil => rfl
  | cons e rest ih => cases e <;> simp [answers, run, ih]

theorem run_cons (feed : Feed) (e : Event) (rest : List Event) :
    feed.run capacity overflow (e :: rest) =
      (feed.step capacity overflow e).run capacity overflow rest := rfl

theorem delivered_publish (feed : Feed) (c : Change) (rest : List Event) :
    feed.delivered capacity overflow (.publish c :: rest) =
      (feed.step capacity overflow (.publish c)).delivered capacity overflow rest := rfl

theorem step_publish_of_room {unread : List Change} (room : unread.length < capacity) (c : Change) :
    (registered unread).step capacity overflow (.publish c) = registered (unread ++ [c]) :=
  if_pos room

theorem step_publish_of_full {unread : List Change} (full : ¬ unread.length < capacity)
    (c : Change) : (registered unread).step capacity .disconnect (.publish c) = cutOff unread :=
  if_neg full

theorem answer_eq_change {feed : Feed} {c : Change} (h : feed.answer = .change c) :
    ∃ rest, feed = registered (c :: rest) ∨ feed = cutOff (c :: rest) := by
  cases feed with
  | registered unread =>
      cases unread with
      | nil => exact nomatch h
      | cons d rest =>
          cases h
          exact ⟨rest, .inl rfl⟩
  | cutOff unread =>
      cases unread with
      | nil => exact nomatch h
      | cons d rest =>
          cases h
          exact ⟨rest, .inr rfl⟩
  | ended => exact nomatch h
  | stopped => exact nomatch h

theorem answer_eq_pending {feed : Feed} (h : feed.answer = .pending) : feed = registered [] := by
  cases feed with
  | registered unread =>
      cases unread with
      | nil => rfl
      | cons c rest => exact nomatch h
  | cutOff unread => cases unread <;> exact nomatch h
  | ended => exact nomatch h
  | stopped => exact nomatch h

/-! ## After the end -/

/-- A feed that has told its reader of the end, or was stopped, answers nothing else any more. -/
theorem answers_of_closed {feed : Feed} (closed : feed = ended ∨ feed = stopped)
    (events : List Event) : ∀ r ∈ feed.answers capacity overflow events, r = .ended := by
  induction events generalizing feed with
  | nil => simp [answers]
  | cons e rest ih =>
      have hstep : feed.step capacity overflow e = ended ∨
          feed.step capacity overflow e = stopped := by
        rcases closed with rfl | rfl <;> cases e <;> simp [step]
      have hanswer : feed.answer = .ended := by rcases closed with rfl | rfl <;> rfl
      cases e with
      | publish c => exact ih hstep
      | stop => exact ih hstep
      | receive =>
          intro r hr
          rcases List.mem_cons.mp hr with hr | hr
          · exact hr.trans hanswer
          · exact ih hstep r hr

/-- The answers of a feed that was cut off, and that is not stopped: the changes that are left, one
by one, and from then on the end. -/
theorem answers_cutOff {events : List Event} (hstop : Event.stop ∉ events) (unread : List Change)
    (i : Nat) (hi : i < (answers capacity overflow (cutOff unread) events).length) :
    (answers capacity overflow (cutOff unread) events)[i] =
      match unread[i]? with
      | some c => .change c
      | none => .ended := by
  induction events generalizing unread i with
  | nil => exact nomatch hi
  | cons e rest ih =>
      have hrest : Event.stop ∉ rest := fun h => hstop (List.mem_cons_of_mem _ h)
      cases e with
      | publish c => exact ih hrest unread i hi
      | stop => exact absurd List.mem_cons_self hstop
      | receive =>
          -- with nothing left, this receive and all later ones report the end
          cases unread with
          | nil =>
              cases i with
              | zero => rfl
              | succ i => exact answers_of_closed (.inl rfl) rest _ (List.getElem_mem _)
          | cons c unread =>
              cases i with
              | zero => rfl
              | succ i => exact ih hrest unread i (Nat.lt_of_succ_lt_succ hi)

theorem run_ended {events : List Event} (hstop : Event.stop ∉ events) :
    ended.run capacity overflow events = ended := by
  induction events with
  | nil => rfl
  | cons e rest ih =>
      have hrest : Event.stop ∉ rest := fun h => hstop (List.mem_cons_of_mem _ h)
      cases e with
      | stop => exact absurd List.mem_cons_self hstop
      | _ => exact ih hrest

/-- What becomes of a feed that was cut off and is not stopped: the reader is told of the end by the
first receive that finds nothing left. -/
theorem run_cutOff {events : List Event} (hstop : Event.stop ∉ events) (unread : List Change) :
    (cutOff unread).run capacity overflow events =
      if ((cutOff unread).answers capacity overflow events).length ≤ unread.length then
        cutOff (unread.drop ((cutOff unread).answers capacity overflow events).length)
      else ended := by
  induction events generalizing unread with
  | nil => rfl
  | cons e rest ih =>
      have hrest : Event.stop ∉ rest := fun h => hstop (List.mem_cons_of_mem _ h)
      cases e with
      | publish c => exact ih hrest unread
      | stop => exact absurd List.mem_cons_self hstop
      | receive =>
          cases unread with
          | nil =>
              rw [run_cons, if_neg (by simp [answers])]
              exact run_ended hrest
          | cons c unread =>
              have later := ih hrest unread
              simpa [answers, step, run] using later

/-! ## What is delivered -/

/-- A feed that is not registered delivers what is queued, or a first part of it. -/
theorem delivered_prefix_of_unregistered (feed : Feed) (hfeed : ∀ unread, feed ≠ registered unread)
    (events : List Event) :
    delivered capacity overflow feed events ++ (feed.run capacity overflow events).unread <+:
      feed.unread := by
  induction events generalizing feed with
  | nil => exact List.prefix_refl _
  | cons e rest ih =>
      cases feed with
      | registered unread => exact absurd rfl (hfeed unread)
      | cutOff unread =>
          cases e with
          | publish c => exact ih (cutOff unread) hfeed
          | stop => exact (ih stopped nofun).trans List.nil_prefix
          | receive =>
              cases unread with
              | nil => exact ih ended nofun
              | cons c unread =>
                  exact (List.prefix_cons_inj c).mpr (ih (cutOff unread) nofun)
      | ended => cases e <;> exact ih _ nofun
      | stopped => cases e <;> exact ih stopped nofun

/-- Under the policy that ends a watch on overflow, what a registered feed delivers and still holds
is a first part of what it held and what was published. -/
theorem delivered_prefix (unread : List Change) (events : List Event) :
    delivered capacity .disconnect (registered unread) events ++
        ((registered unread).run capacity .disconnect events).unread <+:
      unread ++ published events := by
  induction events generalizing unread with
  | nil => simp [delivered, answers, run, Feed.unread]
  | cons e rest ih =>
      cases e with
      | publish c =>
          by_cases room : unread.length < capacity
          · rw [delivered_publish, run_cons, step_publish_of_room room]
            simpa [published, Event.published?] using ih (unread ++ [c])
          · rw [delivered_publish, run_cons, step_publish_of_full room]
            -- the change is lost, and nothing comes after what was queued then
            refine List.IsPrefix.trans ?_ (List.prefix_append unread _)
            exact delivered_prefix_of_unregistered (cutOff unread) nofun rest
      | stop =>
          refine List.IsPrefix.trans ?_ List.nil_prefix
          exact delivered_prefix_of_unregistered stopped nofun rest
      | receive =>
          cases unread with
          | nil => exact ih []
          | cons c unread => exact (List.prefix_cons_inj c).mpr (ih unread)

theorem run_ne_registered (feed : Feed) (hfeed : ∀ unread, feed ≠ registered unread)
    (events : List Event) (unread : List Change) :
    feed.run capacity overflow events ≠ registered unread := by
  induction events generalizing feed with
  | nil => exact hfeed unread
  | cons e rest ih =>
      refine ih (feed.step capacity overflow e) ?_
      intro unread
      cases feed with
      | registered unread => exact absurd rfl (hfeed unread)
      | cutOff unread =>
          cases e with
          | receive => cases unread <;> simp [step]
          | _ => simp [step]
      | _ => cases e <;> simp [step]

/-- As long as a feed that ends on overflow is registered, it has kept everything in order. -/
theorem delivered_of_registered {unread unread' : List Change} {events : List Event}
    (h : (registered unread).run capacity .disconnect events = registered unread') :
    delivered capacity .disconnect (registered unread) events ++ unread' =
      unread ++ published events := by
  induction events generalizing unread with
  | nil =>
      cases h
      simp [delivered, answers, published]
  | cons e rest ih =>
      cases e with
      | publish c =>
          by_cases room : unread.length < capacity
          · rw [run_cons, step_publish_of_room room] at h
            rw [delivered_publish, step_publish_of_room room]
            simpa [published, Event.published?] using ih h
          · rw [run_cons, step_publish_of_full room] at h
            exact absurd h (run_ne_registered (cutOff unread) nofun rest unread')
      | stop => exact absurd h (run_ne_registered stopped nofun rest unread')
      | receive =>
          cases unread with
          | nil => exact ih h
          | cons c unread => exact congrArg (c :: ·) (ih h)

theorem length_unread_run_le (feed : Feed) (hfeed : feed.unread.length ≤ capacity)
    (events : List Event) : (feed.run capacity overflow events).unread.length ≤ capacity := by
  induction events generalizing feed with
  | nil => exact hfeed
  | cons e rest ih =>
      refine ih (feed.step capacity overflow e) ?_
      cases e with
      | stop => simp [step, unread]
      | publish c =>
          cases feed with
          | registered unread =>
              by_cases room : unread.length < capacity
              · rw [step_publish_of_room room]
                simp only [Feed.unread, List.length_append, List.length_singleton]
                omega
              · cases overflow <;> simpa [step, room, Feed.unread] using hfeed
          | _ => exact hfeed
      | receive =>
          cases feed with
          | registered unread =>
              cases unread with
              | nil => exact hfeed
              | cons c rest => exact Nat.le_of_succ_le hfeed
          | cutOff unread =>
              cases unread with
              | nil => exact hfeed
              | cons c rest => exact Nat.le_of_succ_le hfeed
          | _ => exact hfeed

/-- A feed that is not registered any more, and was not stopped, has overflowed: a change was
published while it was full. -/
theorem exists_overflow (unread : List Change) {events : List Event}
    (hstop : Event.stop ∉ events)
    (h : ∀ unread', (registered unread).run capacity overflow events ≠ registered unread') :
    ∃ before c after full, events = before ++ .publish c :: after ∧
      (registered unread).run capacity overflow before = registered full ∧
      capacity ≤ full.length := by
  induction events generalizing unread with
  | nil => exact absurd rfl (h unread)
  | cons e rest ih =>
      have hrest : Event.stop ∉ rest := fun h => hstop (List.mem_cons_of_mem _ h)
      cases e with
      | stop => exact absurd List.mem_cons_self hstop
      | publish c =>
          by_cases room : unread.length < capacity
          · simp only [run_cons, step_publish_of_room room] at h
            obtain ⟨before, d, after, full, rfl, hrun, hfull⟩ := ih (unread ++ [c]) hrest h
            refine ⟨.publish c :: before, d, after, full, rfl, ?_, hfull⟩
            rw [run_cons, step_publish_of_room room, hrun]
          · exact ⟨[], c, rest, unread, rfl, rfl, Nat.le_of_not_lt room⟩
      | receive =>
          cases unread with
          | nil =>
              obtain ⟨before, d, after, full, rfl, hrun, hfull⟩ := ih [] hrest h
              exact ⟨.receive :: before, d, after, full, rfl, hrun, hfull⟩
          | cons c unread =>
              obtain ⟨before, d, after, full, rfl, hrun, hfull⟩ := ih unread hrest h
              exact ⟨.receive :: before, d, after, full, rfl, hrun, hfull⟩

end Feed

end Autoscaling

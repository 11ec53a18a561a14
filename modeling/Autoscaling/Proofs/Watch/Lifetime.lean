import Autoscaling.Proofs.Watch.Queue
import Mathlib

/-!
# Lifetimes of stores

The watches of a store outlive it.  When its last handle is dropped, no call can reach it any more,
but the readers of its watches still receive from them and stop them.  A `Lifetime` is a store with
whether that has happened, and what happens in a lifetime (`Happening`) is an action or the drop.  To
drop a watch is to stop it.

A watch goes through it as a feed (`Lifetime.shows_step`), and what one happening makes of a feed is
said here by the condition that the feed is in:

* `Lifetime.turn_registered` — it stays registered, or is cut off, or is stopped;
* `Lifetime.turn_cutOff` — it stays cut off, or its reader is told of the end, or it is stopped;
* `Lifetime.turn_closed` — a feed that was told of the end or stopped stays so.

What is delivered and what is queued is accounted for by `Lifetime.queued_step`.
-/

namespace Autoscaling

/-- Something that happens in the lifetime of a store. -/
inductive Happening where
  | act (a : Action)
  /-- the last handle of the store is dropped -/
  | drop

/-- What a reader does with a watch, for which no store is needed. -/
def Action.byReader : Action → Bool
  | receive _ => true
  | stop _ => true
  | _ => false

/-- A store, or what is left of one, with its watches. -/
structure Lifetime where
  store : Store
  /-- whether the last handle of the store was dropped -/
  dropped : Bool

namespace Feed

/-- What becomes of a feed when the store is gone. -/
def severed : Feed → Feed
  | registered unread => cutOff unread
  | feed => feed

@[simp] theorem unread_severed (feed : Feed) : feed.severed.unread = feed.unread := by
  cases feed <;> rfl

end Feed

namespace Hub

theorem Shows.teardown {h : Hub} {id : Nat} {scope : String} {feed : Feed}
    (shows : h.Shows id scope feed) : h.teardown.Shows id scope feed.severed where
  known := shows.known
  registered := by cases feed <;> rfl
  watch := shows.watch.trans (by cases feed <;> rfl)

/-- No watch was opened with the id. -/
structure Unknown (h : Hub) (id : Nat) : Prop where
  registered : h.registered.find? id = none
  watch : h.watches.find? id = none

theorem Shows.scopeOf {h : Hub} {id : Nat} {scope : String} {feed : Feed}
    (shows : h.Shows id scope feed) : h.scopeOf id = scope := by
  rw [Hub.scopeOf, shows.watch]
  cases feed <;> rfl

end Hub

namespace Lifetime

/-- A store that was just made. -/
def start (tuning : Tuning) (handled : Bool) : Lifetime := ⟨.create tuning handled, false⟩

/-- Whether an action can be taken: no call reaches a store that is gone. -/
def allows (l : Lifetime) (a : Action) : Bool := !l.dropped || a.byReader

def step (l : Lifetime) : Happening → Lifetime
  | .act a => if l.allows a then { l with store := l.store.act a } else l
  | .drop => ⟨l.store.teardown, true⟩

/-- What a list of happenings leads to. -/
def run (l : Lifetime) (history : List Happening) : Lifetime := history.foldl step l

/-- What there is to be noted of every happening, in their order. -/
def collect {α : Type} (note : Lifetime → Happening → Option α) (l : Lifetime) :
    List Happening → List α
  | [] => []
  | h :: rest => (note l h).toList ++ collect note (l.step h) rest

/-- The id of the watch that is opened. -/
def opened? (l : Lifetime) : Happening → Option Nat
  | .act (.watch scope) =>
      if l.dropped then none
      else
        match l.store.watch scope with
        | .ok (id, _) => some id
        | .error _ => none
  | _ => none

/-- The answer to the reader of a watch. -/
def receipt? (id : Nat) (l : Lifetime) : Happening → Option Receipt
  | .act a => l.store.receipt? id a
  | .drop => none

/-- The change that is queued for a watch. -/
def enqueued? (id : Nat) (l : Lifetime) : Happening → Option Change
  | .act a => if l.allows a then l.store.enqueued? id a else none
  | .drop => none

/-- The ids of the watches that are opened, in their order. -/
def opened (l : Lifetime) (history : List Happening) : List Nat := l.collect opened? history

def receipts (l : Lifetime) (id : Nat) (history : List Happening) : List Receipt :=
  l.collect (receipt? id) history

/-- The changes that the reader of a watch gets. -/
def received (l : Lifetime) (id : Nat) (history : List Happening) : List Change :=
  (l.receipts id history).filterMap Receipt.change?

/-- The changes that are queued for a watch. -/
def enqueued (l : Lifetime) (id : Nat) (history : List Happening) : List Change :=
  l.collect (enqueued? id) history

/-- A watch is cut off when the store is gone, and when it is overrun and the store ends watches on
overflow. -/
def CutsOff (l : Lifetime) (id : Nat) (h : Happening) : Prop :=
  h = .drop ∨ l.dropped = false ∧ l.store.hub.overflow = .disconnect ∧ ∃ m, h = .act (.mutate m) ∧
    l.store.Overrun id (l.store.hub.scopeOf id) l.store.hub.capacity m

/-- What ends the registration of a watch. -/
def Ends (l : Lifetime) (id : Nat) (h : Happening) : Prop := h = .act (.stop id) ∨ l.CutsOff id h

theorem run_cons (l : Lifetime) (h : Happening) (rest : List Happening) :
    l.run (h :: rest) = (l.step h).run rest := rfl

theorem run_concat (l : Lifetime) (history : List Happening) (h : Happening) :
    l.run (history ++ [h]) = (l.run history).step h := List.foldl_append

theorem collect_append {α : Type} (note : Lifetime → Happening → Option α) (l : Lifetime)
    (first second : List Happening) :
    l.collect note (first ++ second) =
      l.collect note first ++ (l.run first).collect note second := by
  induction first generalizing l with
  | nil => rfl
  | cons h rest ih => simp [collect, ih, run_cons]

theorem collect_concat {α : Type} (note : Lifetime → Happening → Option α) (l : Lifetime)
    (history : List Happening) (h : Happening) :
    l.collect note (history ++ [h]) = l.collect note history ++ (note (l.run history) h).toList := by
  simp [collect_append, collect]

theorem received_concat (l : Lifetime) (id : Nat) (history : List Happening) (h : Happening) :
    l.received id (history ++ [h]) =
      l.received id history ++ (((l.run history).receipt? id h).bind Receipt.change?).toList := by
  rw [received, receipts, collect_concat, List.filterMap_append]
  cases hreceipt : (l.run history).receipt? id h with
  | none => rfl
  | some r => cases hc : r.change? <;> simp [hc, received, receipts]

theorem step_act_of_allows {l : Lifetime} {a : Action} (h : l.allows a = true) :
    l.step (.act a) = { l with store := l.store.act a } := if_pos h

theorem step_act_of_not_allows {l : Lifetime} {a : Action} (h : ¬ l.allows a = true) :
    l.step (.act a) = l := if_neg h

theorem coherent_step {l : Lifetime} (coherent : l.store.Coherent) (h : Happening) :
    (l.step h).store.Coherent := by
  cases h with
  | drop => exact coherent
  | act a =>
      by_cases allowed : l.allows a = true
      · rw [step_act_of_allows allowed]
        exact coherent.act a
      · rw [step_act_of_not_allows allowed]
        exact coherent

theorem hub_step {l : Lifetime} (coherent : l.store.Coherent) (h : Happening) :
    (l.step h).store.hub.capacity = l.store.hub.capacity ∧
      (l.step h).store.hub.overflow = l.store.hub.overflow := by
  cases h with
  | drop => exact ⟨rfl, rfl⟩
  | act a =>
      by_cases allowed : l.allows a = true
      · rw [step_act_of_allows allowed]
        exact coherent.act_hub a
      · rw [step_act_of_not_allows allowed]
        exact ⟨rfl, rfl⟩

/-! ## What happens to a watch -/

/-- What a happening makes of a feed. -/
def turn (l : Lifetime) (id : Nat) (scope : String) (feed : Feed) : Happening → Feed
  | .act a =>
      if l.allows a then
        feed.run l.store.hub.capacity l.store.hub.overflow (l.store.feedEvent? id scope a).toList
      else feed
  | .drop => feed.severed

section Watched

variable {l : Lifetime} {id : Nat} {scope : String} {feed : Feed}

/-- A happening does to a watch what it makes of the feed, and the reader gets the answer of the
feed. -/
theorem shows_step (coherent : l.store.Coherent) (shows : l.store.hub.Shows id scope feed)
    (h : Happening) :
    (l.step h).store.hub.Shows id scope (l.turn id scope feed h) ∧
      ∀ r, l.receipt? id h = some r → r = feed.answer := by
  cases h with
  | drop => exact ⟨shows.teardown, by simp [receipt?]⟩
  | act a =>
      constructor
      · by_cases allowed : l.allows a = true
        · rw [step_act_of_allows allowed, turn, if_pos allowed]
          exact (coherent.shows_act shows a).1
        · rw [step_act_of_not_allows allowed, turn, if_neg allowed]
          exact shows
      · intro r hr
        cases a with
        | receive id₀ =>
            simp only [receipt?, Store.receipt?] at hr
            split_ifs at hr with hid
            subst hid
            exact (Option.some.inj hr).symm.trans shows.receive.1
        | _ => cases hr

/-- An action that ends the registration of a watch is allowed, and it is an event of the watch. -/
theorem feedEvent?_of_ends (shows : l.store.hub.Shows id scope feed) {a : Action}
    (ends : l.Ends id (.act a)) :
    l.allows a = true ∧ (l.store.feedEvent? id scope a = some .stop ∨
      ∃ c, l.store.feedEvent? id scope a = some (.publish c) ∧
        l.store.hub.overflow = .disconnect ∧ feed.unread.length = l.store.hub.capacity) := by
  rcases ends with hstop | hdrop | ⟨hthere, hpolicy, m, hm, c, accepted, hscope, hfull⟩
  · cases hstop
    exact ⟨Bool.or_true _, .inl (if_pos rfl)⟩
  · cases hdrop
  · cases hm
    rw [shows.scopeOf] at hscope
    rw [shows.queued] at hfull
    have hpublished : l.store.published? scope (.mutate m) = some c.change :=
      Store.published?_eq_some_iff.mpr ⟨m, c, rfl, accepted, rfl, hscope⟩
    refine ⟨by simp [allows, hthere], .inr ⟨c.change, ?_, hpolicy, hfull⟩⟩
    simp only [Store.feedEvent?, hpublished, Option.map_some]

/-- A publication that finds the queue of a registered watch full cuts the watch off, under the
policy that ends it. -/
theorem cutsOff_of_full {unread : List Change}
    (shows : l.store.hub.Shows id scope (.registered unread))
    (hfull : unread.length = l.store.hub.capacity) (hpolicy : l.store.hub.overflow = .disconnect)
    {a : Action} (allowed : l.allows a = true) {c : Change}
    (hpublished : l.store.published? scope a = some c) : l.CutsOff id (.act a) := by
  obtain ⟨m, commit, rfl, accepted, rfl, hscope⟩ := Store.published?_eq_some_iff.mp hpublished
  have hthere : l.dropped = false := by simpa [allows, Action.byReader] using allowed
  refine .inr ⟨hthere, hpolicy, m, rfl, commit, accepted, ?_, ?_⟩
  · rwa [shows.scopeOf]
  · rwa [shows.queued]

/-- A publication in its scope leaves a watch registered, or cuts it off. -/
theorem turn_of_published {unread : List Change}
    (shows : l.store.hub.Shows id scope (.registered unread))
    (fits : unread.length ≤ l.store.hub.capacity) {a : Action} (allowed : l.allows a = true)
    {c : Change} (hevent : l.store.feedEvent? id scope a = some (.publish c))
    (hpublished : l.store.published? scope a = some c) :
    (∃ unread', l.turn id scope (.registered unread) (.act a) = .registered unread' ∧
        ¬ l.Ends id (.act a)) ∨
      (l.turn id scope (.registered unread) (.act a) = .cutOff unread ∧ l.CutsOff id (.act a)) := by
  have hends (ends : l.Ends id (.act a)) := (feedEvent?_of_ends shows ends).2
  rw [turn, if_pos allowed, hevent]
  by_cases room : unread.length < l.store.hub.capacity
  · refine .inl ⟨unread ++ [c], Feed.step_publish_of_room room c, fun ends => ?_⟩
    rcases hends ends with hstop | ⟨_, -, -, hfull⟩
    · exact nomatch hevent.symm.trans hstop
    · exact Nat.ne_of_lt room hfull
  · cases hpolicy : l.store.hub.overflow with
    | disconnect =>
        have hfull := Nat.le_antisymm fits (Nat.le_of_not_lt room)
        exact .inr ⟨Feed.step_publish_of_full room c,
          cutsOff_of_full shows hfull hpolicy allowed hpublished⟩
    | dropNewest =>
        refine .inl ⟨unread, if_neg room, fun ends => ?_⟩
        simpa [hevent, hpolicy] using hends ends

/-- A registered watch stays registered, unless something ends its registration: it is cut off with
what is queued, or it is stopped. -/
theorem turn_registered {unread : List Change}
    (shows : l.store.hub.Shows id scope (.registered unread))
    (fits : unread.length ≤ l.store.hub.capacity) (h : Happening) :
    (∃ unread', l.turn id scope (.registered unread) h = .registered unread' ∧ ¬ l.Ends id h) ∨
      (l.turn id scope (.registered unread) h = .cutOff unread ∧ l.CutsOff id h) ∨
      (l.turn id scope (.registered unread) h = .stopped ∧ h = .act (.stop id)) := by
  cases h with
  | drop => exact .inr (.inl ⟨rfl, .inl rfl⟩)
  | act a =>
      have hends (ends : l.Ends id (.act a)) := feedEvent?_of_ends shows ends
      by_cases allowed : l.allows a = true
      · cases hevent : l.store.feedEvent? id scope a with
        | none =>
            rw [turn, if_pos allowed, hevent]
            exact .inl ⟨unread, rfl, fun ends => by simpa [hevent] using (hends ends).2⟩
        | some e =>
            rcases Store.feedEvent?_eq_some hevent with ⟨rfl, -⟩ | ⟨rfl, rfl⟩ | ⟨c, rfl, hc⟩
            · rw [turn, if_pos allowed, hevent]
              refine .inl ⟨unread.tail, ?_, fun ends => by simpa [hevent] using (hends ends).2⟩
              cases unread <;> rfl
            · rw [turn, if_pos allowed, hevent]
              exact .inr (.inr ⟨rfl, rfl⟩)
            · exact (turn_of_published shows fits allowed hevent hc).imp_right .inl
      · rw [turn, if_neg allowed]
        exact .inl ⟨unread, rfl, fun ends => allowed (hends ends).1⟩

/-- A watch that was cut off stays so until its reader stops it, or finds nothing left and is told of
the end. -/
theorem turn_cutOff (l : Lifetime) (id : Nat) (scope : String) (unread : List Change)
    (h : Happening) :
    (∃ unread', l.turn id scope (.cutOff unread) h = .cutOff unread' ∧ h ≠ .act (.stop id) ∧
        ¬ (h = .act (.receive id) ∧ unread = [])) ∨
      (l.turn id scope (.cutOff unread) h = .ended ∧ h = .act (.receive id) ∧ unread = []) ∨
      (l.turn id scope (.cutOff unread) h = .stopped ∧ h = .act (.stop id)) := by
  cases h with
  | drop => exact .inl ⟨unread, rfl, by simp, by simp⟩
  | act a =>
      by_cases allowed : l.allows a = true
      · rw [turn, if_pos allowed]
        cases hevent : l.store.feedEvent? id scope a with
        | none =>
            refine .inl ⟨unread, rfl, ?_, ?_⟩
            · rintro ⟨rfl⟩
              simp [Store.feedEvent?] at hevent
            · rintro ⟨⟨rfl⟩, -⟩
              simp [Store.feedEvent?] at hevent
        | some e =>
            rcases Store.feedEvent?_eq_some hevent with ⟨rfl, rfl⟩ | ⟨rfl, rfl⟩ | ⟨c, rfl, hc⟩
            · cases unread with
              | nil => exact .inr (.inl ⟨rfl, rfl, rfl⟩)
              | cons c rest => exact .inl ⟨rest, rfl, by simp, by simp⟩
            · exact .inr (.inr ⟨rfl, rfl⟩)
            · obtain ⟨m, -, rfl, -⟩ := Store.published?_eq_some_iff.mp hc
              exact .inl ⟨unread, rfl, by simp, by simp⟩
      · refine .inl ⟨unread, ?_, ?_, ?_⟩
        · rw [turn, if_neg allowed]
        · rintro ⟨rfl⟩
          exact allowed (Bool.or_true _)
        · rintro ⟨⟨rfl⟩, -⟩
          exact allowed (Bool.or_true _)

/-- A watch whose reader was told of the end, or has stopped it, stays so, or is stopped. -/
theorem turn_closed (l : Lifetime) (id : Nat) (scope : String)
    (closed : feed = .ended ∨ feed = .stopped) (h : Happening) :
    l.turn id scope feed h = feed ∨ l.turn id scope feed h = .stopped := by
  cases h with
  | drop => rcases closed with rfl | rfl <;> exact .inl rfl
  | act a =>
      rw [turn]
      split_ifs with allowed
      · cases l.store.feedEvent? id scope a with
        | none => exact .inl rfl
        | some e => rcases closed with rfl | rfl <;> cases e <;> simp [Feed.run, Feed.step]
      · exact .inl rfl

theorem turn_stop (l : Lifetime) (id : Nat) (scope : String) (feed : Feed) :
    l.turn id scope feed (.act (.stop id)) = .stopped := by
  have allowed : l.allows (.stop id) = true := Bool.or_true _
  rw [turn, if_pos allowed, Store.feedEvent?, if_pos rfl]
  cases feed <;> rfl

/-- A watch is registered after a happening if it was before and the happening does not end that. -/
theorem turn_eq_registered_iff (shows : l.store.hub.Shows id scope feed)
    (fits : feed.unread.length ≤ l.store.hub.capacity) (h : Happening) :
    (∃ unread, l.turn id scope feed h = .registered unread) ↔
      (∃ unread, feed = .registered unread) ∧ ¬ l.Ends id h := by
  cases feed with
  | registered unread =>
      rcases turn_registered shows fits h with ⟨unread', hturn, hends⟩ | ⟨hturn, hcut⟩ |
        ⟨hturn, hstop⟩
      · exact ⟨fun _ => ⟨⟨unread, rfl⟩, hends⟩, fun _ => ⟨unread', hturn⟩⟩
      · have hends : l.Ends id h := .inr hcut
        simp [hturn, hends]
      · have hends : l.Ends id h := .inl hstop
        simp [hturn, hends]
  | cutOff unread =>
      rcases turn_cutOff l id scope unread h with ⟨unread', hturn, -⟩ | ⟨hturn, -⟩ | ⟨hturn, -⟩ <;>
        simp [hturn]
  | ended => rcases turn_closed l id scope (.inl rfl) h with hturn | hturn <;> simp [hturn]
  | stopped => rcases turn_closed l id scope (.inr rfl) h with hturn | hturn <;> simp [hturn]

/-- A watch that is cut off after a happening was so before, or is cut off by it. -/
theorem cutOff_of_turn (shows : l.store.hub.Shows id scope feed)
    (fits : feed.unread.length ≤ l.store.hub.capacity) {h : Happening} {unread : List Change}
    (hturn : l.turn id scope feed h = .cutOff unread) :
    (∃ unread', feed = .cutOff unread') ∨ l.CutsOff id h := by
  cases feed with
  | registered unread' =>
      rcases turn_registered shows fits h with ⟨_, hother, -⟩ | ⟨-, hcut⟩ | ⟨hother, -⟩
      · exact nomatch hturn.symm.trans hother
      · exact .inr hcut
      · exact nomatch hturn.symm.trans hother
  | cutOff unread' => exact .inl ⟨unread', rfl⟩
  | ended =>
      rcases turn_closed l id scope (.inl rfl) h with hother | hother <;>
        cases hturn.symm.trans hother
  | stopped =>
      rcases turn_closed l id scope (.inr rfl) h with hother | hother <;>
        cases hturn.symm.trans hother

/-- What closes a watch: that it is stopped, and a receive that finds nothing left after it was cut
off. -/
theorem isClosed_step_iff (coherent : l.store.Coherent) (shows : l.store.hub.Shows id scope feed)
    (fits : feed.unread.length ≤ l.store.hub.capacity)
    (hopen : ∃ unread, feed = .registered unread ∨ feed = .cutOff unread) (h : Happening) :
    (l.step h).store.hub.isClosed id = true ↔
      h = .act (.stop id) ∨ h = .act (.receive id) ∧ feed = .cutOff [] := by
  rw [(shows_step coherent shows h).1.isClosed]
  obtain ⟨unread, rfl | rfl⟩ := hopen
  · rcases turn_registered shows fits h with ⟨unread', hturn, hends⟩ | ⟨hturn, hcut⟩ |
      ⟨hturn, hstop⟩
    · have hstop : h ≠ .act (.stop id) := fun hstop => hends (.inl hstop)
      simp [hturn, Feed.watch, hstop]
    · have hstop : h ≠ .act (.stop id) := by
        rintro rfl
        rcases hcut with hdrop | ⟨-, -, m, hm, -⟩
        · cases hdrop
        · cases hm
      simp [hturn, Feed.watch, hstop]
    · exact iff_of_true (by rw [hturn]; rfl) (.inl hstop)
  · rcases turn_cutOff l id scope unread h with ⟨unread', hturn, hstop, hreceive⟩ |
      ⟨hturn, hreceive, hempty⟩ | ⟨hturn, hstop⟩
    · simpa [hturn, Feed.watch, hstop] using hreceive
    · exact iff_of_true (by rw [hturn]; rfl) (.inr ⟨hreceive, hempty ▸ rfl⟩)
    · exact iff_of_true (by rw [hturn]; rfl) (.inl hstop)

/-- What a happening delivers to the reader of a watch it takes from the front of the queue, and what
it queues it puts to the end.  Only stopping the watch does otherwise. -/
theorem queued_step (coherent : l.store.Coherent) (known : id ≤ l.store.hub.lastId) {h : Happening}
    (hstop : h ≠ .act (.stop id)) :
    ((l.receipt? id h).bind Receipt.change?).toList ++ (l.step h).store.hub.queued id =
      l.store.hub.queued id ++ (l.enqueued? id h).toList := by
  cases h with
  | drop => exact (List.append_nil _).symm
  | act a =>
      rw [enqueued?]
      by_cases allowed : l.allows a = true
      · rw [step_act_of_allows allowed, if_pos allowed]
        exact coherent.queued_act known fun ha => hstop (congrArg Happening.act ha)
      · have hreceipt : l.receipt? id (.act a) = none := by
          cases a with
          | receive id₀ => exact absurd (Bool.or_true _) allowed
          | _ => rfl
        rw [step_act_of_not_allows allowed, if_neg allowed, hreceipt]
        exact (List.append_nil _).symm

theorem length_unread_turn_le (fits : feed.unread.length ≤ l.store.hub.capacity) (h : Happening) :
    (l.turn id scope feed h).unread.length ≤ l.store.hub.capacity := by
  cases h with
  | drop => simpa [turn] using fits
  | act a =>
      rw [turn]
      split_ifs with allowed
      · exact Feed.length_unread_run_le feed fits _
      · exact fits

/-- Once the reader of a watch was told of the end, or has stopped it, every later receive is
answered with the end. -/
theorem run_of_closed (coherent : l.store.Coherent) (shows : l.store.hub.Shows id scope feed)
    (closed : feed = .ended ∨ feed = .stopped) (later : List Happening) :
    (l.run later).store.hub.isClosed id = true ∧ ∀ r ∈ l.receipts id later, r = .ended := by
  induction later generalizing l feed with
  | nil =>
      refine ⟨?_, by simp [receipts, collect]⟩
      rw [run, List.foldl_nil, shows.isClosed]
      rcases closed with rfl | rfl <;> rfl
  | cons h rest ih =>
      obtain ⟨hshows, hanswer⟩ := shows_step coherent shows h
      have hturn : l.turn id scope feed h = .ended ∨ l.turn id scope feed h = .stopped :=
        (l.turn_closed id scope closed h).elim (fun same => same.symm ▸ closed) .inr
      obtain ⟨hclosed, hreceipts⟩ := ih (coherent_step coherent h) hshows hturn
      refine ⟨hclosed, fun r hr => ?_⟩
      rw [receipts, collect, List.mem_append, Option.mem_toList] at hr
      rcases hr with hr | hr
      · rcases closed with rfl | rfl <;> exact hanswer r hr
      · exact hreceipts r hr

end Watched

/-! ## Opening a watch -/

/-- A happening opens a watch with the next id, or leaves the last id as it is. -/
theorem opened?_cases {l : Lifetime} (coherent : l.store.Coherent) (h : Happening) :
    (∃ scope, h = .act (.watch scope) ∧ l.opened? h = some (l.store.hub.lastId + 1) ∧
        (l.step h).store.hub = (l.store.hub.subscribe scope).2) ∨
      (l.opened? h = none ∧ (l.step h).store.hub.lastId = l.store.hub.lastId) := by
  cases h with
  | drop => exact .inr ⟨rfl, rfl⟩
  | act a =>
      by_cases allowed : l.allows a = true
      · rw [step_act_of_allows allowed]
        cases a with
        | mutate m =>
            refine .inr ⟨rfl, ?_⟩
            cases hm : l.store.mutate m with
            | error e => simp [Store.act, hm]
            | ok c => simp [Store.act, hm, (coherent.commits hm).hub, Hub.publish]
        | watch scope =>
            have hthere : l.dropped = false := by simpa [allows, Action.byReader] using allowed
            cases hwatch : l.store.watch scope with
            | error e => exact .inr ⟨by simp [opened?, hthere, hwatch], by simp [Store.act, hwatch]⟩
            | ok opened =>
                obtain ⟨id, s⟩ := opened
                obtain ⟨-, rfl, rfl⟩ := Store.watch_eq_ok_iff.mp hwatch
                refine .inl ⟨scope, rfl, ?_, ?_⟩
                · simp only [opened?, hthere, hwatch]
                  rfl
                · simp only [Store.act, hwatch]
        | receive id =>
            obtain ⟨watches, hreceive⟩ := l.store.hub.exists_receive_eq id
            exact .inr ⟨rfl, by simp [Store.act, Store.receive, hreceive]⟩
        | stop id =>
            obtain ⟨registered, watches, hstop⟩ := l.store.hub.exists_stop_eq id
            exact .inr ⟨rfl, by simp [Store.act, Store.stop, hstop]⟩
        | listen ns name => exact .inr ⟨rfl, rfl⟩
        | unlisten ns => exact .inr ⟨rfl, rfl⟩
      · rw [step_act_of_not_allows allowed]
        refine .inr ⟨?_, rfl⟩
        cases a with
        | watch scope =>
            have hgone : l.dropped = true := by simpa [allows, Action.byReader] using allowed
            simp [opened?, hgone]
        | _ => rfl

section Unopened

variable {l : Lifetime} {id : Nat}

/-- An id under which no watch was opened stays so until one is. -/
theorem unknown_step (coherent : l.store.Coherent) (unknown : l.store.hub.Unknown id)
    {h : Happening} (hopened : l.opened? h ≠ some id) : (l.step h).store.hub.Unknown id := by
  cases h with
  | drop => exact ⟨rfl, unknown.watch⟩
  | act a =>
      by_cases allowed : l.allows a = true
      · rw [step_act_of_allows allowed]
        cases a with
        | mutate m =>
            cases hm : l.store.mutate m with
            | error e => simpa [Store.act, hm] using unknown
            | ok c =>
                simp only [Store.act, hm, (coherent.commits hm).hub]
                refine ⟨?_, ?_⟩
                · rw [Hub.find?_registered_publish, unknown.registered]
                  rfl
                · rw [Hub.find?_watches_publish, unknown.watch]
                  rfl
        | watch scope =>
            have hthere : l.dropped = false := by simpa [allows, Action.byReader] using allowed
            cases hwatch : l.store.watch scope with
            | error e => simpa [Store.act, hwatch] using unknown
            | ok opened =>
                obtain ⟨id₀, s⟩ := opened
                obtain ⟨-, rfl, rfl⟩ := Store.watch_eq_ok_iff.mp hwatch
                have other : id ≠ l.store.hub.lastId + 1 := by
                  rintro rfl
                  exact hopened (by simp [opened?, hthere, hwatch, Hub.subscribe])
                simp only [Store.act, hwatch]
                refine ⟨?_, ?_⟩
                · rw [Hub.find?_registered_subscribe, if_neg other, unknown.registered]
                · rw [Hub.find?_watches_subscribe, if_neg other, unknown.watch]
        | receive id₀ =>
            refine ⟨(Hub.registered_receive ..).symm ▸ unknown.registered, ?_⟩
            by_cases hid : id = id₀
            · subst hid
              simp [Store.act, Store.receive, Hub.receive, unknown.watch]
            · exact (Hub.find?_watches_receive hid _).trans unknown.watch
        | stop id₀ =>
            by_cases hid : id = id₀
            · subst hid
              have same : l.store.hub.stop id = l.store.hub := by rw [Hub.stop, unknown.watch]
              simpa [Store.act, Store.stop, same] using unknown
            · exact ⟨(Hub.find?_registered_stop hid _).trans unknown.registered,
                (Hub.find?_watches_stop hid _).trans unknown.watch⟩
        | listen ns name => exact unknown
        | unlisten ns => exact unknown
      · rw [step_act_of_not_allows allowed]
        exact unknown

/-- Nothing is delivered or queued under an id with which no watch was opened. -/
theorem nothing_of_unknown (unknown : l.store.hub.Unknown id) (h : Happening) :
    (l.receipt? id h).bind Receipt.change? = none ∧ l.enqueued? id h = none := by
  cases h with
  | drop => exact ⟨rfl, rfl⟩
  | act a =>
      constructor
      · cases a with
        | receive id₀ =>
            by_cases hid : id₀ = id
            · subst hid
              simp [receipt?, Store.receipt?, Store.receive, Hub.receive, unknown.watch,
                Receipt.change?]
            · simp [receipt?, Store.receipt?, hid]
        | _ => rfl
      · rw [enqueued?]
        split_ifs
        · rw [Option.eq_none_iff_forall_ne_some]
          intro c hc
          obtain ⟨-, -, -, -, -, henqueues⟩ := Store.enqueued?_eq_some_iff.mp hc
          rw [Hub.enqueues, unknown.registered] at henqueues
          cases henqueues
        · rfl

end Unopened

end Lifetime

end Autoscaling

import Autoscaling.Proofs.Watch.Lifetime
import Mathlib.Data.List.Induction
import Mathlib.Tactic.Common

/-!
# The registrations of watches

Which watches a store has registered, and which of them have reported their end, is told here from
what has happened to the store: `Lifetime.Subscribed` says of an id that a watch was opened with it
and that nothing has ended its registration since, and `Lifetime.WasCutOff` that something other
than its reader has ended it.

An `Account` ties these to how a watch stands, and every happening keeps it (`Account.concat`).  The
watches are those with an id up to the last one (`Lifetime.Ledger`).  `Lifetime.subscription_lifecycle`
reads off what follows for the hub after every history.
-/

namespace Autoscaling

namespace Lifetime

/-- A watch was opened with the id, and nothing has ended its registration since. -/
def Subscribed (l : Lifetime) (history : List Happening) (id : Nat) : Prop :=
  ∃ first h second, history = first ++ h :: second ∧ (l.run first).opened? h = some id ∧
    ∀ mid e rest, second = mid ++ e :: rest → ¬ (l.run (first ++ h :: mid)).Ends id e

/-- A watch was cut off at some time. -/
def WasCutOff (l : Lifetime) (history : List Happening) (id : Nat) : Prop :=
  ∃ first h second, history = first ++ h :: second ∧ (l.run first).CutsOff id h

variable {l : Lifetime} {history : List Happening} {id : Nat} {h : Happening}

theorem WasCutOff.concat (was : l.WasCutOff history id) (h : Happening) :
    l.WasCutOff (history ++ [h]) id := by
  obtain ⟨first, h₀, second, rfl, hcut⟩ := was
  exact ⟨first, h₀, second ++ [h], by simp, hcut⟩

theorem CutsOff.wasCutOff (hcut : (l.run history).CutsOff id h) :
    l.WasCutOff (history ++ [h]) id :=
  ⟨history, h, [], rfl, hcut⟩

/-- After one more happening a watch is subscribed if that opened it, or if it was subscribed and
that did not end it. -/
theorem subscribed_concat_iff :
    l.Subscribed (history ++ [h]) id ↔
      (l.run history).opened? h = some id ∨
        (l.Subscribed history id ∧ ¬ (l.run history).Ends id h) := by
  constructor
  · rintro ⟨first, h₀, second, hhistory, hopened, hends⟩
    rcases concat_eq_append_cons_iff.mp hhistory with ⟨rfl, rfl, rfl⟩ | ⟨second, rfl, rfl⟩
    · exact .inl hopened
    · refine .inr ⟨⟨first, h₀, second, rfl, hopened, ?_⟩, hends second h [] (by simp)⟩
      rintro mid e rest rfl
      exact hends mid e (rest ++ [h]) (by simp)
  · rintro (hopened | ⟨⟨first, h₀, second, rfl, hopened, hends⟩, hlast⟩)
    · exact ⟨history, h, [], rfl, hopened, by simp⟩
    · refine ⟨first, h₀, second ++ [h], by simp, hopened, ?_⟩
      intro mid e rest hsecond
      rcases concat_eq_append_cons_iff.mp hsecond with ⟨rfl, rfl, rfl⟩ | ⟨rest, rfl, rfl⟩
      · exact hlast
      · exact hends mid e rest rfl

/-- How a watch stands, told from what has happened. -/
structure Account (l : Lifetime) (history : List Happening) (id : Nat) (scope : String)
    (feed : Feed) : Prop where
  shows : (l.run history).store.hub.Shows id scope feed
  fits : feed.unread.length ≤ (l.run history).store.hub.capacity
  subscribed : l.Subscribed history id ↔ ∃ unread, feed = .registered unread
  cutOff : ∀ unread, feed = .cutOff unread → l.WasCutOff history id
  /-- until the watch is stopped, what was queued for it is delivered or still there -/
  kept : feed ≠ .stopped → l.received id history ++ feed.unread = l.enqueued id history

/-- A happening that does not open the watch keeps its account. -/
theorem Account.concat {scope : String} {feed : Feed}
    (coherent : (l.run history).store.Coherent) (account : l.Account history id scope feed)
    (hopened : (l.run history).opened? h ≠ some id) :
    l.Account (history ++ [h]) id scope ((l.run history).turn id scope feed h) := by
  have shows := (shows_step coherent account.shows h).1
  refine ⟨run_concat l history h ▸ shows, ?_, ?_, ?_, ?_⟩
  · rw [run_concat, (hub_step coherent h).1]
    exact length_unread_turn_le account.fits h
  · rw [subscribed_concat_iff, turn_eq_registered_iff account.shows account.fits,
      account.subscribed]
    simp [hopened]
  · intro unread hturn
    rcases cutOff_of_turn account.shows account.fits hturn with ⟨unread', hfeed⟩ | hcut
    · exact (account.cutOff unread' hfeed).concat h
    · exact hcut.wasCutOff
  · intro hturn
    have hstop : h ≠ .act (.stop id) := by
      rintro rfl
      exact hturn (turn_stop ..)
    have hfeed : feed ≠ .stopped := by
      rintro rfl
      exact hturn (or_self_iff.mp (turn_closed _ id scope (.inr rfl) h))
    have hqueued := queued_step coherent account.shows.known hstop
    rw [shows.queued, account.shows.queued] at hqueued
    rw [received_concat, enqueued, collect_concat, List.append_assoc, hqueued,
      ← List.append_assoc, account.kept hfeed]
    rfl

/-- The account of a watch that was just opened. -/
theorem account_of_opened (hopened : (l.run history).opened? h = some id) {scope : String}
    (shows : ((l.run history).step h).store.hub.Shows id scope (.registered []))
    (hreceived : l.received id history = []) (henqueued : l.enqueued id history = [])
    (nothing : ((l.run history).receipt? id h).bind Receipt.change? = none ∧
      (l.run history).enqueued? id h = none) :
    l.Account (history ++ [h]) id scope (.registered []) where
  shows := run_concat l history h ▸ shows
  fits := Nat.zero_le _
  subscribed := by simp [subscribed_concat_iff, hopened]
  cutOff := nofun
  kept := by
    intro _
    rw [received_concat, enqueued, collect_concat, nothing.1, nothing.2, hreceived]
    exact (congrArg (· ++ []) henqueued).symm

/-- The watches of a store have the ids from one to the last one, and each has its account. -/
structure Ledger (l : Lifetime) (history : List Happening) : Prop where
  coherent : (l.run history).store.Coherent
  capacity : (l.run history).store.hub.capacity = l.store.hub.capacity
  overflow : (l.run history).store.hub.overflow = l.store.hub.overflow
  ids : l.opened history = List.range' 1 (l.run history).store.hub.lastId
  known : ∀ id, 0 < id → id ≤ (l.run history).store.hub.lastId →
    ∃ scope feed, l.Account history id scope feed
  unknown : ∀ id, id = 0 ∨ (l.run history).store.hub.lastId < id →
    (l.run history).store.hub.Unknown id ∧ l.received id history = [] ∧ l.enqueued id history = []

theorem ledger_start (tuning : Tuning) (handled : Bool) : (start tuning handled).Ledger [] where
  coherent := Store.coherent_create tuning handled
  capacity := rfl
  overflow := rfl
  ids := rfl
  known := fun _ hpos hle => absurd hle (Nat.not_le_of_lt hpos)
  unknown := fun _ _ => ⟨⟨rfl, rfl⟩, rfl, rfl⟩

/-- A watch that was opened keeps its account, since no other is opened with its id. -/
theorem Ledger.known_concat (ledger : l.Ledger history) (hpos : 0 < id)
    (hle : id ≤ (l.run history).store.hub.lastId) (hopened : (l.run history).opened? h ≠ some id) :
    ∃ scope feed, l.Account (history ++ [h]) id scope feed := by
  obtain ⟨scope, feed, account⟩ := ledger.known id hpos hle
  exact ⟨scope, _, account.concat ledger.coherent hopened⟩

/-- Nothing comes to be known of an id with which no watch is opened. -/
theorem Ledger.unknown_concat (ledger : l.Ledger history)
    (hid : id = 0 ∨ (l.run history).store.hub.lastId < id)
    (hopened : (l.run history).opened? h ≠ some id) :
    (l.run (history ++ [h])).store.hub.Unknown id ∧ l.received id (history ++ [h]) = [] ∧
      l.enqueued id (history ++ [h]) = [] := by
  obtain ⟨unknown, hreceived, henqueued⟩ := ledger.unknown id hid
  have nothing := nothing_of_unknown unknown h
  rw [run_concat, received_concat, enqueued, collect_concat, nothing.1, nothing.2, hreceived]
  exact ⟨unknown_step ledger.coherent unknown hopened, rfl, congrArg (· ++ []) henqueued⟩

theorem Ledger.concat (ledger : l.Ledger history) (h : Happening) :
    l.Ledger (history ++ [h]) := by
  have hcoherent : (l.run (history ++ [h])).store.Coherent :=
    run_concat l history h ▸ coherent_step ledger.coherent h
  obtain ⟨hcapacity, hoverflow⟩ := hub_step ledger.coherent h
  rw [ledger.capacity, ← run_concat] at hcapacity
  rw [ledger.overflow, ← run_concat] at hoverflow
  rcases opened?_cases ledger.coherent h with ⟨scope, rfl, hopened, hhub⟩ | ⟨hopened, hlast⟩
  · have hlast : (l.run (history ++ [.act (.watch scope)])).store.hub.lastId =
        (l.run history).store.hub.lastId + 1 := by
      rw [run_concat, hhub]
      rfl
    have hother {id : Nat} (hid : id ≠ (l.run history).store.hub.lastId + 1) :
        (l.run history).opened? (.act (.watch scope)) ≠ some id := by
      rw [hopened, ne_eq, Option.some.injEq]
      exact Ne.symm hid
    refine ⟨hcoherent, hcapacity, hoverflow, ?_, ?_, ?_⟩
    · rw [opened, collect_concat, hopened, hlast, List.range'_concat, ← ledger.ids, Nat.one_mul,
        Nat.add_comm 1]
      rfl
    · intro id hpos hle
      rw [hlast] at hle
      by_cases hid : id = (l.run history).store.hub.lastId + 1
      · -- nothing is known yet of the id that the new watch gets
        subst hid
        obtain ⟨unknown, hreceived, henqueued⟩ := ledger.unknown _ (.inr (Nat.lt_succ_self _))
        refine ⟨scope, _, account_of_opened hopened ?_ hreceived henqueued
          (nothing_of_unknown unknown _)⟩
        rw [hhub]
        exact (l.run history).store.hub.shows_subscribe scope
      · exact ledger.known_concat hpos (by omega) (hother hid)
    · intro id hid
      rw [hlast] at hid
      exact ledger.unknown_concat (by omega) (hother (by omega))
  · rw [← run_concat] at hlast
    have hother (id : Nat) : (l.run history).opened? h ≠ some id := by simp [hopened]
    refine ⟨hcoherent, hcapacity, hoverflow, ?_, ?_, ?_⟩
    · rw [opened, collect_concat, hopened, hlast, ← ledger.ids]
      exact List.append_nil _
    · exact fun id hpos hle => ledger.known_concat hpos (hlast ▸ hle) (hother id)
    · exact fun id hid => ledger.unknown_concat (hlast ▸ hid) (hother id)

/-- Every history of a store has its ledger. -/
theorem ledger (tuning : Tuning) (handled : Bool) (history : List Happening) :
    (start tuning handled).Ledger history := by
  induction history using List.reverseRecOn with
  | nil => exact ledger_start tuning handled
  | append_singleton history h ih => exact ih.concat h

theorem Subscribed.mem_opened (subscribed : l.Subscribed history id) : id ∈ l.opened history := by
  obtain ⟨first, h, second, rfl, hopened, -⟩ := subscribed
  rw [opened, collect_append, collect, hopened]
  simp

section Read

variable (ledger : l.Ledger history)

include ledger

theorem Ledger.known_or_unknown (id : Nat) :
    (∃ scope feed, l.Account history id scope feed) ∨
      ((l.run history).store.hub.Unknown id ∧ id ∉ l.opened history) := by
  by_cases hid : 0 < id ∧ id ≤ (l.run history).store.hub.lastId
  · exact .inl (ledger.known id hid.1 hid.2)
  · refine .inr ⟨(ledger.unknown id (by omega)).1, ?_⟩
    rw [ledger.ids, List.mem_range'_1]
    omega

/-- The registered watches are those that are subscribed. -/
theorem Ledger.registered_iff (id : Nat) :
    (l.run history).store.hub.registered.contains id = true ↔ l.Subscribed history id := by
  rw [OrderedMap.contains]
  rcases ledger.known_or_unknown id with ⟨scope, feed, account⟩ | ⟨unknown, hid⟩
  · rw [account.subscribed, account.shows.registered]
    cases feed <;> simp [Feed.registration]
  · rw [unknown.registered]
    exact ⟨fun h => absurd h Bool.false_ne_true, fun subscribed => absurd subscribed.mem_opened hid⟩

/-- A registered watch is read, has no more unread than fits, and is ended by publishing only when it
overflows. -/
theorem Ledger.watch_of_registered {scope : String}
    (registered : (l.run history).store.hub.registered.find? id = some scope) :
    ∃ unread, (l.run history).store.hub.watches.find? id = some ⟨scope, unread, false, false⟩ ∧
      unread.length ≤ l.store.hub.capacity ∧
      ∀ ns, (l.run history).store.hub.delivery ns scope
          ((l.run history).store.hub.watches.find? id) = .ended →
        l.store.hub.overflow = .disconnect ∧ covers scope ns = true ∧
          unread.length = l.store.hub.capacity := by
  rcases ledger.known_or_unknown id with ⟨scope₀, feed, account⟩ | ⟨unknown, -⟩
  · rw [account.shows.registered] at registered
    cases feed with
    | registered unread =>
        cases registered
        have hlength : unread.length ≤ l.store.hub.capacity := ledger.capacity ▸ account.fits
        refine ⟨unread, account.shows.watch, hlength, fun ns hended => ?_⟩
        rw [account.shows.watch, Hub.delivery_eq_ended_iff, ledger.capacity,
          ledger.overflow] at hended
        obtain ⟨hscope, hstopped | ⟨hfull, hpolicy⟩⟩ := hended
        · exact nomatch hstopped
        · exact ⟨hpolicy, hscope, Nat.le_antisymm hlength hfull⟩
    | _ => exact nomatch registered
  · exact nomatch unknown.registered.symm.trans registered

/-- A watch that is closed was told of the end or stopped. -/
theorem Ledger.account_of_closed (hid : id ∈ l.opened history)
    (hclosed : (l.run history).store.hub.isClosed id = true) :
    ∃ scope feed, l.Account history id scope feed ∧ (feed = .ended ∨ feed = .stopped) := by
  rcases ledger.known_or_unknown id with ⟨scope, feed, account⟩ | ⟨-, hnever⟩
  · refine ⟨scope, feed, account, ?_⟩
    rw [account.shows.isClosed] at hclosed
    cases feed with
    | ended => exact .inl rfl
    | stopped => exact .inr rfl
    | _ => exact nomatch hclosed
  · exact absurd hid hnever

/-- A watch that is not closed is registered or was cut off. -/
theorem Ledger.account_of_open (hopen : (l.run history).store.hub.isClosed id = false) :
    ∃ scope feed, l.Account history id scope feed ∧
      ∃ unread, feed = .registered unread ∨ feed = .cutOff unread := by
  rcases ledger.known_or_unknown id with ⟨scope, feed, account⟩ | ⟨unknown, -⟩
  · refine ⟨scope, feed, account, ?_⟩
    rw [account.shows.isClosed] at hopen
    cases feed with
    | registered unread => exact ⟨unread, .inl rfl⟩
    | cutOff unread => exact ⟨unread, .inr rfl⟩
    | _ => cases hopen
  · rw [Hub.isClosed, unknown.watch] at hopen
    cases hopen

/-- A watch that is not closed has got what was queued for it or has it still to read, and if it is
not registered it was cut off.  It is closed by a stop, and by a receive that finds nothing left once
it is not registered. -/
theorem Ledger.of_open (hopen : (l.run history).store.hub.isClosed id = false) :
    l.received id history ++ (l.run history).store.hub.queued id = l.enqueued id history ∧
      ((l.run history).store.hub.registered.contains id = false → l.WasCutOff history id) ∧
      ∀ h, ((l.run history).step h).store.hub.isClosed id = true ↔
        h = .act (.stop id) ∨ h = .act (.receive id) ∧
          (l.run history).store.hub.queued id = [] ∧
          (l.run history).store.hub.registered.contains id = false := by
  obtain ⟨scope, feed, account, unread, hfeed⟩ := ledger.account_of_open hopen
  have hnot : feed ≠ .stopped := by rcases hfeed with rfl | rfl <;> exact nofun
  have hqueued := account.shows.queued
  have hcontains : (l.run history).store.hub.registered.contains id =
      (feed.registration scope).isSome := congrArg Option.isSome account.shows.registered
  refine ⟨hqueued ▸ account.kept hnot, ?_, fun h => ?_⟩
  · rw [hcontains]
    rcases hfeed with rfl | rfl
    · exact nofun
    · exact fun _ => account.cutOff unread rfl
  · rw [isClosed_step_iff ledger.coherent account.shows account.fits ⟨unread, hfeed⟩, hqueued,
      hcontains]
    rcases hfeed with rfl | rfl <;> simp [Feed.unread, Feed.registration]

end Read

/-- **Subscriptions.**  Whatever has happened to a store, its watches were opened with the ids one,
two, three and so on.  Registered are those that were not stopped, overrun under the policy that ends
a watch, or left behind by the store; the count of watches is their number.  A registered watch is
still read and has no more unread than fits, and publishing removes it only when it overflows.

A watch that is not closed has got what was queued for it, or has it still to read, and if it is not
registered it was cut off.  It is closed when it is stopped, and by a receive that finds nothing left
once it is not registered.  A watch that is closed stays so and yields nothing any more.  Stopping a
watch twice is stopping it once; it changes no other watch, and nothing that is stored. -/
theorem subscription_lifecycle (tuning : Tuning) (handled : Bool) (history : List Happening) :
    let made := start tuning handled
    let l := made.run history
    let hub := l.store.hub
    let capacity := max tuning.watchQueueCapacity.toNat 1
    made.opened history = List.range' 1 hub.lastId ∧
    (∀ id, hub.registered.contains id = true ↔ made.Subscribed history id) ∧
    (∃ ids : List Nat, ids.Nodup ∧ (∀ id, id ∈ ids ↔ made.Subscribed history id) ∧
      l.store.watchCount = ids.length) ∧
    (∀ id scope, hub.registered.find? id = some scope →
      ∃ unread, hub.watches.find? id = some ⟨scope, unread, false, false⟩ ∧
        unread.length ≤ capacity ∧
        ∀ ns, hub.delivery ns scope (hub.watches.find? id) = .ended →
          tuning.watchOverflow = .disconnect ∧ covers scope ns = true ∧
            unread.length = capacity) ∧
    (∀ id, hub.isClosed id = false →
      made.received id history ++ hub.queued id = made.enqueued id history ∧
        (hub.registered.contains id = false → made.WasCutOff history id) ∧
        ∀ h, (l.step h).store.hub.isClosed id = true ↔
          h = .act (.stop id) ∨
            h = .act (.receive id) ∧ hub.queued id = [] ∧ hub.registered.contains id = false) ∧
    (∀ id ∈ made.opened history, hub.isClosed id = true → ∀ later,
      (l.run later).store.hub.isClosed id = true ∧ ∀ r ∈ l.receipts id later, r = .ended) ∧
    ∀ id, (l.store.stop id).stop id = l.store.stop id ∧
      (l.store.stop id).entries = l.store.entries ∧
      (l.store.stop id).version = l.store.version ∧
      ∀ other, other ≠ id →
        (l.store.stop id).hub.registered.find? other = hub.registered.find? other ∧
          (l.store.stop id).hub.watches.find? other = hub.watches.find? other := by
  intro made l hub capacity
  have ledger : made.Ledger history := ledger tuning handled history
  refine ⟨ledger.ids, ledger.registered_iff, ?_, ?_, ?_, ?_, ?_⟩
  · refine ⟨hub.registered.keys, ?_, fun id => ?_, ?_⟩
    · refine hub.registered.keys_ascending.imp fun hlt => ?_
      rintro rfl
      exact nomatch hlt.symm.trans Std.ReflCmp.compare_self
    · rw [OrderedMap.mem_keys_iff]
      exact ledger.registered_iff id
    · exact (List.length_map ..).symm
  · exact fun id scope registered => ledger.watch_of_registered registered
  · exact fun id hopen => ledger.of_open hopen
  · intro id hid hclosed
    obtain ⟨scope, feed, account, hfeed⟩ := ledger.account_of_closed hid hclosed
    exact run_of_closed ledger.coherent account.shows hfeed
  · intro id
    refine ⟨?_, rfl, rfl, fun other hother => ⟨?_, ?_⟩⟩
    · exact congrArg (fun h : Hub => { l.store with hub := h }) (Hub.stop_stop ..)
    · exact Hub.find?_registered_stop hother _
    · exact Hub.find?_watches_stop hother _

/-- A store that is gone opens no watch, and the reader of a watch that it had does not know yet. -/
example :
    let l := (start ⟨1, .disconnect⟩ false).run [.act (.watch "a"), .act (.watch everyNamespace),
      .act (.stop 1), .drop, .act (.watch "b")]
    l.store.hub.lastId = 2 ∧ l.store.watchCount = 0 ∧ l.store.hub.isClosed 1 = true ∧
      l.store.hub.isClosed 2 = false ∧
      (l.step (.act (.receive 2))).store.hub.isClosed 2 = true := by
  decide

end Lifetime

end Autoscaling

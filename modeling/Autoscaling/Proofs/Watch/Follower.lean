import Autoscaling.Proofs.Watch.Delivery
import Autoscaling.Proofs.Watch.Replica
import Mathlib.Logic.Relation
import Mathlib.Tactic.Common

/-!
# Readers that keep a replica

A reader lists a scope, watches it from then on, and applies to the list what it receives.
`Store.replica_follows_list` says what it has at any time in a store that ends watches on overflow:
what the store listed when the last change that it received was published, and what the store lists
now if the watch is open and has nothing to receive.

A `Follower` is such a reader that lists and watches anew at the end of its watch.  Its steps are
mixed with any actions on the store but receives from its own watch.  The invariant
`Follower.Follows` says that the follower would hold what the store lists if it took in all that is
queued, as long as its watch is registered; for a watch that is not registered any more it says
nothing, since the follower will list again.
-/

namespace Autoscaling

/-! ## One watch -/

/-- A receive that yields nothing from an open watch finds it registered and empty. -/
theorem Hub.Shows.registered_of_pending {h : Hub} {id : Nat} {scope : String} {feed : Feed}
    (shows : h.Shows id scope feed) (hchange : (h.receive id).1.change? = none)
    (hopen : (h.receive id).2.isClosed id = false) : feed = .registered [] := by
  obtain ⟨hanswer, hshows⟩ := shows.receive
  rw [hanswer] at hchange
  rw [hshows.isClosed] at hopen
  cases feed with
  | registered unread =>
      cases unread with
      | nil => rfl
      | cons c rest => exact nomatch hchange
  | cutOff unread =>
      cases unread with
      | nil => exact nomatch hopen
      | cons c rest => exact nomatch hchange
  | ended => exact nomatch hopen
  | stopped => exact nomatch hopen

namespace Store

section Disconnecting

variable {s : Store} {id : Nat} {scope : String} (coherent : s.Coherent)
  (hpolicy : s.hub.overflow = .disconnect) (shows : s.hub.Shows id scope (.registered []))

include coherent hpolicy shows

/-- A replica that took in what was received is that of the store right after the mutation whose
change was received last. -/
theorem applyAll_received {actions : List Action} {before : List Change} {c : Change}
    (h : s.received id actions = before ++ [c]) :
    ∃ first m commit second, actions = first ++ .mutate m :: second ∧
      s.published scope first = before ∧ (s.run first).mutate m = .ok commit ∧
      commit.change = c ∧
      (Replica.of s scope).applyAll (before ++ [c]) = Replica.of commit.store scope := by
  -- what was received is a first part of what was published, so its last change was published
  obtain ⟨rest, hrest⟩ := received_append_queued_prefix coherent hpolicy shows actions
  rw [h, List.append_assoc, List.append_assoc, List.singleton_append] at hrest
  obtain ⟨first, a, second, hactions, hfirst, ha⟩ := exists_of_collect_eq hrest.symm
  obtain ⟨m, commit, rfl, accepted, hchange, -⟩ := published?_eq_some_iff.mp ha
  refine ⟨first, m, commit, second, hactions, hfirst, accepted, hchange, ?_⟩
  have hafter := coherent.applyAll_published scope (first ++ [.mutate m])
  have hlast : (s.run first).published scope [.mutate m] = [c] := by
    simp [published, collect, ha]
  have hrun : s.run (first ++ [.mutate m]) = commit.store := by
    rw [run_append, run_cons, run_nil, Store.act, accepted]
  rw [published_append, hlast, hrun] at hafter
  exact hfirst ▸ hafter

/-- A replica that took in what was received is that of the store if the watch is open and has
nothing to receive. -/
theorem applyAll_received_of_pending {actions : List Action}
    (hchange : ((s.run actions).hub.receive id).1.change? = none)
    (hopen : ((s.run actions).hub.receive id).2.isClosed id = false) :
    (Replica.of s scope).applyAll (s.received id actions) =
      Replica.of (s.run actions) scope := by
  obtain ⟨hshows, -⟩ := coherent.shows_run shows actions
  have hfeed := hshows.registered_of_pending hchange hopen
  rw [hfeed] at hshows
  have hall := received_append_queued_of_registered coherent hpolicy shows hshows.registered
  rw [hshows.queued, Feed.unread, List.append_nil] at hall
  rw [hall]
  exact coherent.applyAll_published scope actions

end Disconnecting

end Store

/-! ## Followers -/

namespace Follower

/-- What happens to a follower and its store: the follower receives, or something else is done with
the store.  Nobody else receives from the watch of the follower. -/
inductive Step : Follower × Store → Follower × Store → Prop where
  | read {f f' : Follower} {s s' : Store} {receipt : Receipt}
      (h : f.read s = .ok (receipt, f', s')) : Step (f, s) (f', s')
  | act (f : Follower) (s : Store) (a : Action) (h : a ≠ .receive f.watch) :
      Step (f, s) (f, s.act a)

/-- A follower whose watch stands as a feed will hold what the store lists when it has taken in what
is queued. -/
structure Follows (f : Follower) (s : Store) (feed : Feed) : Prop where
  coherent : s.Coherent
  overflow : s.hub.overflow = .disconnect
  /-- a watch can be opened -/
  room : s.hub.capacity ≤ Abort.greatestCount
  shows : s.hub.Shows f.watch f.scope feed
  replica : ∀ unread, feed = .registered unread →
    f.replica.applyAll unread = Replica.of s f.scope

variable {f : Follower} {s : Store} {feed : Feed}

theorem start_eq_ok_iff {scope : String} {s s' : Store} {f : Follower} :
    start scope s = .ok (f, s') ↔
      ∃ id, s.watch scope = .ok (id, s') ∧ f = ⟨scope, id, .ofViews (s.list scope)⟩ := by
  cases hwatch : s.watch scope with
  | error e => simp [start, Store.listAndWatch, hwatch, bind, Except.bind]
  | ok opened =>
      obtain ⟨id, s₁⟩ := opened
      simp only [start, Store.listAndWatch, hwatch, bind, Except.bind, Except.ok.injEq,
        Prod.mk.injEq]
      constructor
      · rintro ⟨rfl, rfl⟩
        exact ⟨id, ⟨rfl, rfl⟩, rfl⟩
      · rintro ⟨_, ⟨rfl, rfl⟩, rfl⟩
        exact ⟨rfl, rfl⟩

/-- A follower starts with what the store lists. -/
theorem follows_start (coherent : s.Coherent) (hpolicy : s.hub.overflow = .disconnect)
    {scope : String} {s' : Store} (h : start scope s = .ok (f, s')) :
    f.scope = scope ∧ f.Follows s' (.registered []) := by
  obtain ⟨id, opened, rfl⟩ := start_eq_ok_iff.mp h
  obtain ⟨hact, hcapacity, hoverflow, shows⟩ := Store.opened_watch opened
  obtain ⟨room, -, rfl⟩ := Store.watch_eq_ok_iff.mp opened
  refine ⟨rfl, hact ▸ coherent.act _, hoverflow.trans hpolicy, room, shows, ?_⟩
  intro unread hfeed
  cases hfeed
  exact coherent.ofViews_list scope

theorem exists_start (room : s.hub.capacity ≤ Abort.greatestCount) (scope : String) :
    ∃ f s', start scope s = .ok (f, s') :=
  ⟨_, _, start_eq_ok_iff.mpr ⟨_, Store.watch_eq_ok_iff.mpr ⟨room, rfl, rfl⟩, rfl⟩⟩

/-- A follower that has nothing to receive holds what the store lists. -/
theorem Follows.list_eq (follows : f.Follows s (.registered [])) :
    f.replica.list = s.list f.scope := by
  have hreplica := follows.replica [] rfl
  rw [← Replica.list_of, ← hreplica]
  rfl

/-- What else is done with the store does not make a follower lose track. -/
theorem Follows.act (follows : f.Follows s feed) {a : Action} (ha : a ≠ .receive f.watch) :
    ∃ feed', f.Follows (s.act a) feed' := by
  obtain ⟨hshows, hreceipt⟩ := follows.coherent.shows_act follows.shows a
  obtain ⟨hcapacity, hoverflow⟩ := follows.coherent.act_hub a
  refine ⟨_, follows.coherent.act a, hoverflow.trans follows.overflow,
    hcapacity ▸ follows.room, hshows, ?_⟩
  intro unread' hfeed'
  have hnothing : s.receipt? f.watch a = none := by
    cases a with
    | receive id =>
        have hid : id ≠ f.watch := fun hid => ha (congrArg Action.receive hid)
        exact if_neg hid
    | _ => rfl
  rw [hnothing, follows.overflow] at hreceipt
  rw [follows.overflow] at hfeed'
  -- a watch that is registered now was registered before, and what was published is queued
  by_cases hregistered : ∃ unread, feed = .registered unread
  · obtain ⟨unread, rfl⟩ := hregistered
    have hqueued := Feed.delivered_of_registered hfeed'
    rw [Feed.delivered, ← hreceipt, Store.published_feedEvent?] at hqueued
    have hunread : unread' = unread ++ (s.published? f.scope a).toList := hqueued
    rw [hunread, Replica.applyAll_append, follows.replica unread rfl]
    exact follows.coherent.applyAll_published? f.scope a
  · have hfeed : ∀ unread, feed ≠ .registered unread :=
      fun unread hunread => hregistered ⟨unread, hunread⟩
    exact absurd hfeed' (Feed.run_ne_registered feed hfeed _ _)

/-- How many receives it takes a follower of a watch to find nothing queued.  The end of the watch
takes one, and so does the new watch. -/
def receives : Feed → Nat
  | .registered unread => unread.length + 1
  | .cutOff unread => unread.length + 2
  | .ended => 2
  | .stopped => 2

/-- A follower can always receive.  It finds nothing queued, or there is less to receive then. -/
theorem Follows.exists_read (follows : f.Follows s feed) :
    ∃ receipt f' s' feed', f.read s = .ok (receipt, f', s') ∧ f'.scope = f.scope ∧
      f'.Follows s' feed' ∧
      (receipt = .pending ∧ feed' = .registered [] ∨
        receipt ≠ .pending ∧ receives feed' < receives feed) := by
  obtain ⟨hanswer, hshows⟩ := follows.shows.receive
  have hreceive : s.receive f.watch = (feed.answer, s.act (.receive f.watch)) :=
    Prod.ext hanswer rfl
  have hact := follows.coherent.act (.receive f.watch)
  obtain ⟨hcapacity, hoverflow⟩ := follows.coherent.act_hub (.receive f.watch)
  have hpolicy := hoverflow.trans follows.overflow
  have room := hcapacity.symm ▸ follows.room
  cases h : feed.answer with
  | change c =>
      obtain ⟨rest, rfl | rfl⟩ := Feed.answer_eq_change h
      · refine ⟨.change c, { f with replica := f.replica.apply c }, _, .registered rest,
          by rw [read, hreceive]; rfl, rfl, ⟨hact, hpolicy, room, hshows, ?_⟩,
          .inr ⟨nofun, by simp [receives]⟩⟩
        rintro unread ⟨⟩
        exact follows.replica (c :: rest) rfl
      · exact ⟨.change c, { f with replica := f.replica.apply c }, _, .cutOff rest,
          by rw [read, hreceive]; rfl, rfl, ⟨hact, hpolicy, room, hshows, nofun⟩,
          .inr ⟨nofun, by simp [receives]⟩⟩
  | pending =>
      obtain rfl := Feed.answer_eq_pending h
      exact ⟨.pending, f, _, .registered [], by rw [read, hreceive]; rfl, rfl,
        ⟨hact, hpolicy, room, hshows, follows.replica⟩, .inl ⟨rfl, rfl⟩⟩
  | ended =>
      -- the watch has ended, and the new one has nothing queued
      obtain ⟨f', s', hstart⟩ := exists_start room f.scope
      obtain ⟨hscope, hfollows⟩ := follows_start hact hpolicy hstart
      refine ⟨.ended, f', s', .registered [], ?_, hscope, hfollows, .inr ⟨nofun, ?_⟩⟩
      · rw [read, hreceive, h]
        simp [hstart, bind, Except.bind]
      · cases feed with
        | registered unread => cases unread <;> exact nomatch h
        | _ => simp [receives]

theorem Follows.exists_readWith (follows : f.Follows s feed) {fuel : Nat}
    (enough : receives feed ≤ fuel) :
    ∃ f' s', readWith fuel f s = .ok (f', s') ∧ f'.scope = f.scope ∧
      f'.Follows s' (.registered []) := by
  induction fuel generalizing f s feed with
  | zero => cases feed <;> simp [receives] at enough
  | succ fuel ih =>
      obtain ⟨receipt, f', s', feed', hread, hscope, hfollows, ⟨rfl, rfl⟩ | ⟨hmore, hless⟩⟩ :=
        follows.exists_read
      · exact ⟨f', s', by simp [readWith, hread, bind, Except.bind], hscope, hfollows⟩
      · obtain ⟨f'', s'', hrest, hscope', hfollows'⟩ := ih hfollows (by omega)
        refine ⟨f'', s'', ?_, hscope'.trans hscope, hfollows'⟩
        cases receipt with
        | pending => exact absurd rfl hmore
        | _ => simpa [readWith, hread, bind, Except.bind] using hrest

/-- Catching up ends with nothing queued. -/
theorem Follows.exists_catchUp (follows : f.Follows s feed) :
    ∃ f' s', f.catchUp s = .ok (f', s') ∧ f'.scope = f.scope ∧
      f'.Follows s' (.registered []) := by
  refine follows.exists_readWith ?_
  rw [follows.shows.queued]
  cases feed <;> simp [receives, Feed.unread]

theorem Follows.step (follows : f.Follows s feed) {f' : Follower} {s' : Store}
    (h : Step (f, s) (f', s')) : f'.scope = f.scope ∧ ∃ feed', f'.Follows s' feed' := by
  cases h with
  | read h =>
      obtain ⟨_, _, _, feed', hread, hscope, hfollows, -⟩ := follows.exists_read
      rw [h] at hread
      cases hread
      exact ⟨hscope, feed', hfollows⟩
  | act _ _ a ha => exact ⟨rfl, follows.act ha⟩

/-- A follower keeps following its scope, whatever happens. -/
theorem Follows.steps (follows : f.Follows s feed) {f' : Follower} {s' : Store}
    (h : Relation.ReflTransGen Step (f, s) (f', s')) :
    f'.scope = f.scope ∧ ∃ feed', f'.Follows s' feed' := by
  generalize hlast : (f', s') = last at h
  induction h generalizing f' s' with
  | refl =>
      cases hlast
      exact ⟨rfl, feed, follows⟩
  | @tail middle last _ hstep ih =>
      obtain ⟨f₁, s₁⟩ := middle
      obtain ⟨hscope, feed₁, hfollows⟩ := ih rfl
      subst hlast
      obtain ⟨hscope', hfollows'⟩ := hfollows.step hstep
      exact ⟨hscope'.trans hscope, hfollows'⟩

end Follower

/-! ## Lists and watches -/

namespace Store

theorem listAndWatch_eq_ok_iff {s s' : Store} {scope : String} {views : List View}
    {version : UInt64} {id : Nat} :
    s.listAndWatch scope = .ok (views, version, id, s') ↔
      s.watch scope = .ok (id, s') ∧ views = s.list scope ∧ version = s.version := by
  cases hwatch : s.watch scope with
  | error e => simp [listAndWatch, hwatch, bind, Except.bind]
  | ok opened =>
      simp only [listAndWatch, hwatch, bind, Except.bind, Except.ok.injEq, Prod.mk.injEq]
      constructor
      · rintro ⟨rfl, rfl, rfl, rfl⟩
        exact ⟨rfl, rfl, rfl⟩
      · rintro ⟨rfl, rfl, rfl⟩
        exact ⟨rfl, rfl, rfl, rfl⟩

/-- **Lists kept by watching.**  In a store that ends watches on overflow, whoever lists a scope and
applies to the list what the watch delivers has the list as it was right after the mutation whose
change was received last, and the list as it is now whenever the watch is open and has nothing to
receive.  Who lists and watches anew at the end of the watch can always go on, and has the list as
it is now whenever nothing is queued. -/
theorem replica_follows_list (tuning : Tuning) (handled : Bool)
    (hpolicy : tuning.watchOverflow = .disconnect) (history : List Action) (scope : String)
    {views : List View} {version : UInt64} {id : Nat} {s : Store}
    (opened : ((create tuning handled).run history).listAndWatch scope =
      .ok (views, version, id, s)) :
    views = s.list scope ∧ version = s.version ∧
      (∀ actions : List Action,
        let replica := (Replica.ofViews views).applyAll (s.received id actions)
        (s.received id actions = [] → replica.list = views) ∧
        (∀ before c, s.received id actions = before ++ [c] →
          ∃ first m commit second, actions = first ++ .mutate m :: second ∧
            s.published scope first = before ∧ (s.run first).mutate m = .ok commit ∧
            commit.change = c ∧ replica.list = commit.store.list scope) ∧
        (((s.run actions).receive id).1.change? = none →
          ((s.run actions).receive id).2.hub.isClosed id = false →
          replica.list = (s.run actions).list scope)) ∧
      ∀ f s', Relation.ReflTransGen Follower.Step (⟨scope, id, .ofViews views⟩, s) (f, s') →
        (∃ receipt f₁ s₁, f.read s' = .ok (receipt, f₁, s₁) ∧
          (receipt = .pending → f₁.replica.list = s₁.list scope)) ∧
        ∃ f₁ s₁, f.catchUp s' = .ok (f₁, s₁) ∧ (s₁.receive f₁.watch).1 = .pending ∧
          f₁.replica.list = s₁.list scope := by
  have hstart : (create tuning handled).Coherent := coherent_create tuning handled
  obtain ⟨hwatch, rfl, rfl⟩ := listAndWatch_eq_ok_iff.mp opened
  obtain ⟨hact, -, hoverflow, shows⟩ := opened_watch hwatch
  have hbefore := (hstart.run history)
  have coherent : s.Coherent := hact ▸ hbefore.act _
  have hover : s.hub.overflow = .disconnect :=
    hoverflow.trans ((hstart.run_hub history).2.trans hpolicy)
  obtain ⟨-, -, hopened⟩ := watch_eq_ok_iff.mp hwatch
  have hlist : ((create tuning handled).run history).list scope = s.list scope := by
    rw [hopened]
    rfl
  have hversion : ((create tuning handled).run history).version = s.version := by
    rw [hopened]
  refine ⟨hlist, hversion, ?_, ?_⟩
  · intro actions replica
    have hreplica : replica = (Replica.of s scope).applyAll (s.received id actions) := by
      rw [← coherent.ofViews_list scope, ← hlist]
    refine ⟨?_, ?_, ?_⟩
    · intro hnothing
      rw [hreplica, hnothing, hlist]
      exact Replica.list_of s scope
    · intro before c hreceived
      obtain ⟨first, m, commit, second, hactions, hfirst, accepted, hchange, hlast⟩ :=
        applyAll_received coherent hover shows hreceived
      refine ⟨first, m, commit, second, hactions, hfirst, accepted, hchange, ?_⟩
      rw [hreplica, hreceived, hlast, Replica.list_of]
    · intro hchange hopen
      rw [hreplica, applyAll_received_of_pending coherent hover shows hchange hopen,
        Replica.list_of]
  · intro f s' steps
    obtain ⟨-, hfollows⟩ := Follower.follows_start hbefore
      ((hstart.run_hub history).2.trans hpolicy)
      (Follower.start_eq_ok_iff.mpr ⟨id, hwatch, rfl⟩)
    obtain ⟨hscope, feed, follows⟩ := hfollows.steps steps
    refine ⟨?_, ?_⟩
    · obtain ⟨receipt, f₁, s₁, feed₁, hread, hscope₁, follows₁, hend⟩ := follows.exists_read
      refine ⟨receipt, f₁, s₁, hread, fun hpending => ?_⟩
      obtain ⟨-, rfl⟩ | ⟨hmore, -⟩ := hend
      · rw [follows₁.list_eq, hscope₁, hscope]
      · exact absurd hpending hmore
    · obtain ⟨f₁, s₁, hcatch, hscope₁, follows₁⟩ := follows.exists_catchUp
      refine ⟨f₁, s₁, hcatch, follows₁.shows.receive.1, ?_⟩
      rw [follows₁.list_eq, hscope₁, hscope]

/-- A reader that reads in time has the list, and one that misses a change lists again. -/
theorem replica_follows_list_one_place :
    let spec (name : String) : Spec := ⟨"ns", name, none, 1, [⟨"load", 1, none⟩], none, none⟩
    let add (name : String) : Action := .mutate (.add (.declared (spec name)))
    let start := create ⟨1, .disconnect⟩ false
    let s := start.run [add "a", .watch "ns"]
    let f : Follower := ⟨"ns", 1, .ofViews (s.list "ns")⟩
    (start.run [add "a"]).listAndWatch "ns" = .ok (s.list "ns", s.version, 1, s) ∧
      (f.replica.applyAll (s.received 1 [add "b", .receive 1])).list =
        (s.run [add "b", .receive 1]).list "ns" ∧
      ∃ f₁ s₁, f.catchUp ((s.act (add "b")).act (add "c")) = .ok (f₁, s₁) ∧
        (s₁.receive f₁.watch).1 = .pending ∧ f₁.replica.list = s₁.list "ns" := by
  intro spec add start s f
  have opened : (start.run [add "a"]).listAndWatch "ns" = .ok (s.list "ns", s.version, 1, s) :=
    listAndWatch_eq_ok_iff.mpr ⟨rfl, rfl, rfl⟩
  obtain ⟨-, -, reading, following⟩ :=
    replica_follows_list ⟨1, .disconnect⟩ false rfl [add "a"] "ns" opened
  have steps : Relation.ReflTransGen Follower.Step (f, s) (f, (s.act (add "b")).act (add "c")) :=
    .tail (.tail .refl (.act f s (add "b") nofun)) (.act f _ (add "c") nofun)
  have hopen : ((s.run [add "b", .receive 1]).receive 1).2.hub.isClosed 1 = false := by decide
  have hnothing : ((s.run [add "b", .receive 1]).receive 1).1.change? = none := by decide
  exact ⟨opened, (reading [add "b", .receive 1]).2.2 hnothing hopen, (following f _ steps).2⟩

end Store

end Autoscaling

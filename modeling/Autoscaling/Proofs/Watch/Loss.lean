import Autoscaling.Proofs.Watch.Queue
import Mathlib

/-!
# Delivery with losses

Under the policy that loses what does not fit, a watch stays registered until its reader stops it,
and it misses exactly the mutations that overrun it.  `Store.delivery_of_what_fits` says so for
every run, and says what the reader of a watch on every namespace can tell from the versions of two
changes that follow one another: the numbers between them are those of the mutations that were lost
between them.
-/

namespace Autoscaling

/-- A feed that loses what does not fit stays registered until it is stopped. -/
theorem Feed.run_dropNewest {capacity : Nat} {events : List Feed.Event}
    (hstop : Feed.Event.stop ∉ events) (unread : List Change) :
    ∃ unread', (registered unread).run capacity .dropNewest events = registered unread' := by
  induction events generalizing unread with
  | nil => exact ⟨unread, rfl⟩
  | cons e rest ih =>
      have hrest : Feed.Event.stop ∉ rest := fun h => hstop (List.mem_cons_of_mem _ h)
      rw [run_cons]
      cases e with
      | stop => exact absurd List.mem_cons_self hstop
      | publish c =>
          by_cases room : unread.length < capacity
          · rw [step_publish_of_room room]
            exact ih hrest (unread ++ [c])
          · rw [show (registered unread).step capacity .dropNewest (.publish c) =
              registered unread from if_neg room]
            exact ih hrest unread
      | receive => cases unread <;> exact ih hrest _

namespace Store

section Losing

variable {s : Store} {id : Nat} {scope : String} (coherent : s.Coherent)
  (hpolicy : s.hub.overflow = .dropNewest) (shows : s.hub.Shows id scope (.registered []))

include coherent hpolicy shows

/-- A watch that loses what does not fit stays registered until it is stopped. -/
theorem shows_of_dropNewest {actions : List Action} (hstop : Action.stop id ∉ actions) :
    ∃ unread, unread.length ≤ s.hub.capacity ∧
      (s.run actions).hub.Shows id scope (.registered unread) := by
  have hshows := (coherent.shows_run shows actions).1
  rw [hpolicy] at hshows
  have hevents := stop_not_mem_feedEvents hstop s scope
  obtain ⟨unread, hfeed⟩ : ∃ unread, Feed.run s.hub.capacity .dropNewest (.registered [])
      (s.feedEvents id scope actions) = .registered unread := Feed.run_dropNewest hevents []
  rw [hfeed] at hshows
  have hle := coherent.length_queued_le shows actions
  rw [hshows.queued] at hle
  exact ⟨unread, hle, hshows⟩

/-- A mutation in the scope of a watch that is not stopped is queued for it when there is room, and
is lost when there is none. -/
theorem enqueued_iff_room {first : List Action} (hstop : Action.stop id ∉ first) {m : Mutation}
    {c : Commit} (accepted : (s.run first).mutate m = .ok c)
    (hscope : covers scope c.change.view.ns = true) :
    ((s.run first).enqueued? id (.mutate m) = some c.change ↔
        ((s.run first).hub.queued id).length < s.hub.capacity) ∧
      c.store.hub.queued id = (s.run first).hub.queued id ++
        if ((s.run first).hub.queued id).length < s.hub.capacity then [c.change] else [] := by
  obtain ⟨unread, fits, hshows⟩ := shows_of_dropNewest coherent hpolicy shows hstop
  have hcap := (coherent.run_hub first).1
  have hqueued : ((s.run first).hub.publish c.change).queued id = _ :=
    Hub.queued_publish (s.run first).hub c.change id
  rw [← ((coherent.run first).commits accepted).hub, ← enqueued?_mutate accepted] at hqueued
  rw [hqueued, hshows.queued, Feed.unread]
  rcases enqueued_or_overrun hshows (hcap.symm ▸ fits) accepted hscope with
    ⟨room, henqueued⟩ | ⟨⟨_, _, _, full⟩, hmissed⟩
  · rw [hcap] at room
    simp [henqueued, room]
  · rw [hshows.queued, Feed.unread, hcap] at full
    simp [hmissed, full]

omit hpolicy in
/-- Between two changes that the reader of a watch on every namespace gets one after the other, the
mutations that were accepted are those that were lost. -/
theorem exists_lost_between (hall : scope = everyNamespace) {after : List Action}
    {earlier later : List Change} {d e : Change}
    (hreceived : s.received id after = earlier ++ d :: e :: later) :
    ∃ first m middle m' second c c',
      after = first ++ .mutate m :: (middle ++ .mutate m' :: second) ∧
      (s.run first).mutate m = .ok c ∧ c.change = d ∧
      (c.store.run middle).mutate m' = .ok c' ∧ c'.change = e ∧
      ∀ f m₁ g c₁, middle = f ++ .mutate m₁ :: g → (c.store.run f).mutate m₁ = .ok c₁ →
        (c.store.run f).Overrun id scope s.hub.capacity m₁ := by
  obtain ⟨rest, hrest⟩ := coherent.received_prefix_enqueued shows after
  rw [shows.queued, hreceived] at hrest
  have henqueued : s.enqueued id after = earlier ++ d :: (e :: later ++ rest) := by
    simpa [Feed.unread] using hrest.symm
  -- the two changes are queued by two mutations of the run
  obtain ⟨first, m, tail, c, rfl, accepted, rfl, -, htail, -⟩ := exists_of_enqueued_eq henqueued
  rw [List.cons_append, ← List.nil_append (e :: _)] at htail
  obtain ⟨middle, m', second, c', rfl, accepted', rfl, hmiddle, -, hlast⟩ :=
    exists_of_enqueued_eq htail
  refine ⟨first, m, middle, m', second, c, c', rfl, accepted, rfl, accepted', rfl, ?_⟩
  rintro f m₁ g c₁ rfl accepted₁
  -- what lies between was not queued, though the watch was registered until the second one
  have hbetween : c.store.run f = s.run (first ++ .mutate m :: f) := by
    rw [run_append, run_cons, show (s.run first).act (.mutate m) = c.store by
      simp only [act, accepted]]
  have hmissed : (c.store.run f).enqueued? id (.mutate m₁) = none := by
    rw [enqueued_append, enqueued_cons] at hmiddle
    simpa using (List.append_eq_nil_iff.mp (List.append_eq_nil_iff.mp hmiddle).2).1
  have hlater : (((c.store.run f).act (.mutate m₁)).run g).enqueued? id (.mutate m') =
      some c'.change := by
    rwa [run_append, run_cons] at hlast
  rw [hbetween] at hmissed hlater accepted₁ ⊢
  have hshows := (coherent.shows_run shows (first ++ .mutate m :: f)).1
  have hcap := (coherent.run_hub (first ++ .mutate m :: f)).1
  have fits := coherent.length_queued_le shows (first ++ .mutate m :: f)
  rw [hshows.queued] at fits
  have hscope : covers scope c₁.change.view.ns = true := by
    rw [hall]
    rfl
  have overrun := (coherent.run _).overrun_of_enqueued_later hshows (hcap.symm ▸ fits) accepted₁
    hscope hmissed hlater
  exact hcap ▸ overrun.2

end Losing

/-- **Delivery of what fits.**  In a store whose watches lose what does not fit, a mutation in the
scope of a watch that is not stopped is queued for it exactly when fewer changes than the capacity
are unread.  Until the watch is stopped it is registered and not closed, and what its reader has got
and what is queued are the changes that were queued for it, in the order of the mutations.  When the
watch is on every namespace, the versions that are skipped between two changes that its reader gets
one after the other are those of the mutations that overran it between them, and there is no
other. -/
theorem delivery_of_what_fits (tuning : Tuning) (handled : Bool)
    (hpolicy : tuning.watchOverflow = .dropNewest) (before after : List Action) (scope : String)
    {id : Nat} {s : Store}
    (opened : ((create tuning handled).run before).watch scope = .ok (id, s)) :
    let start := create tuning handled
    let capacity := max tuning.watchQueueCapacity.toNat 1
    (∀ first m second c, after = first ++ .mutate m :: second → Action.stop id ∉ first →
      (s.run first).mutate m = .ok c → covers scope c.change.view.ns = true →
        let unread := (s.run first).hub.queued id
        ((s.run first).enqueued? id (.mutate m) = some c.change ↔ unread.length < capacity) ∧
          c.store.hub.queued id =
            unread ++ if unread.length < capacity then [c.change] else []) ∧
    (Action.stop id ∉ after →
      s.received id after ++ (s.run after).hub.queued id = s.enqueued id after ∧
        (s.run after).hub.registered.find? id = some scope ∧
        (s.run after).hub.isClosed id = false) ∧
    (scope = everyNamespace → ∀ earlier d e later,
      s.received id after = earlier ++ d :: e :: later →
        ∃ first m middle m' second c c',
          after = first ++ .mutate m :: (middle ++ .mutate m' :: second) ∧
          (s.run first).mutate m = .ok c ∧ c.change = d ∧
          (c.store.run middle).mutate m' = .ok c' ∧ c'.change = e ∧
          let number := (start.log (before ++ .watch scope :: first)).length + 1
          let lost := c.store.log middle
          d.view.resourceVersion = UInt64.ofNat number ∧
          (∀ i (hi : i < lost.length), lost[i].Stamped (number + i + 1)) ∧
          e.view.resourceVersion = UInt64.ofNat (number + lost.length + 1) ∧
          ∀ f m₁ g c₁, middle = f ++ .mutate m₁ :: g → (c.store.run f).mutate m₁ = .ok c₁ →
            (c.store.run f).Overrun id scope capacity m₁) := by
  intro start capacity
  have hstart : start.Coherent := coherent_create tuning handled
  obtain ⟨hact, hcapacity, hoverflow, shows⟩ := opened_watch opened
  have coherent : s.Coherent := hact ▸ (hstart.run before).act _
  have hcap : s.hub.capacity = capacity := hcapacity.trans (hstart.run_hub before).1
  have hover : s.hub.overflow = .dropNewest :=
    hoverflow.trans ((hstart.run_hub before).2.trans hpolicy)
  rw [← hcap]
  refine ⟨?_, ?_, ?_⟩
  · rintro first m second c - hstop accepted hscope
    exact enqueued_iff_room coherent hover shows hstop accepted hscope
  · intro hstop
    obtain ⟨unread, -, hshows⟩ := shows_of_dropNewest coherent hover shows hstop
    refine ⟨?_, hshows.registered, hshows.isClosed⟩
    rw [coherent.received_append_queued shows hstop, shows.queued]
    rfl
  · intro hall earlier d e later hreceived
    obtain ⟨first, m, middle, m', second, c, c', hafter, accepted, rfl, accepted', rfl, hlost⟩ :=
      exists_lost_between coherent shows hall hreceived
    refine ⟨first, m, middle, m', second, c, c', hafter, accepted, rfl, accepted', rfl, ?_⟩
    intro number lost
    -- the versions count the accepted mutations
    have hrun : s.run first = start.run (before ++ .watch scope :: first) := by
      rw [run_append, run_cons, ← hact]
    have hversion : (s.run first).version = UInt64.ofNat (number - 1) := by
      rw [hrun, hstart.version_run]
      exact UInt64.zero_add _
    have commits := (coherent.run first).commits accepted
    have hnumber : c.store.version = UInt64.ofNat number := by
      rw [commits.version, hversion, UInt64.ofNat_add]
      rfl
    have hafterLost : (c.store.run middle).version + 1 =
        UInt64.ofNat (number + lost.length + 1) := by
      rw [(commits.coherent (coherent.run first)).version_run, hnumber, ← UInt64.ofNat_add,
        UInt64.ofNat_add (number + lost.length)]
      rfl
    have commits' := ((commits.coherent (coherent.run first)).run middle).commits accepted'
    refine ⟨commits.stamp.trans (commits.version.symm.trans hnumber), ?_,
      commits'.stamp.trans hafterLost, hlost⟩
    exact (commits.coherent (coherent.run first)).stamped_log hnumber middle

/-- A watch with one place loses the second of three mutations, and the versions tell. -/
theorem delivery_of_what_fits_one_place :
    let spec (name : String) : Spec := ⟨"ns", name, none, 1, [⟨"load", 1, none⟩], none, none⟩
    let add (name : String) : Mutation := .add (.declared (spec name))
    let seen (name : String) (n : UInt64) : Change :=
      ⟨.added, ({ Autoscaler.declared (spec name) with version := n } : Autoscaler).shown⟩
    let start := create ⟨1, .dropNewest⟩ false
    let s := start.run [.watch everyNamespace]
    let after : List Action :=
      [.mutate (add "a"), .mutate (add "b"), .receive 1, .mutate (add "c"), .receive 1]
    start.watch everyNamespace = .ok (1, s) ∧
      s.received 1 after = [seen "a" 1, seen "c" 3] ∧
      s.received 1 after ++ (s.run after).hub.queued 1 = s.enqueued 1 after ∧
      (s.run after).hub.isClosed 1 = false ∧
      ∃ number lost : Nat, 1 = UInt64.ofNat number ∧ 3 = UInt64.ofNat (number + lost + 1) := by
  intro spec add seen start s after
  have opened : (start.run []).watch everyNamespace = .ok (1, s) := rfl
  obtain ⟨-, hdelivered, hskipped⟩ :=
    delivery_of_what_fits ⟨1, .dropNewest⟩ false rfl [] after everyNamespace opened
  obtain ⟨hqueued, -, hopen⟩ := hdelivered (by simp [after])
  have hreceived : s.received 1 after = [seen "a" 1, seen "c" 3] := by cbv
  obtain ⟨_, _, middle, _, _, c, _, -, -, hc, -, hc', hnumber, -, hnext, -⟩ :=
    hskipped rfl [] _ _ [] hreceived
  exact ⟨opened, hreceived, hqueued, hopen, _, _, hnumber, hnext⟩

end Store

end Autoscaling

import Autoscaling.Proofs.Watch.Follower
import Mathlib

/-!
# Readers do not disturb one another

Many parties share a store.  A run is seen here by one of them, which has one watch.  The deeds of
the run (`Deed`) are the mutations and the listeners, whoever makes and sets them, and what the party
does with its watch.  `Action.deed?` picks them out; everything else in the run is done by others to
watches of theirs.

`Store.watchers_apart` compares two runs from one reachable store that have the same deeds in the
same order and differ in whatever the others do.  The deeds get the same answers in both, the store
holds the same, and the party's watch ends at the same receive.

The proof is a simulation.  Two stores are `Alike` to a party if they agree on all but the hub, and
the party's watches stand as the same feed.  What others do keeps that on one side alone
(`Alike.act_left`), and a deed that is done on both sides gets the same answer and keeps it
(`Alike.deed`).  The ids of the watches are not compared: others may have opened any number.
-/

namespace Autoscaling

/-- What matters to a party that has at most one watch. -/
inductive Deed where
  | mutate (m : Mutation)
  | listen (ns name : String)
  | unlisten (ns : String)
  /-- receive once from the watch -/
  | receive
  /-- stop the watch -/
  | stop

/-- The deed in an action, for the party that has the watch, if it has one.  What is done with other
watches is none. -/
def Action.deed? (watch : Option Nat) : Action → Option Deed
  | mutate m => some (.mutate m)
  | Action.watch _ => none
  | receive id => if watch = some id then some .receive else none
  | stop id => if watch = some id then some .stop else none
  | listen ns name => some (.listen ns name)
  | unlisten ns => some (.unlisten ns)

/-- The action of a deed is known by the deed, but for the id of the watch. -/
theorem Action.deed?_eq_some_iff {watch : Option Nat} {a : Action} {d : Deed} :
    a.deed? watch = some d ↔ match d with
      | .mutate m => a = .mutate m
      | .listen ns name => a = .listen ns name
      | .unlisten ns => a = .unlisten ns
      | .receive => ∃ id, watch = some id ∧ a = .receive id
      | .stop => ∃ id, watch = some id ∧ a = .stop id := by
  cases a <;> cases d <;> simp [deed?]

/-- What is told of a deed to the one who does it. -/
inductive Answer where
  | refused (e : StateError)
  /-- what was published, and who was told -/
  | accepted (c : Change) (notifications : List Notification)
  | receipt (r : Receipt)
  /-- whether there was a listener -/
  | unlistened (existed : Bool)
  | done

/-- A commit as the same mutation makes it in a store that is the same but for its hub. -/
def Commit.onHub (h : Hub) (c : Commit) : Commit :=
  { c with store := { c.store with hub := h.publish c.change } }

namespace Store

/-- The answer to an action. -/
def answer (s : Store) : Action → Answer
  | .mutate m =>
      match s.mutate m with
      | .ok c => .accepted c.change c.notifications
      | .error e => .refused e
  | .receive id => .receipt (s.receive id).1
  | .unlisten ns => .unlistened (s.unlisten ns).1
  | _ => .done

/-- The answers to the deeds of a run, in their order. -/
def answers (s : Store) (watch : Option Nat) (actions : List Action) : List Answer :=
  s.collect (fun s a => (a.deed? watch).map fun _ => s.answer a) actions

theorem answers_append (s : Store) (watch : Option Nat) (first second : List Action) :
    s.answers watch (first ++ second) =
      s.answers watch first ++ (s.run first).answers watch second :=
  collect_append ..

theorem answers_cons (s : Store) (watch : Option Nat) (a : Action) (rest : List Action) :
    s.answers watch (a :: rest) =
      ((a.deed? watch).map fun _ => s.answer a).toList ++ (s.act a).answers watch rest := rfl

/-- A run without deeds answers nothing. -/
theorem answers_of_no_deed {watch : Option Nat} {actions : List Action}
    (h : ∀ a ∈ actions, a.deed? watch = none) (s : Store) : s.answers watch actions = [] := by
  induction actions generalizing s with
  | nil => rfl
  | cons a rest ih =>
      rw [answers_cons, h a List.mem_cons_self, ih fun b hb => h b (List.mem_cons_of_mem _ hb)]
      rfl

/-! ## Mutations do not look at the hub -/

theorem put_hub (s : Store) (h : Hub) (kind : ChangeKind) (a : Autoscaler)
    (notify : Autoscaler → List Notification) :
    ({ s with hub := h } : Store).put kind a notify =
      (s.put kind a notify).map (Commit.onHub h) := by
  show Except.bind (Autoscaler.view _) _ = Except.map _ (Except.bind (Autoscaler.view _) _)
  cases ({ a with version := s.version + 1 } : Autoscaler).view <;> rfl

/-- What a mutation comes to does not depend on the hub, which only has the change published. -/
theorem mutate_hub (s : Store) (h : Hub) (m : Mutation) :
    ({ s with hub := h } : Store).mutate m = (s.mutate m).map (Commit.onHub h) := by
  have hfind (k : Key) : ({ s with hub := h } : Store).find? k = s.find? k := rfl
  cases m with
  | add a =>
      simp only [mutate, add, hfind, put_hub]
      cases s.find? a.key <;> rfl
  | update a =>
      simp only [mutate, update, hfind, put_hub]
      cases s.find? a.key <;> rfl
  | updateSpec spec =>
      simp only [mutate, updateSpec, hfind, put_hub]
      cases s.find? spec.key <;> rfl
  | delete k =>
      simp only [mutate, delete, hfind]
      cases s.find? k with
      | none => rfl
      | some entry =>
          have hremove : ({ s with hub := h } : Store).remove k = { s.remove k with hub := h } := by
            unfold remove
            cases s.entries.find? k.ns <;> rfl
          rw [hremove]
          rfl
  | updateStatus sink v =>
      simp only [mutate, updateStatus_eq]
      split_ifs
      · rfl
      · cases v.status.toStatus with
        | error e => rfl
        | ok status =>
            simp only [mergeStatus, hfind, put_hub]
            cases s.find? ⟨sink, v.name⟩ <;> rfl

/-! ## Stores that a party cannot tell apart -/

/-- What others do touches nothing but the hub. -/
theorem exists_act_eq {watch : Option Nat} {a : Action} (ha : a.deed? watch = none) (s : Store) :
    ∃ hub, s.act a = { s with hub := hub } := by
  cases a with
  | watch scope =>
      simp only [act, Store.watch]
      split_ifs
      · exact ⟨s.hub, rfl⟩
      · exact ⟨_, rfl⟩
  | receive id => exact ⟨_, rfl⟩
  | stop id => exact ⟨_, rfl⟩
  | _ => cases ha

/-- Two stores agree on all but the hub, and a party's watch stands the same in both. -/
structure Alike (watch₁ watch₂ : Option Nat) (s₁ s₂ : Store) : Prop where
  coherent : s₁.Coherent
  same : s₂ = { s₁ with hub := s₂.hub }
  capacity : s₂.hub.capacity = s₁.hub.capacity
  overflow : s₂.hub.overflow = s₁.hub.overflow
  /-- the party has no watch yet, or the ids name watches that stand as one feed -/
  feed : (watch₁ = none ∧ watch₂ = none) ∨
    ∃ id₁ id₂ scope feed, watch₁ = some id₁ ∧ watch₂ = some id₂ ∧
      s₁.hub.Shows id₁ scope feed ∧ s₂.hub.Shows id₂ scope feed

namespace Alike

variable {watch₁ watch₂ : Option Nat} {s₁ s₂ : Store}

theorem refl {s : Store} (coherent : s.Coherent) : Alike none none s s :=
  ⟨coherent, rfl, rfl, rfl, .inl ⟨rfl, rfl⟩⟩

theorem symm (alike : Alike watch₁ watch₂ s₁ s₂) : Alike watch₂ watch₁ s₂ s₁ where
  coherent := by
    rw [alike.same]
    exact alike.coherent
  same := by
    rw [alike.same]
  capacity := alike.capacity.symm
  overflow := alike.overflow.symm
  feed := by
    rcases alike.feed with ⟨hwatch₁, hwatch₂⟩ | ⟨id₁, id₂, scope, feed, hid₁, hid₂, shows₁, shows₂⟩
    · exact .inl ⟨hwatch₂, hwatch₁⟩
    · exact .inr ⟨id₂, id₁, scope, feed, hid₂, hid₁, shows₂, shows₁⟩

/-- What others do on one side makes no difference to a party. -/
theorem act_left (alike : Alike watch₁ watch₂ s₁ s₂) {a : Action} (ha : a.deed? watch₁ = none) :
    Alike watch₁ watch₂ (s₁.act a) s₂ := by
  obtain ⟨hub, hact⟩ := exists_act_eq ha s₁
  obtain ⟨hcapacity, hoverflow⟩ := alike.coherent.act_hub a
  refine ⟨alike.coherent.act a, ?_, alike.capacity.trans hcapacity.symm,
    alike.overflow.trans hoverflow.symm, alike.feed.imp_right ?_⟩
  · rw [hact]
    exact alike.same
  · rintro ⟨id₁, id₂, scope, feed, rfl, hid₂, shows₁, shows₂⟩
    -- what others do is no event of the watch
    have hevent : s₁.feedEvent? id₁ scope a = none := by
      cases a with
      | watch scope₀ => rfl
      | receive id => simpa [Action.deed?, feedEvent?, eq_comm] using ha
      | stop id => simpa [Action.deed?, feedEvent?, eq_comm] using ha
      | _ => cases ha
    have hshows := (alike.coherent.shows_act shows₁ a).1
    rw [hevent] at hshows
    exact ⟨id₁, id₂, scope, feed, rfl, hid₂, hshows, shows₂⟩

theorem run_left (alike : Alike watch₁ watch₂ s₁ s₂) {actions : List Action}
    (h : ∀ a ∈ actions, a.deed? watch₁ = none) : Alike watch₁ watch₂ (s₁.run actions) s₂ := by
  induction actions generalizing s₁ with
  | nil => exact alike
  | cons a rest ih =>
      exact ih (alike.act_left (h a List.mem_cons_self))
        (fun b hb => h b (List.mem_cons_of_mem _ hb))

/-- Two actions that do the same to all but the hub, and that are one event for the party's watch,
leave the stores alike. -/
theorem act_both (alike : Alike watch₁ watch₂ s₁ s₂) {a₁ a₂ : Action}
    (hsame : s₂.act a₂ = { s₁.act a₁ with hub := (s₂.act a₂).hub })
    (hevent : ∀ id₁ id₂ scope, watch₁ = some id₁ → watch₂ = some id₂ →
      s₂.feedEvent? id₂ scope a₂ = s₁.feedEvent? id₁ scope a₁) :
    Alike watch₁ watch₂ (s₁.act a₁) (s₂.act a₂) := by
  obtain ⟨hcapacity₁, hoverflow₁⟩ := alike.coherent.act_hub a₁
  obtain ⟨hcapacity₂, hoverflow₂⟩ := alike.symm.coherent.act_hub a₂
  refine ⟨alike.coherent.act a₁, hsame, hcapacity₂.trans (alike.capacity.trans hcapacity₁.symm),
    hoverflow₂.trans (alike.overflow.trans hoverflow₁.symm), alike.feed.imp_right ?_⟩
  rintro ⟨id₁, id₂, scope, feed, hid₁, hid₂, shows₁, shows₂⟩
  have hshows₂ := (alike.symm.coherent.shows_act shows₂ a₂).1
  rw [hevent id₁ id₂ scope hid₁ hid₂, alike.capacity, alike.overflow] at hshows₂
  exact ⟨id₁, id₂, scope, _, hid₁, hid₂, (alike.coherent.shows_act shows₁ a₁).1, hshows₂⟩

/-- The same mutation on both sides. -/
theorem mutate (alike : Alike watch₁ watch₂ s₁ s₂) (m : Mutation) :
    s₁.answer (.mutate m) = s₂.answer (.mutate m) ∧
      Alike watch₁ watch₂ (s₁.act (.mutate m)) (s₂.act (.mutate m)) := by
  have hmutate : s₂.mutate m = (s₁.mutate m).map (Commit.onHub s₂.hub) := by
    rw [alike.same]
    exact s₁.mutate_hub s₂.hub m
  cases hm : s₁.mutate m with
  | error e =>
      rw [hm] at hmutate
      have h₂ : s₂.mutate m = .error e := hmutate
      refine ⟨by simp only [Store.answer, hm, h₂], alike.act_both ?_ ?_⟩
      · simp only [Store.act, hm, h₂]
        exact alike.same
      · intro _ _ _ _ _
        simp only [feedEvent?, published?, accepted?, hm, h₂]
  | ok c =>
      rw [hm] at hmutate
      have h₂ : s₂.mutate m = .ok (c.onHub s₂.hub) := hmutate
      refine ⟨by simp only [Store.answer, hm, h₂]; rfl, alike.act_both ?_ ?_⟩
      · simp only [Store.act, hm, h₂]
        rfl
      · intro _ _ _ _ _
        simp only [feedEvent?, published?, accepted?, hm, h₂]
        rfl

/-- The same deed on both sides is answered alike and leaves the stores alike. -/
theorem deed (alike : Alike watch₁ watch₂ s₁ s₂) {a₁ a₂ : Action} {d : Deed}
    (h₁ : a₁.deed? watch₁ = some d) (h₂ : a₂.deed? watch₂ = some d) :
    s₁.answer a₁ = s₂.answer a₂ ∧ Alike watch₁ watch₂ (s₁.act a₁) (s₂.act a₂) := by
  rw [Action.deed?_eq_some_iff] at h₁ h₂
  cases d with
  | mutate m =>
      subst h₁ h₂
      exact alike.mutate m
  | listen ns name =>
      subst h₁ h₂
      refine ⟨rfl, alike.act_both ?_ fun _ _ _ _ _ => rfl⟩
      rw [alike.same]
      rfl
  | unlisten ns =>
      subst h₁ h₂
      refine ⟨?_, alike.act_both ?_ fun _ _ _ _ _ => rfl⟩
      · rw [alike.same]
        rfl
      · rw [alike.same]
        rfl
  | receive =>
      obtain ⟨id₁, hid₁, rfl⟩ := h₁
      obtain ⟨id₂, hid₂, rfl⟩ := h₂
      refine ⟨?_, alike.act_both ?_ ?_⟩
      · rcases alike.feed with ⟨hnone, -⟩ | ⟨_, _, scope, feed, hid₁', hid₂', shows₁, shows₂⟩
        · exact nomatch hnone.symm.trans hid₁
        · cases hid₁.symm.trans hid₁'
          cases hid₂.symm.trans hid₂'
          exact congrArg Answer.receipt (shows₁.receive.1.trans shows₂.receive.1.symm)
      · rw [alike.same]
        rfl
      · intro _ _ _ hid₁' hid₂'
        simp only [feedEvent?, Option.some.inj (hid₁.symm.trans hid₁'),
          Option.some.inj (hid₂.symm.trans hid₂'), if_pos]
  | stop =>
      obtain ⟨id₁, hid₁, rfl⟩ := h₁
      obtain ⟨id₂, hid₂, rfl⟩ := h₂
      refine ⟨rfl, alike.act_both ?_ ?_⟩
      · rw [alike.same]
        rfl
      · intro _ _ _ hid₁' hid₂'
        simp only [feedEvent?, Option.some.inj (hid₁.symm.trans hid₁'),
          Option.some.inj (hid₂.symm.trans hid₂'), if_pos]

/-- Runs with the same deeds are answered alike and leave the stores alike. -/
theorem run (alike : Alike watch₁ watch₂ s₁ s₂) {actions₁ actions₂ : List Action}
    (h : actions₁.filterMap (Action.deed? watch₁) = actions₂.filterMap (Action.deed? watch₂)) :
    s₁.answers watch₁ actions₁ = s₂.answers watch₂ actions₂ ∧
      Alike watch₁ watch₂ (s₁.run actions₁) (s₂.run actions₂) := by
  induction actions₁ generalizing s₁ s₂ actions₂ with
  | nil =>
      have hothers := List.filterMap_eq_nil_iff.mp h.symm
      exact ⟨(answers_of_no_deed hothers s₂).symm, (alike.symm.run_left hothers).symm⟩
  | cons a₁ rest₁ ih =>
      cases ha : a₁.deed? watch₁ with
      | none =>
          rw [List.filterMap_cons_none ha] at h
          rw [answers_cons, ha]
          exact ih (alike.act_left ha) h
      | some d =>
          -- the other run comes to the same deed after what others do
          rw [List.filterMap_cons_some ha, eq_comm, List.filterMap_eq_cons_iff] at h
          obtain ⟨skipped, a₂, rest₂, rfl, hothers, ha₂, hrest⟩ := h
          obtain ⟨hanswer, hact⟩ := (alike.symm.run_left hothers).symm.deed ha ha₂
          obtain ⟨hanswers, hrun⟩ := ih hact hrest.symm
          rw [answers_append, answers_of_no_deed hothers, answers_cons, answers_cons, ha, ha₂,
            hanswer, hanswers, run_append]
          exact ⟨rfl, hrun⟩

/-- A party that opens its watch in stores that it cannot tell apart cannot tell them apart with it
either. -/
theorem listAndWatch (alike : Alike none none s₁ s₂) {scope : String} {views : List View}
    {version : UInt64} {id₁ : Nat} {s₁' : Store}
    (opened₁ : s₁.listAndWatch scope = .ok (views, version, id₁, s₁')) :
    ∃ id₂ s₂', s₂.listAndWatch scope = .ok (views, version, id₂, s₂') ∧
      Alike (some id₁) (some id₂) s₁' s₂' := by
  obtain ⟨hwatch₁, rfl, rfl⟩ := listAndWatch_eq_ok_iff.mp opened₁
  obtain ⟨room, -, -⟩ := watch_eq_ok_iff.mp hwatch₁
  have hwatch₂ : s₂.watch scope = .ok ((s₂.hub.subscribe scope).1,
      { s₂ with hub := (s₂.hub.subscribe scope).2 }) :=
    watch_eq_ok_iff.mpr ⟨alike.capacity.symm ▸ room, rfl, rfl⟩
  obtain ⟨hact₁, hcapacity₁, hoverflow₁, shows₁⟩ := opened_watch hwatch₁
  obtain ⟨-, hcapacity₂, hoverflow₂, shows₂⟩ := opened_watch hwatch₂
  refine ⟨_, _, listAndWatch_eq_ok_iff.mpr ⟨hwatch₂, ?_, ?_⟩, ?_⟩
  · rw [alike.same]
    rfl
  · rw [alike.same]
  · obtain ⟨-, -, hs₁⟩ := watch_eq_ok_iff.mp hwatch₁
    refine ⟨hact₁ ▸ alike.coherent.act _, ?_, hcapacity₂.trans (alike.capacity.trans hcapacity₁.symm),
      hoverflow₂.trans (alike.overflow.trans hoverflow₁.symm), .inr ⟨_, _, scope, _, rfl, rfl,
        shows₁, shows₂⟩⟩
    rw [hs₁]
    exact congrArg (fun s : Store => { s with hub := (s₂.hub.subscribe scope).2 }) alike.same

theorem entries (alike : Alike watch₁ watch₂ s₁ s₂) : s₁.entries = s₂.entries := by
  rw [alike.same]

theorem version (alike : Alike watch₁ watch₂ s₁ s₂) : s₁.version = s₂.version := by
  rw [alike.same]

theorem isClosed {id₁ id₂ : Nat} (alike : Alike (some id₁) (some id₂) s₁ s₂) :
    s₁.hub.isClosed id₁ = s₂.hub.isClosed id₂ := by
  rcases alike.feed with ⟨hnone, -⟩ | ⟨_, _, scope, feed, hid₁, hid₂, shows₁, shows₂⟩
  · cases hnone
  · cases hid₁
    cases hid₂
    exact shows₁.isClosed.trans shows₂.isClosed.symm

end Alike

/-- **Readers do not disturb one another.**  Two runs from a reachable store have the same mutations
and the same listeners, in the same order, and one party opens a watch in both at the same place, and
from then on receives from it and stops it at the same places.  The other watches may differ in
everything: in how many there are, in their scopes, and in when they are read, stopped or overrun.
Then all answers are the same, those to the mutations and those to the party, which gets the same
list when it opens the watch; and wherever the two runs have come equally far, the stores hold the
same entries and the same version, and the party's watch has reported its end in both or in
neither. -/
theorem watchers_apart (tuning : Tuning) (handled : Bool) (history before₁ before₂ : List Action)
    (hbefore : before₁.filterMap (Action.deed? none) = before₂.filterMap (Action.deed? none))
    (scope : String) {views : List View} {version : UInt64} {id₁ : Nat} {s₁ : Store}
    (opened : (((create tuning handled).run history).run before₁).listAndWatch scope =
      .ok (views, version, id₁, s₁)) :
    let s := (create tuning handled).run history
    s.answers none before₁ = s.answers none before₂ ∧
      (s.run before₁).entries = (s.run before₂).entries ∧
      (s.run before₁).version = (s.run before₂).version ∧
      ∃ id₂ s₂, (s.run before₂).listAndWatch scope = .ok (views, version, id₂, s₂) ∧
        ∀ after₁ after₂, after₁.filterMap (Action.deed? (some id₁)) =
            after₂.filterMap (Action.deed? (some id₂)) →
          s₁.answers (some id₁) after₁ = s₂.answers (some id₂) after₂ ∧
            (s₁.run after₁).entries = (s₂.run after₂).entries ∧
            (s₁.run after₁).version = (s₂.run after₂).version ∧
            (s₁.run after₁).hub.isClosed id₁ = (s₂.run after₂).hub.isClosed id₂ := by
  intro s
  have halike : Alike none none s s := .refl (coherent_run tuning handled history)
  obtain ⟨hanswers, hrun⟩ := halike.run hbefore
  obtain ⟨id₂, s₂, opened₂, hopened⟩ := hrun.listAndWatch opened
  refine ⟨hanswers, hrun.entries, hrun.version, id₂, s₂, opened₂, ?_⟩
  intro after₁ after₂ hafter
  obtain ⟨hlater, hlast⟩ := hopened.run hafter
  exact ⟨hlater, hlast.entries, hlast.version, hlast.isClosed⟩

/-- In one run someone else has a watch too, which is read and stopped, and in the other run someone
opens one that is overrun. -/
theorem watchers_apart_one_place :
    let declared (name : String) : Autoscaler :=
      .declared ⟨"ns", name, none, 1, [⟨"load", 1, none⟩], none, none⟩
    let add (name : String) : Action := .mutate (.add (declared name))
    let start := create ⟨1, .disconnect⟩ false
    let before₁ := [.watch everyNamespace, add "a"]
    let before₂ := [add "a"]
    let s₁ := (start.run before₁).act (.watch "ns")
    let s₂ := (start.run before₂).act (.watch "ns")
    let views := [({ declared "a" with version := 1 } : Autoscaler).shown]
    let after₁ :=
      [.receive 1, add "b", .receive 2, .receive 1, .stop 1, add "c", add "d", .receive 2, .receive 2]
    let after₂ :=
      [.watch "ns", add "b", .receive 1, add "c", add "d", .receive 1, .receive 2, .receive 1]
    (start.run before₁).listAndWatch "ns" = .ok (views, 1, 2, s₁) ∧
      (start.run before₂).listAndWatch "ns" = .ok (views, 1, 1, s₂) ∧
      s₁.answers (some 2) after₁ = s₂.answers (some 1) after₂ ∧
      (s₁.run after₁).hub.isClosed 2 = true ∧ (s₂.run after₂).hub.isClosed 1 = true := by
  intro declared add start before₁ before₂ s₁ s₂ views after₁ after₂
  have opened₁ : ((start.run []).run before₁).listAndWatch "ns" = .ok (views, 1, 2, s₁) := by rfl
  have opened₂ : (start.run before₂).listAndWatch "ns" = .ok (views, 1, 1, s₂) := by rfl
  obtain ⟨-, -, -, id₂, s₂', opened₂', hafter⟩ :=
    watchers_apart ⟨1, .disconnect⟩ false [] before₁ before₂ rfl "ns" opened₁
  cases opened₂.symm.trans opened₂'
  obtain ⟨hanswers, -, -, hclosed⟩ := hafter after₁ after₂ rfl
  have hended : (s₁.run after₁).hub.isClosed 2 = true := by decide
  exact ⟨opened₁, opened₂, hanswers, hended, hclosed.symm.trans hended⟩

end Store

end Autoscaling

import Autoscaling.Proofs.Watch.Queue
import Mathlib

/-!
# Additions come first

The changes of one autoscaler alternate: it is added, modified, deleted, and added again.  What the
reader of a watch sees of it keeps to that as far as the watch keeps the additions:
`ChangeKind.AddedFirst` says of a list of kinds that an addition is the first that is seen whenever
the autoscaler is not live, at the beginning and after each deletion.

A watch that ends on overflow never misses a change and delivers a later one.  A watch that loses
what does not fit does, and it may lose an addition like any other change:
`Store.first_seen_is_modification` is a run in which the reader of such a watch learns of an
autoscaler by a modification.  `Store.added_before_modified` says for both policies that this is the
only way.
-/

namespace Autoscaling

namespace ChangeKind

/-- An autoscaler that is not live is seen again by an addition.  Whether it is live is known in the
beginning and follows from each kind of change. -/
def AddedFirst : Bool → List ChangeKind → Prop
  | _, [] => True
  | live, kind :: rest => (live = false → kind = added) ∧ AddedFirst kind.leavesLive rest

namespace AddedFirst

theorem of_initial {live : Bool} {first kinds : List ChangeKind} (h : AddedFirst live kinds)
    (hinitial : first <+: kinds) : AddedFirst live first := by
  obtain ⟨rest, rfl⟩ := hinitial
  induction first generalizing live with
  | nil => trivial
  | cons kind first ih => exact ⟨h.1, ih h.2⟩

/-- Of an autoscaler that is live anything may be seen first. -/
theorem of_live {live : Bool} {kinds : List ChangeKind} (h : AddedFirst live kinds) :
    AddedFirst true kinds := by
  cases kinds with
  | nil => trivial
  | cons kind rest => exact ⟨nofun, h.2⟩

theorem after_deleted {live : Bool} {earlier later : List ChangeKind} {kind : ChangeKind}
    (h : AddedFirst live (earlier ++ deleted :: kind :: later)) : kind = added := by
  induction earlier generalizing live with
  | nil => exact h.2.1 rfl
  | cons _ earlier ih => exact ih h.2

end AddedFirst

end ChangeKind

open ChangeKind (AddedFirst)

namespace Store

/-- The kinds of the changes of one autoscaler among others, in their order. -/
def kindsOf (k : Key) (changes : List Change) : List ChangeKind :=
  (changes.filter fun c => c.view.key = k).map Change.kind

theorem kindsOf_append (k : Key) (first second : List Change) :
    kindsOf k (first ++ second) = kindsOf k first ++ kindsOf k second := by
  rw [kindsOf, List.filter_append, List.map_append]
  rfl

theorem kindsOf_singleton (k : Key) (c : Change) :
    kindsOf k [c] = if c.view.key = k then [c.kind] else [] := by
  by_cases hk : c.view.key = k <;> simp [kindsOf, hk]

/-- A watch that missed a change of an autoscaler, and for which another one of it is queued later,
lost the first one. -/
theorem Coherent.overrun_of_same_key {s : Store} (coherent : s.Coherent) {id : Nat} {scope : String}
    {feed : Feed} (shows : s.hub.Shows id scope feed)
    (fits : feed.unread.length ≤ s.hub.capacity) {m : Mutation} {c : Commit}
    (accepted : s.mutate m = .ok c) (missed : s.enqueued? id (.mutate m) = none)
    {later : List Action} {a : Action} {d : Change}
    (hlater : ((s.act (.mutate m)).run later).enqueued? id a = some d)
    (hkey : d.view.key = m.key) :
    s.hub.overflow = .dropNewest ∧ s.Overrun id scope s.hub.capacity m := by
  have hscope : covers scope c.change.view.ns = true := by
    obtain ⟨-, -, -, -, -, henqueues⟩ := enqueued?_eq_some_iff.mp hlater
    have hlast := ((coherent.act _).shows_run (coherent.shows_act shows (.mutate m)).1 later).1
    have hns : d.view.ns = c.change.view.ns :=
      congrArg Key.ns (hkey.trans (coherent.commits accepted).key.symm)
    exact hns ▸ (hlast.enqueues_iff.mp henqueues).1
  exact coherent.overrun_of_enqueued_later shows fits accepted hscope missed hlater

/-- What is queued of one autoscaler is queued by an action of the run. -/
theorem exists_of_kindsOf_ne_nil {s : Store} {id : Nat} {k : Key} {actions : List Action}
    (h : kindsOf k (s.enqueued id actions) ≠ []) :
    ∃ first a second c, actions = first ++ a :: second ∧
      (s.run first).enqueued? id a = some c ∧ c.view.key = k := by
  obtain ⟨c, hc⟩ := List.exists_mem_of_ne_nil _ (fun hnil => h (congrArg (List.map _) hnil))
  obtain ⟨hmem, hkey⟩ := List.mem_filter.mp hc
  obtain ⟨earlier, later, hsplit⟩ := List.append_of_mem hmem
  obtain ⟨first, m, second, -, rfl, -, -, -, -, hlast⟩ := exists_of_enqueued_eq hsplit
  exact ⟨first, .mutate m, second, c, rfl, hlast, of_decide_eq_true hkey⟩

/-- As long as no addition of an autoscaler is lost, what is queued of it for a watch begins with an
addition whenever it is not live. -/
theorem Coherent.addedFirst_enqueued {s : Store} (coherent : s.Coherent) {id : Nat} {scope : String}
    {feed : Feed} (shows : s.hub.Shows id scope feed)
    (fits : feed.unread.length ≤ s.hub.capacity) (k : Key) {actions : List Action}
    (kept : ∀ first m second, actions = first ++ .mutate m :: second → m.key = k →
      m.kind = .added → s.hub.overflow = .dropNewest →
      ¬ (s.run first).Overrun id scope s.hub.capacity m) :
    AddedFirst (s.stored? k).isSome (kindsOf k (s.enqueued id actions)) := by
  induction actions generalizing s feed with
  | nil => trivial
  | cons a rest ih =>
      have hact := coherent.act a
      have hshows := (coherent.shows_act shows a).1
      obtain ⟨hcapacity, hoverflow⟩ := coherent.act_hub a
      have later : AddedFirst ((s.act a).stored? k).isSome
          (kindsOf k ((s.act a).enqueued id rest)) := by
        refine ih hact hshows (hcapacity.symm ▸ Feed.length_unread_run_le _ fits _) ?_
        rintro first m second rfl hkey hkind hpolicy
        rw [hcapacity]
        exact kept (a :: first) m second rfl hkey hkind (hoverflow ▸ hpolicy)
      rw [enqueued_cons, kindsOf_append]
      cases h : s.accepted? a with
      | none =>
          have hnothing : s.enqueued? id a = none := by simp [enqueued?, h]
          have hsame : (s.act a).stored? k = s.stored? k := by
            rw [stored?, stored?, find?_act_of_not_accepted h]
          rw [hnothing]
          exact hsame ▸ later
      | some x =>
          obtain ⟨rfl, -, accepted, hstore⟩ := accepted?_eq_some h
          have commits := coherent.commits accepted
          by_cases hk : x.mutation.key = k
          · obtain ⟨hbefore, hafter⟩ := commits.isSome_stored?
            rw [hk] at hbefore hafter
            rw [hstore, hafter] at later
            rw [hbefore]
            cases henqueued : s.enqueued? id (.mutate x.mutation) with
            | some c =>
                obtain ⟨_, _, hm, accepted', rfl, -⟩ := enqueued?_eq_some_iff.mp henqueued
                cases hm
                cases accepted.symm.trans accepted'
                rw [Option.toList_some, kindsOf_singleton, if_pos (commits.key.trans hk),
                  commits.kind, hstore]
                exact ⟨ChangeKind.needsLive_eq_false_iff.mp, later⟩
            | none =>
                rw [Option.toList_none, show kindsOf k [] = [] from rfl, List.nil_append]
                by_cases hseen : kindsOf k ((s.act (.mutate x.mutation)).enqueued id rest) = []
                · rw [hseen]
                  trivial
                · -- one of the autoscaler is queued later, so this one was lost, and is no addition
                  obtain ⟨first, a, second, d, rfl, hd, hkey⟩ := exists_of_kindsOf_ne_nil hseen
                  obtain ⟨hpolicy, overrun⟩ :=
                    coherent.overrun_of_same_key shows fits accepted henqueued hd (hkey.trans hk.symm)
                  have hneeds : x.mutation.kind.needsLive = true := by
                    rw [← Bool.not_eq_false, ChangeKind.needsLive_eq_false_iff]
                    intro hadded
                    exact kept [] x.mutation _ rfl hk hadded hpolicy overrun
                  rw [hneeds, hstore]
                  exact later.of_live
          · have hsame : (s.act (.mutate x.mutation)).stored? k = s.stored? k := by
              rw [hstore, stored?, stored?, commits.elsewhere k (Ne.symm hk)]
            have hnothing : kindsOf k (s.enqueued? id (.mutate x.mutation)).toList = [] := by
              rw [enqueued?_mutate accepted]
              split
              · rw [kindsOf_singleton, if_neg (fun hkey => hk (commits.key.symm.trans hkey))]
              · rfl
            rw [hnothing]
            exact hsame ▸ later

section Watched

variable {s : Store} {id : Nat} {scope : String} (coherent : s.Coherent)
  (shows : s.hub.Shows id scope (.registered []))

include coherent shows

/-- The reader of a watch sees an addition first of every autoscaler that is not live, unless an
addition of it is lost. -/
theorem addedFirst_received (k : Key) {actions : List Action}
    (kept : ∀ first m second, actions = first ++ .mutate m :: second → m.key = k →
      m.kind = .added → s.hub.overflow = .dropNewest →
      ¬ (s.run first).Overrun id scope s.hub.capacity m) :
    AddedFirst (s.stored? k).isSome (kindsOf k (s.received id actions)) := by
  have henqueued := coherent.addedFirst_enqueued shows (Nat.zero_le _) k kept
  have hreceived := coherent.received_prefix_enqueued shows actions
  rw [shows.queued] at hreceived
  exact henqueued.of_initial ((hreceived.filter _).map _)

/-- An addition in the scope of a watch comes to the reader before every change of the same
autoscaler that is accepted after it and that the reader gets, unless the addition is lost. -/
theorem exists_earlier_or_lost {actions : List Action} {earlier later : List Change} {c : Change}
    (hreceived : s.received id actions = earlier ++ c :: later) :
    ∃ first m second commit, actions = first ++ .mutate m :: second ∧
      (s.run first).mutate m = .ok commit ∧ commit.change = c ∧
      ∀ first₁ m₁ between commit₁, first = first₁ ++ .mutate m₁ :: between →
        (s.run first₁).mutate m₁ = .ok commit₁ → m₁.key = m.key →
        (∃ rest, earlier = s.enqueued id first₁ ++ commit₁.change :: rest) ∨
          (s.hub.overflow = .dropNewest ∧
            (s.run first₁).Overrun id scope s.hub.capacity m₁) := by
  obtain ⟨rest, hrest⟩ := coherent.received_prefix_enqueued shows actions
  rw [shows.queued, hreceived] at hrest
  have henqueued : s.enqueued id actions = earlier ++ c :: (later ++ rest) := by
    simpa [Feed.unread] using hrest.symm
  obtain ⟨first, m, second, commit, rfl, accepted, rfl, hfirst, -, hlast⟩ :=
    exists_of_enqueued_eq henqueued
  refine ⟨first, m, second, commit, rfl, accepted, rfl, ?_⟩
  rintro first₁ m₁ between commit₁ rfl accepted₁ hkey
  have hact : (s.run first₁).act (.mutate m₁) = commit₁.store := by simp only [act, accepted₁]
  rw [enqueued_append, enqueued_cons] at hfirst
  cases hqueued : (s.run first₁).enqueued? id (.mutate m₁) with
  | some d =>
      obtain ⟨_, _, hm, accepted₀, rfl, -⟩ := enqueued?_eq_some_iff.mp hqueued
      cases hm
      cases accepted₁.symm.trans accepted₀
      rw [hqueued] at hfirst
      exact .inl ⟨_, hfirst.symm⟩
  | none =>
      right
      have hcap := (coherent.run_hub first₁).1
      have hshows := (coherent.shows_run shows first₁).1
      have fits := coherent.length_queued_le shows first₁
      rw [hshows.queued] at fits
      rw [run_append, run_cons] at accepted hlast
      have hsame := (((coherent.run first₁).act (.mutate m₁)).run between).commits accepted
      have overrun := (coherent.run first₁).overrun_of_same_key hshows (hcap.symm ▸ fits) accepted₁
        hqueued hlast (hsame.key.trans hkey.symm)
      rwa [hcap, (coherent.run_hub first₁).2] at overrun

end Watched

/-- **Additions before modifications.**  Of an autoscaler none of whose additions is lost, the
reader of a watch sees an addition first if it was not live when the watch was opened, and an
addition next after every deletion.  Nothing is lost by a watch that ends on overflow.

Every change that the reader gets comes after all changes of the same autoscaler that were accepted
before it and after the opening of the watch, the addition of what it modifies or deletes among
them.  Only a watch that loses what does not fit can have missed one, because it was overrun. -/
theorem added_before_modified (tuning : Tuning) (handled : Bool) (before after : List Action)
    (scope : String) {id : Nat} {s : Store}
    (opened : ((create tuning handled).run before).watch scope = .ok (id, s)) :
    let capacity := max tuning.watchQueueCapacity.toNat 1
    (∀ k,
      (∀ first m second, after = first ++ .mutate m :: second → m.key = k → m.kind = .added →
        tuning.watchOverflow = .dropNewest → ¬ (s.run first).Overrun id scope capacity m) →
      let seen := (s.received id after).filter fun c => c.view.key = k
      (¬ s.Live k → ∀ c rest, seen = c :: rest → c.kind = .added) ∧
        ∀ earlier d c rest, seen = earlier ++ d :: c :: rest → d.kind = .deleted →
          c.kind = .added) ∧
    ∀ earlier c later, s.received id after = earlier ++ c :: later →
      ∃ first m second commit, after = first ++ .mutate m :: second ∧
        (s.run first).mutate m = .ok commit ∧ commit.change = c ∧
        ∀ first₁ m₁ between commit₁, first = first₁ ++ .mutate m₁ :: between →
          (s.run first₁).mutate m₁ = .ok commit₁ → m₁.key = m.key →
          (∃ rest, earlier = s.enqueued id first₁ ++ commit₁.change :: rest) ∨
            (tuning.watchOverflow = .dropNewest ∧
              (s.run first₁).Overrun id scope capacity m₁) := by
  intro capacity
  have hstart : (create tuning handled).Coherent := coherent_create tuning handled
  obtain ⟨hact, hcapacity, hoverflow, shows⟩ := opened_watch opened
  have coherent : s.Coherent := hact ▸ (hstart.run before).act _
  have hcap : s.hub.capacity = capacity := hcapacity.trans (hstart.run_hub before).1
  have hover : s.hub.overflow = tuning.watchOverflow :=
    hoverflow.trans (hstart.run_hub before).2
  rw [← hcap, ← hover]
  refine ⟨?_, fun earlier c later h => exists_earlier_or_lost coherent shows h⟩
  intro k kept seen
  have turns : AddedFirst (s.stored? k).isSome (seen.map Change.kind) :=
    addedFirst_received coherent shows k kept
  refine ⟨?_, ?_⟩
  · intro hlive c rest hseen
    rw [hseen, not_live_iff.mp hlive] at turns
    exact turns.1 rfl
  · intro earlier d c rest hseen hdeleted
    rw [hseen, List.map_append, List.map_cons, List.map_cons, hdeleted] at turns
    exact turns.after_deleted

/-- A reader that reads in time sees a second addition after the deletion. -/
theorem added_before_modified_one_place :
    let declared : Autoscaler :=
      .declared ⟨"ns", "a", none, 1, [⟨"load", 1, none⟩], none, none⟩
    let shown (kind : ChangeKind) (n : UInt64) : Change :=
      ⟨kind, ({ declared with version := n } : Autoscaler).shown⟩
    let start := create ⟨1, .disconnect⟩ false
    let s := start.run [.watch "ns"]
    let after : List Action :=
      [.mutate (.add declared), .receive 1, .mutate (.delete declared.key), .receive 1,
        .mutate (.add declared), .receive 1]
    start.watch "ns" = .ok (1, s) ∧ ¬ s.Live declared.key ∧
      ∃ first last,
        (s.received 1 after).filter (fun c => c.view.key = declared.key) =
          [first, shown .deleted 2, last] ∧ first.kind = .added ∧ last.kind = .added := by
  intro declared shown start s after
  have opened : (start.run []).watch "ns" = .ok (1, s) := rfl
  have hlive : ¬ s.Live declared.key := not_live_iff.mpr rfl
  have hseen : (s.received 1 after).filter (fun c => c.view.key = declared.key) =
      [shown .added 1, shown .deleted 2, shown .added 3] := by cbv
  obtain ⟨hfirst, hnext⟩ :=
    (added_before_modified ⟨1, .disconnect⟩ false [] after "ns" opened).1 declared.key
      (fun _ _ _ _ _ _ hpolicy => absurd hpolicy (by decide))
  exact ⟨opened, hlive, _, _, hseen, hfirst hlive _ _ hseen, hnext [_] _ _ [] hseen rfl⟩

/-- A watch with one place loses the addition of a second autoscaler, and when its reader has read
the first change, a modification is the first that it sees of the second autoscaler. -/
theorem first_seen_is_modification :
    let spec (name : String) : Spec := ⟨"ns", name, none, 1, [⟨"load", 1, none⟩], none, none⟩
    let add (name : String) : Action := .mutate (.add (.declared (spec name)))
    let start := create ⟨1, .dropNewest⟩ false
    let s := start.run [.watch "ns"]
    let after := [add "a", add "b", .receive 1, .mutate (.updateSpec (spec "b")), .receive 1]
    start.watch "ns" = .ok (1, s) ∧ ¬ s.Live ⟨"ns", "b"⟩ ∧
      ((s.received 1 after).filter fun c => c.view.key = ⟨"ns", "b"⟩).map Change.kind =
        [.modified] := by
  intro spec add start s after
  exact ⟨rfl, not_live_iff.mpr rfl, by cbv⟩

end Store

end Autoscaling

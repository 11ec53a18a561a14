import Autoscaling.Proofs.Store.Records
import Mathlib

/-!
# Clients on keys of their own

Several clients share a store, and each of them keeps to keys that no other one uses.  Their calls
may be interleaved in any way that keeps the order of each client's own calls.
`Store.clients_undisturbed` says that a client cannot tell this from having the store for itself,
except by the versions: they count the calls of all.

The proof is a simulation of the shared store by the store that one client has alone.  The invariant
is `Store.SameContents` on the keys of the client.  A call of the client gets the same reply from
both (`Store.SameContents.reply`) and keeps it (`Store.SameContents.call`); a call of another client
is made on one side only and is about another key (`Store.Coherent.stored?_call_of_ne`).
-/

namespace Autoscaling

/-- A call that a client makes about one key. -/
inductive Call where
  | mutate (m : Mutation)
  | get (k : Key)
  | getView (k : Key)

/-- The key that a call is about. -/
def Call.key : Call → Key
  | mutate m => m.key
  | get k => k
  | getView k => k

/-- What a call returns. -/
inductive Reply where
  | done (outcome : Except StateError Unit)
  | autoscaler (outcome : Except StateError Autoscaler)
  | view (outcome : Except StateError View)

/-- An autoscaler up to its version. -/
def Autoscaler.unversioned (a : Autoscaler) : Autoscaler := { a with version := 0 }

/-- A view up to its version. -/
def View.unversioned (v : View) : View := { v with resourceVersion := 0 }

/-- A reply up to the versions in it. -/
def Reply.unversioned : Reply → Reply
  | done outcome => done outcome
  | autoscaler outcome => autoscaler (outcome.map Autoscaler.unversioned)
  | view outcome => view (outcome.map View.unversioned)

/-- The calls of one of several clients, in their order. -/
def callsOf {ι : Type} [DecidableEq ι] (i : ι) (steps : List (ι × Call)) : List Call :=
  steps.filterMap fun step => if step.1 = i then some step.2 else none

theorem callsOf_cons_self {ι : Type} [DecidableEq ι] (i : ι) (c : Call) (rest : List (ι × Call)) :
    callsOf i ((i, c) :: rest) = c :: callsOf i rest := by
  simp [callsOf]

theorem callsOf_cons_of_ne {ι : Type} [DecidableEq ι] {i j : ι} (hne : j ≠ i) (c : Call)
    (rest : List (ι × Call)) : callsOf i ((j, c) :: rest) = callsOf i rest := by
  simp [callsOf, hne]

theorem mem_callsOf {ι : Type} [DecidableEq ι] {step : ι × Call} {steps : List (ι × Call)}
    (h : step ∈ steps) : step.2 ∈ callsOf step.1 steps :=
  List.mem_filterMap.mpr ⟨step, h, if_pos rfl⟩

/-- The outcome of a mutation does not depend on versions. -/
theorem Mutation.outcome_congr {old new : Option Autoscaler}
    (h : new.map Autoscaler.content = old.map Autoscaler.content) (m : Mutation) :
    m.outcome new = m.outcome old := by
  cases old with
  | none =>
      cases new with
      | none => rfl
      | some a => exact nomatch h
  | some a =>
      cases new with
      | none => exact nomatch h
      | some b =>
          obtain ⟨hspec, hstatus⟩ := Prod.mk.inj (Option.some.inj h)
          cases m <;> simp only [outcome, hspec, hstatus]

namespace Store

/-! ## Calls -/

/-- The reply to a call. -/
def reply (s : Store) : Call → Reply
  | .mutate (.updateStatus sink v) =>
      .view ((s.updateStatus sink v).map fun c => c.change.view)
  | .mutate m => .done ((s.mutate m).map fun _ => ())
  | .get k => .autoscaler (s.get k)
  | .getView k => .view (s.getView k)

/-- The store after a call. -/
def call (s : Store) : Call → Store
  | .mutate m => s.act (.mutate m)
  | .get _ => s
  | .getView _ => s

/-- The store after several calls. -/
def callAll (s : Store) (calls : List Call) : Store := calls.foldl call s

/-- The replies to several calls. -/
def replies (s : Store) : List Call → List Reply
  | [] => []
  | c :: rest => s.reply c :: (s.call c).replies rest

/-- The replies that one of several clients gets. -/
def repliesTo {ι : Type} [DecidableEq ι] (i : ι) (s : Store) : List (ι × Call) → List Reply
  | [] => []
  | (j, c) :: rest =>
      (if j = i then [s.reply c] else []) ++ repliesTo i (s.call c) rest

theorem Coherent.call {s : Store} (coherent : s.Coherent) (c : Call) : (s.call c).Coherent := by
  cases c with
  | mutate m => exact coherent.act _
  | get k => exact coherent
  | getView k => exact coherent

theorem Coherent.callAll {s : Store} (coherent : s.Coherent) (calls : List Call) :
    (s.callAll calls).Coherent := by
  induction calls generalizing s with
  | nil => exact coherent
  | cons c rest ih => exact ih (coherent.call c)

/-- A call touches nothing under other keys. -/
theorem Coherent.stored?_call_of_ne {s : Store} (coherent : s.Coherent) {c : Call} {k : Key}
    (hk : k ≠ c.key) : (s.call c).stored? k = s.stored? k := by
  cases c with
  | mutate m => exact coherent.stored?_act_of_ne hk
  | get k₀ => rfl
  | getView k₀ => rfl

theorem Coherent.stored?_callAll_of_forall_ne {s : Store} (coherent : s.Coherent)
    {calls : List Call} {k : Key} (h : ∀ c ∈ calls, k ≠ c.key) :
    (s.callAll calls).stored? k = s.stored? k := by
  induction calls generalizing s with
  | nil => rfl
  | cons c rest ih =>
      obtain ⟨hc, hrest⟩ := List.forall_mem_cons.mp h
      exact (ih (coherent.call c) hrest).trans (coherent.stored?_call_of_ne hc)

/-! ## Stores that hold the same for a client -/

/-- The stores hold the same under some keys, up to versions. -/
def SameContents (keys : Set Key) (s t : Store) : Prop :=
  ∀ k ∈ keys, (t.stored? k).map Autoscaler.content = (s.stored? k).map Autoscaler.content

/-- The view that is answered is that of the autoscaler that is answered. -/
theorem Coherent.map_getView {s : Store} (coherent : s.Coherent) (k : Key) :
    (s.getView k).map View.unversioned =
      ((s.get k).map Autoscaler.unversioned).map Autoscaler.shown := by
  rw [getView, get]
  cases found : s.find? k with
  | none => rfl
  | some entry =>
      have hview := (Autoscaler.view_eq_ok_iff.mp (coherent k entry found).2).2
      simp only [hview]
      rfl

/-- The view that an accepted status is answered with is that of what is stored then. -/
theorem Commits.unversioned_view {s : Store} {m : Mutation} {c : Commit} (h : s.Commits m c)
    (hkind : m.kind ≠ .deleted) :
    some c.change.view.unversioned =
      ((c.store.stored? m.key).map Autoscaler.content).map fun content =>
        Autoscaler.shown ⟨content.1, content.2, 0⟩ := by
  obtain ⟨a, stored, -, hview, -⟩ := h.written hkind
  rw [stored?, stored, (Autoscaler.view_eq_ok_iff.mp hview).2]
  rfl

namespace SameContents

variable {keys : Set Key} {s t : Store}

theorem get (same : SameContents keys s t) {k : Key} (hk : k ∈ keys) :
    (t.get k).map Autoscaler.unversioned = (s.get k).map Autoscaler.unversioned := by
  have hunversioned (old : Option Autoscaler) : old.map Autoscaler.unversioned =
      (old.map Autoscaler.content).map fun content => ⟨content.1, content.2, 0⟩ := by
    rw [Option.map_map]
    rfl
  rw [map_get_eq, map_get_eq, hunversioned, hunversioned, same k hk]

/-- A mutation of a key under which the stores hold the same is refused by both, in the same words,
or accepted by both, and then they hold the same under the key again. -/
theorem mutate (same : SameContents keys s t) (hs : s.Coherent) (ht : t.Coherent) {m : Mutation}
    (hm : m.key ∈ keys) :
    (∃ e, s.mutate m = .error e ∧ t.mutate m = .error e) ∨
      ∃ c d, s.mutate m = .ok c ∧ t.mutate m = .ok d ∧ s.Commits m c ∧ t.Commits m d ∧
        (d.store.stored? m.key).map Autoscaler.content =
          (c.store.stored? m.key).map Autoscaler.content := by
  have houtcome := Mutation.outcome_congr (same m.key hm) m
  rcases hs.mutate_cases m with ⟨e, hs, hfails⟩ | ⟨c, hs, commits⟩
  · refine .inl ⟨e, hs, ht.mutate_eq_error_iff.mpr ?_⟩
    rw [houtcome, hfails]
  · rcases ht.mutate_cases m with ⟨e, ht, hfails⟩ | ⟨d, ht, commits₀⟩
    · rw [houtcome, commits.outcome] at hfails
      exact nomatch hfails
    · refine .inr ⟨c, d, hs, ht, commits, commits₀, ?_⟩
      rw [commits.outcome, commits₀.outcome] at houtcome
      exact Except.ok.inj houtcome

/-- A call about one of the keys gets the same reply from both stores, up to versions. -/
theorem reply (same : SameContents keys s t) (hs : s.Coherent) (ht : t.Coherent) {c : Call}
    (hc : c.key ∈ keys) : (t.reply c).unversioned = (s.reply c).unversioned := by
  cases c with
  | get k => exact congrArg Reply.autoscaler (same.get hc)
  | getView k =>
      have hk : k ∈ keys := hc
      refine congrArg Reply.view ?_
      rw [hs.map_getView, ht.map_getView, same.get hk]
  | mutate m =>
      have hboth := same.mutate hs ht hc
      cases m with
      | updateStatus sink v =>
          refine congrArg Reply.view ?_
          show ((t.mutate (.updateStatus sink v)).map fun c => c.change.view).map _ =
            ((s.mutate (.updateStatus sink v)).map fun c => c.change.view).map _
          rcases hboth with ⟨e, hs, ht⟩ | ⟨c, d, hs, ht, commits, commits₀, hcontent⟩
          · rw [hs, ht]
          · have hview := commits₀.unversioned_view nofun
            rw [hcontent, ← commits.unversioned_view nofun] at hview
            rw [hs, ht]
            exact congrArg Except.ok (Option.some.inj hview)
      | _ =>
          refine congrArg Reply.done ?_
          rcases hboth with ⟨e, hs, ht⟩ | ⟨c, d, hs, ht, -⟩
          · rw [hs, ht]
          · rw [hs, ht]
            rfl

/-- Stores that hold the same go on to do so when a call is made to both of them. -/
theorem call (same : SameContents keys s t) (hs : s.Coherent) (ht : t.Coherent) {c : Call}
    (hc : c.key ∈ keys) : SameContents keys (s.call c) (t.call c) := by
  intro k hk
  by_cases hkey : k = c.key
  · cases c with
    | get k₀ => exact same k hk
    | getView k₀ => exact same k hk
    | mutate m =>
        have hm : k = m.key := hkey
        subst hm
        rcases same.mutate hs ht hc with ⟨e, hs, ht⟩ | ⟨c, d, hs, ht, -, -, hcontent⟩
        · simp only [Store.call, act, hs, ht]
          exact same m.key hk
        · simp only [Store.call, act, hs, ht]
          exact hcontent
  · rw [hs.stored?_call_of_ne hkey, ht.stored?_call_of_ne hkey]
    exact same k hk

/-- Stores that hold the same go on to do so when a call about another key is made to one of
them. -/
theorem call_right (same : SameContents keys s t) (ht : t.Coherent) {c : Call}
    (hc : c.key ∉ keys) : SameContents keys s (t.call c) := by
  intro k hk
  have hkey : k ≠ c.key := fun h => hc (h ▸ hk)
  rw [ht.stored?_call_of_ne hkey]
  exact same k hk

/-- A run of many clients is for one of them the run of its own calls. -/
theorem callAll {ι : Type} [DecidableEq ι] {i : ι} (same : SameContents keys s t) (hs : s.Coherent)
    (ht : t.Coherent) {steps : List (ι × Call)}
    (own : ∀ step ∈ steps, step.1 = i → step.2.key ∈ keys)
    (others : ∀ step ∈ steps, step.1 ≠ i → step.2.key ∉ keys) :
    (t.repliesTo i steps).map Reply.unversioned =
        (s.replies (callsOf i steps)).map Reply.unversioned ∧
      SameContents keys (s.callAll (callsOf i steps)) (t.callAll (steps.map Prod.snd)) := by
  induction steps generalizing s t with
  | nil => exact ⟨rfl, same⟩
  | cons step rest ih =>
      obtain ⟨j, c⟩ := step
      obtain ⟨ownFirst, ownRest⟩ := List.forall_mem_cons.mp own
      obtain ⟨othersFirst, othersRest⟩ := List.forall_mem_cons.mp others
      by_cases hj : j = i
      · subst hj
        have hkey := ownFirst rfl
        obtain ⟨hreplies, hstore⟩ :=
          ih (same.call hs ht hkey) (hs.call c) (ht.call c) ownRest othersRest
        rw [callsOf_cons_self, repliesTo, if_pos rfl]
        refine ⟨?_, hstore⟩
        rw [List.singleton_append, List.map_cons, replies, List.map_cons, same.reply hs ht hkey,
          hreplies]
      · obtain ⟨hreplies, hstore⟩ :=
          ih (same.call_right ht (othersFirst hj)) hs (ht.call c) ownRest othersRest
        rw [callsOf_cons_of_ne hj, repliesTo, if_neg hj]
        exact ⟨hreplies, hstore⟩

theorem live_iff (same : SameContents keys s t) {k : Key} (hk : k ∈ keys) :
    t.Live k ↔ s.Live k := by
  have hsome := congrArg Option.isSome (same k hk)
  rw [Option.isSome_map, Option.isSome_map] at hsome
  rw [Store.live_iff, Store.live_iff, ← Option.isSome_iff_exists, ← Option.isSome_iff_exists, hsome]

end SameContents

/-- **Clients on keys of their own do not disturb each other.**  Let some clients share a store that
a run has reached, let each of them have keys that no other one has, and let it make calls about
these only.  However their calls are interleaved, in the order that each of them makes its own:

* each client gets the replies, up to versions, that it would get if it had made its calls alone;
* under each of its keys the store holds in the end, up to the version, what it would hold then;
* under a key that no client has it holds what it held in the beginning;
* it lists as many views, and has as many autoscalers, as there are keys live by this account. -/
theorem clients_undisturbed {ι : Type} [DecidableEq ι] (tuning : Tuning) (handled : Bool)
    (history : List Action) (keys : ι → Set Key) (calls : ι → List Call) (steps : List (ι × Call))
    (disjoint : ∀ i j, i ≠ j → Disjoint (keys i) (keys j))
    (own : ∀ i, ∀ c ∈ calls i, c.key ∈ keys i)
    (interleaved : ∀ i, callsOf i steps = calls i) :
    let s := (create tuning handled).run history
    let final := s.callAll (steps.map Prod.snd)
    (∀ i, (s.repliesTo i steps).map Reply.unversioned =
      (s.replies (calls i)).map Reply.unversioned) ∧
    (∀ i, ∀ k ∈ keys i, (final.get k).map Autoscaler.unversioned =
      ((s.callAll (calls i)).get k).map Autoscaler.unversioned) ∧
    (∀ k, (∀ i, k ∉ keys i) → final.get k = s.get k) ∧
    ∃ live : List Key, live.Nodup ∧
      (∀ k, k ∈ live ↔ (∃ i, k ∈ keys i ∧ (s.callAll (calls i)).Live k) ∨
        (∀ i, k ∉ keys i) ∧ s.Live k) ∧
      (final.list everyNamespace).length = live.length ∧ final.size = live.length := by
  intro s final
  have coherent : s.Coherent := coherent_run tuning handled history
  have coherentFinal : final.Coherent := coherent.callAll _
  have hown (step : ι × Call) (hstep : step ∈ steps) : step.2.key ∈ keys step.1 :=
    own step.1 step.2 (interleaved step.1 ▸ mem_callsOf hstep)
  -- to each client the shared store looks like the one that it has alone
  have halone (i : ι) : (s.repliesTo i steps).map Reply.unversioned =
        (s.replies (calls i)).map Reply.unversioned ∧
      SameContents (keys i) (s.callAll (calls i)) final := by
    have same : SameContents (keys i) s s := fun _ _ => rfl
    rw [← interleaved i]
    refine same.callAll coherent coherent (fun step hstep hi => hi ▸ hown step hstep) ?_
    intro step hstep hi hmem
    exact Set.disjoint_left.mp (disjoint _ _ hi) (hown step hstep) hmem
  have hunowned (k : Key) (hk : ∀ i, k ∉ keys i) : final.stored? k = s.stored? k := by
    refine coherent.stored?_callAll_of_forall_ne fun c hc heq => ?_
    obtain ⟨step, hstep, rfl⟩ := List.mem_map.mp hc
    exact hk step.1 (heq ▸ hown step hstep)
  have hlive (k : Key) : final.Live k ↔
      (∃ i, k ∈ keys i ∧ (s.callAll (calls i)).Live k) ∨ (∀ i, k ∉ keys i) ∧ s.Live k := by
    by_cases howned : ∃ i, k ∈ keys i
    · obtain ⟨i, hi⟩ := howned
      rw [(halone i).2.live_iff hi]
      constructor
      · exact fun live => .inl ⟨i, hi, live⟩
      · rintro (⟨j, hj, live⟩ | ⟨hnone, -⟩)
        · rwa [← (halone i).2.live_iff hi, (halone j).2.live_iff hj]
        · exact absurd hi (hnone i)
    · have hnone : ∀ i, k ∉ keys i := not_exists.mp howned
      rw [live_iff, hunowned k hnone, ← live_iff]
      constructor
      · exact fun live => .inr ⟨hnone, live⟩
      · rintro (⟨i, hi, -⟩ | ⟨-, live⟩)
        · exact absurd hi (hnone i)
        · exact live
  refine ⟨fun i => (halone i).1, fun i k hk => (halone i).2.get hk, fun k hk => ?_,
    final.records.keys, nodup_keys_records final, fun k => mem_keys_records_iff.trans (hlive k),
    ?_, ?_⟩
  · rw [get_eq, get_eq, hunowned k hk]
  · rw [list_everyNamespace coherentFinal]
    simp [OrderedMap.keys, OrderedMap.values]
  · rw [size_eq, OrderedMap.keys, List.length_map]
    rfl

/-- Two clients in one namespace, one of which deletes its autoscaler while the other one adds
another. -/
theorem clients_undisturbed_two :
    let spec (name : String) : Spec := ⟨"a", name, none, 1, [⟨"load", 1, none⟩], none, none⟩
    let add (name : String) : Mutation := .add (.declared (spec name))
    let keys (i : Bool) : Set Key := {⟨"a", if i then "x" else "y"⟩}
    let calls (i : Bool) : List Call :=
      if i then [.mutate (.delete ⟨"a", "x"⟩), .get ⟨"a", "x"⟩] else [.mutate (add "y")]
    let steps : List (Bool × Call) :=
      [(true, .mutate (.delete ⟨"a", "x"⟩)), (false, .mutate (add "y")), (true, .get ⟨"a", "x"⟩)]
    let s := (create ⟨1, .disconnect⟩ false).run [.mutate (add "x")]
    (∀ i j, i ≠ j → Disjoint (keys i) (keys j)) ∧ (∀ i, ∀ c ∈ calls i, c.key ∈ keys i) ∧
      (∀ i, callsOf i steps = calls i) ∧
      ∀ i, (s.repliesTo i steps).map Reply.unversioned =
        (s.replies (calls i)).map Reply.unversioned := by
  intro spec add keys calls steps s
  have disjoint : ∀ i j, i ≠ j → Disjoint (keys i) (keys j) := by
    intro i j hne
    rw [Set.disjoint_singleton]
    revert i j
    decide
  have own : ∀ i, ∀ c ∈ calls i, c.key ∈ keys i := by
    rintro (_ | _) <;>
      simp [calls, keys, add, spec, Call.key, Mutation.key, Autoscaler.declared, Autoscaler.key,
        Spec.key]
  have interleaved : ∀ i, callsOf i steps = calls i := by
    rintro (_ | _) <;> rfl
  exact ⟨disjoint, own, interleaved,
    (clients_undisturbed ⟨1, .disconnect⟩ false _ keys calls steps disjoint own interleaved).1⟩

end Store

end Autoscaling

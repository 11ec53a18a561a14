import Autoscaling.Proofs.Store.Run
import Mathlib.Tactic.Common

/-!
# The last writer

What a store holds after a run can be told from the log of the run alone: `Store.last_writer` reads
it off the latest mutation of a key that settles it.  A specification and a status are settled by
the mutations that give them and by deletions, so that nothing from before a deletion returns.

`Store.Recounts` is the invariant of the run, key by key.
-/

namespace Autoscaling

namespace Mutation

/-- The specification that a mutation gives. -/
def spec? : Mutation → Option Spec
  | add a => some a.spec
  | update a => some a.spec
  | updateSpec spec => some spec
  | delete _ => none
  | updateStatus _ _ => none

/-- The status that a mutation gives. -/
def status? : Mutation → Option Status
  | add a => some a.status
  | update a => some a.status
  | updateSpec _ => none
  | delete _ => none
  | updateStatus _ v => v.status.toStatus.toOption

/-- Whether a mutation decides if its key is live: it adds or deletes. -/
def settlesLife (m : Mutation) : Bool := m.kind != .modified

/-- Whether a mutation gives a specification or takes it away. -/
def settlesSpec (m : Mutation) : Bool := m.spec?.isSome || m.kind == .deleted

/-- Whether a mutation gives a status or takes it away. -/
def settlesStatus (m : Mutation) : Bool := m.status?.isSome || m.kind == .deleted

/-- The latest mutation of a key that counts, with its number.  Numbers start from one. -/
def latest? (k : Key) (counts : Mutation → Bool) (log : List Mutation) : Option (Mutation × Nat) :=
  (log.zipIdx 1).reverse.find? fun e => decide (e.1.key = k) && counts e.1

theorem latest?_concat (k : Key) (counts : Mutation → Bool) (log : List Mutation) (m : Mutation) :
    latest? k counts (log ++ [m]) =
      if m.key = k ∧ counts m = true then some (m, log.length + 1) else latest? k counts log := by
  rw [latest?, latest?, List.zipIdx_append, List.reverse_append]
  by_cases hkey : m.key = k <;> cases hcounts : counts m <;>
    simp [hkey, hcounts, Nat.add_comm]

theorem latest?_concat_self {counts : Mutation → Bool} {m : Mutation} (hcounts : counts m = true)
    (log : List Mutation) : latest? m.key counts (log ++ [m]) = some (m, log.length + 1) := by
  rw [latest?_concat, if_pos ⟨rfl, hcounts⟩]

theorem latest?_concat_of_not_counts {counts : Mutation → Bool} {m : Mutation}
    (hcounts : counts m = false) (k : Key) (log : List Mutation) :
    latest? k counts (log ++ [m]) = latest? k counts log := by
  rw [latest?_concat, if_neg (by simp [hcounts])]

theorem latest?_concat_of_ne {k : Key} {m : Mutation} (hkey : k ≠ m.key) (counts : Mutation → Bool)
    (log : List Mutation) : latest? k counts (log ++ [m]) = latest? k counts log := by
  rw [latest?_concat, if_neg fun h => hkey h.1.symm]

/-- What a mutation leaves it has given or found. -/
theorem of_outcome_eq_some {old : Option Autoscaler} {m : Mutation} {spec : Spec} {status : Status}
    (h : m.outcome old = .ok (some (spec, status))) :
    (m.kind = .added ∧ m.spec? = some spec ∧ m.status? = some status) ∨
      (m.kind = .modified ∧ ∃ b, old = some b ∧ m.spec?.getD b.spec = spec ∧
        m.status?.getD b.status = status) := by
  cases m with
  | add a =>
      cases old with
      | some b => exact nomatch h
      | none =>
          obtain ⟨-, ⟨⟩⟩ := Spec.checked_eq_ok_iff.mp h
          exact .inl ⟨rfl, rfl, rfl⟩
  | update a =>
      cases old with
      | none => exact nomatch h
      | some b =>
          obtain ⟨-, ⟨⟩⟩ := Spec.checked_eq_ok_iff.mp h
          exact .inr ⟨rfl, b, rfl, rfl, rfl⟩
  | updateSpec spec₀ =>
      cases old with
      | none => exact nomatch h
      | some b =>
          obtain ⟨-, ⟨⟩⟩ := Spec.checked_eq_ok_iff.mp h
          exact .inr ⟨rfl, b, rfl, rfl, rfl⟩
  | delete k => cases old <;> exact nomatch h
  | updateStatus sink v =>
      simp only [outcome] at h
      split_ifs at h with hns
      cases hstatus : v.status.toStatus with
      | error e => simp [hstatus] at h
      | ok status₀ =>
          cases old with
          | none => simp [hstatus] at h
          | some b =>
              simp only [hstatus, Except.ok.injEq, Option.some.injEq, Prod.mk.injEq] at h
              refine .inr ⟨rfl, b, rfl, h.1, ?_⟩
              simp [status?, hstatus, h.2, Except.toOption]

/-- Only a deletion leaves nothing. -/
theorem of_outcome_eq_none {old : Option Autoscaler} {m : Mutation}
    (h : m.outcome old = .ok none) : m.kind = .deleted := by
  have hchecked (spec : Spec) (status : Status) : spec.checked status ≠ .ok none := by
    intro hnone
    exact nomatch (Spec.checked_eq_ok_iff.mp hnone).2
  cases m with
  | add a =>
      cases old with
      | some b => exact nomatch h
      | none => exact absurd h (hchecked _ _)
  | update a =>
      cases old with
      | none => exact nomatch h
      | some b => exact absurd h (hchecked _ _)
  | updateSpec spec =>
      cases old with
      | none => exact nomatch h
      | some b => exact absurd h (hchecked _ _)
  | delete k => rfl
  | updateStatus sink v =>
      simp only [outcome] at h
      split_ifs at h with hns
      cases hstatus : v.status.toStatus <;> cases old <;> simp [hstatus] at h

end Mutation

namespace Store

open Mutation (latest? settlesLife settlesSpec settlesStatus)

/-- What a log tells of a key. -/
structure Recounts (s : Store) (log : List Mutation) (k : Key) : Prop where
  live : (∃ a, s.stored? k = some a) ↔
    ∃ m n, latest? k settlesLife log = some (m, n) ∧ m.kind = .added
  spec : ∀ a, s.stored? k = some a →
    ∃ m n, latest? k settlesSpec log = some (m, n) ∧ m.spec? = some a.spec
  status : ∀ a, s.stored? k = some a →
    ∃ m n, latest? k settlesStatus log = some (m, n) ∧ m.status? = some a.status
  version : ∀ a, s.stored? k = some a →
    ∃ m n, latest? k (fun _ => true) log = some (m, n) ∧ a.version = UInt64.ofNat n

theorem Commits.version_stored {s : Store} {m : Mutation} {c : Commit} (h : s.Commits m c)
    {a : Autoscaler} (stored : c.store.stored? m.key = some a) : a.version = s.version + 1 := by
  obtain ⟨entry, found, rfl⟩ := Option.map_eq_some_iff.mp stored
  by_cases hkind : m.kind = .deleted
  · rw [(h.deleted hkind).1] at found
    exact nomatch found
  · obtain ⟨a, written, -, -, hversion⟩ := h.written hkind
    rw [written] at found
    cases Option.some.inj found
    exact hversion

/-- The log with a mutation tells of its key what the mutation leaves there. -/
theorem Commits.recounts_self {s : Store} {m : Mutation} {c : Commit} (h : s.Commits m c)
    {log : List Mutation} (hn : s.version = UInt64.ofNat log.length)
    (before : s.Recounts log m.key) : c.store.Recounts (log ++ [m]) m.key := by
  have outcome := h.outcome
  have version (a : Autoscaler) (ha : c.store.stored? m.key = some a) :
      ∃ m₀ n, latest? m.key (fun _ => true) (log ++ [m]) = some (m₀, n) ∧
        a.version = UInt64.ofNat n := by
    refine ⟨m, _, Mutation.latest?_concat_self rfl log, ?_⟩
    rw [h.version_stored ha, hn, UInt64.ofNat_add]
    rfl
  cases hstored : c.store.stored? m.key with
  | none =>
      rw [hstored] at outcome
      have hkind := Mutation.of_outcome_eq_none outcome
      have hlife : settlesLife m = true := by simp [settlesLife, hkind]
      -- the mutation deletes, so it is the latest that settles life, and it is no addition
      refine ⟨?_, by simp [hstored], by simp [hstored], version⟩
      rw [hstored, Mutation.latest?_concat_self hlife]
      constructor
      · rintro ⟨a, ha⟩
        exact nomatch ha
      · rintro ⟨_, _, hm, hadded⟩
        cases hm
        exact absurd (hkind.symm.trans hadded) nofun
  | some a =>
      rw [hstored] at outcome
      rcases Mutation.of_outcome_eq_some outcome with
        ⟨hkind, hspec, hstatus⟩ | ⟨hkind, b, hb, hspec, hstatus⟩
      -- an addition gives both
      · have hlife : settlesLife m = true := by simp [settlesLife, hkind]
        refine ⟨?_, ?_, ?_, version⟩
        · exact ⟨fun _ => ⟨m, _, Mutation.latest?_concat_self hlife log, hkind⟩,
            fun _ => ⟨a, hstored⟩⟩
        · rw [hstored]
          rintro _ ⟨⟩
          have hsettles : settlesSpec m = true := by simp [settlesSpec, hspec]
          exact ⟨m, _, Mutation.latest?_concat_self hsettles log, hspec⟩
        · rw [hstored]
          rintro _ ⟨⟩
          have hsettles : settlesStatus m = true := by simp [settlesStatus, hstatus]
          exact ⟨m, _, Mutation.latest?_concat_self hsettles log, hstatus⟩
      -- a modification gives what it gives and passes the rest on from what it found
      · have hlife : settlesLife m = false := by simp [settlesLife, hkind]
        refine ⟨?_, ?_, ?_, version⟩
        · rw [Mutation.latest?_concat_of_not_counts hlife]
          exact ⟨fun _ => before.live.mp ⟨b, hb⟩, fun _ => ⟨a, hstored⟩⟩
        · rw [hstored]
          rintro _ ⟨⟩
          cases hgiven : m.spec? with
          | some spec =>
              have hsettles : settlesSpec m = true := by simp [settlesSpec, hgiven]
              rw [hgiven] at hspec
              exact ⟨m, _, Mutation.latest?_concat_self hsettles log,
                hgiven.trans (congrArg some hspec)⟩
          | none =>
              have hpasses : settlesSpec m = false := by simp [settlesSpec, hgiven, hkind]
              have hsame : b.spec = a.spec := by simpa [hgiven] using hspec
              rw [Mutation.latest?_concat_of_not_counts hpasses, ← hsame]
              exact before.spec b hb
        · rw [hstored]
          rintro _ ⟨⟩
          cases hgiven : m.status? with
          | some status =>
              have hsettles : settlesStatus m = true := by simp [settlesStatus, hgiven]
              rw [hgiven] at hstatus
              exact ⟨m, _, Mutation.latest?_concat_self hsettles log,
                hgiven.trans (congrArg some hstatus)⟩
          | none =>
              have hpasses : settlesStatus m = false := by simp [settlesStatus, hgiven, hkind]
              have hsame : b.status = a.status := by simpa [hgiven] using hstatus
              rw [Mutation.latest?_concat_of_not_counts hpasses, ← hsame]
              exact before.status b hb

/-- The log with a mutation tells the same of other keys, and the mutation leaves them as they
were. -/
theorem Commits.recounts {s : Store} {m : Mutation} {c : Commit} (h : s.Commits m c)
    {log : List Mutation} (hn : s.version = UInt64.ofNat log.length) {k : Key}
    (before : s.Recounts log k) : c.store.Recounts (log ++ [m]) k := by
  by_cases hk : k = m.key
  · subst hk
    exact h.recounts_self hn before
  · have hstored : c.store.stored? k = s.stored? k := by rw [stored?, stored?, h.elsewhere k hk]
    have hlatest (counts : Mutation → Bool) :
        latest? k counts (log ++ [m]) = latest? k counts log :=
      Mutation.latest?_concat_of_ne hk counts log
    constructor
    · rw [hstored, hlatest]
      exact before.live
    · rw [hstored, hlatest]
      exact before.spec
    · rw [hstored, hlatest]
      exact before.status
    · rw [hstored, hlatest]
      exact before.version

/-- The log of a run, added to the log of what was before, tells of every key what is there. -/
theorem Coherent.recounts_run {s : Store} (coherent : s.Coherent) {log : List Mutation}
    (hn : s.version = UInt64.ofNat log.length) {k : Key} (before : s.Recounts log k)
    (actions : List Action) :
    (s.run actions).Recounts (log ++ (s.log actions).map Accepted.mutation) k := by
  induction actions generalizing s log with
  | nil => simpa [Store.log, collect] using before
  | cons a rest ih =>
      cases h : s.accepted? a with
      | none =>
          have hlog := log_cons_of_not_accepted h rest
          have hversion := (act_of_not_accepted h).2
          have hstored : (s.act a).stored? k = s.stored? k := by
            rw [stored?, stored?, find?_act_of_not_accepted h]
          rw [hlog]
          refine ih (coherent.act a) (hversion.trans hn) ?_
          constructor
          · exact hstored ▸ before.live
          · exact hstored ▸ before.spec
          · exact hstored ▸ before.status
          · exact hstored ▸ before.version
      | some x =>
          have hlog := log_cons_of_accepted h rest
          obtain ⟨-, -, accepted, hact⟩ := accepted?_eq_some h
          have commits := coherent.commits accepted
          have hnext : (s.act a).version = UInt64.ofNat (log ++ [x.mutation]).length := by
            rw [hact, commits.version, hn, List.length_append, UInt64.ofNat_add]
            rfl
          have later := ih (coherent.act a) hnext (hact ▸ commits.recounts hn before)
          rw [hlog]
          simpa using later

/-- **The last writer wins.**  After a run of a store that was empty, the version is the number of
accepted mutations.  A key is live when the latest addition or deletion of it is an addition.  Then
its specification is the one that the latest mutation of the key gave that gives one, so is its
status, and its version is the number of the latest mutation of the key.  Deletions count as
mutations that give nothing, so what is found was given after the last of them. -/
theorem last_writer (tuning : Tuning) (handled : Bool) (actions : List Action) :
    let start := create tuning handled
    let s := start.run actions
    let log := (start.log actions).map Accepted.mutation
    s.version = UInt64.ofNat log.length ∧
      ∀ k, (s.Live k ↔ ∃ m n, latest? k settlesLife log = some (m, n) ∧ m.kind = .added) ∧
        ∀ a, s.get k = .ok a →
          (∃ m n, latest? k settlesSpec log = some (m, n) ∧ m.spec? = some a.spec) ∧
          (∃ m n, latest? k settlesStatus log = some (m, n) ∧ m.status? = some a.status) ∧
          ∃ m n, latest? k (fun _ => true) log = some (m, n) ∧ a.version = UInt64.ofNat n := by
  intro start s log
  have hstart : start.Coherent := coherent_create tuning handled
  have hversion : s.version = UInt64.ofNat log.length := by
    have h := hstart.version_run actions
    rw [show start.version = 0 from rfl, UInt64.zero_add] at h
    rwa [List.length_map]
  refine ⟨hversion, fun k => ?_⟩
  have empty : start.Recounts [] k := by
    constructor
    · constructor
      · rintro ⟨a, ha⟩
        exact nomatch ha
      · rintro ⟨m, n, hm, -⟩
        exact nomatch hm
    · exact fun a ha => nomatch ha
    · exact fun a ha => nomatch ha
    · exact fun a ha => nomatch ha
  have recounts := hstart.recounts_run rfl empty actions
  rw [List.nil_append] at recounts
  simp only [live_iff, ← stored?_eq_some_iff]
  exact ⟨recounts.live, fun a ha => ⟨recounts.spec a ha, recounts.status a ha,
    recounts.version a ha⟩⟩

end Store

end Autoscaling

import Autoscaling.Proofs.Store.LastWriter
import Autoscaling.Proofs.Store.Table
import Mathlib.Tactic.Common

/-!
# How a store keeps its autoscalers

Beside every autoscaler a store keeps its view, in a map of maps, so there are states of the type
that no store should be in: an entry that is filed in the wrong place, a namespace that holds
nothing, a view that is out of date.  `Store.representation` says that no run reaches one of them,
and that every view that is handed out is therefore the view of what is stored.

Two invariants carry it.  `Store.Coherent` speaks of the entries and is kept by every action;
`Store.Occupied` speaks of the namespaces and is kept because `Store.remove` takes a namespace away
with its last entry.  That no two autoscalers have the same version is not an invariant of the
store alone: the log of the run tells under which number each of them was written last, and a
number of a log belongs to one key.
-/

namespace Autoscaling

namespace Mutation

/-- The latest mutation of a key stands in the log at the position that its number tells. -/
theorem getElem?_of_latest? {k : Key} {counts : Mutation → Bool} {log : List Mutation}
    {m : Mutation} {n : Nat} (h : latest? k counts log = some (m, n)) :
    m.key = k ∧ 1 ≤ n ∧ log[n - 1]? = some m := by
  have hmem : (m, n) ∈ log.zipIdx 1 := List.mem_reverse.mp (List.mem_of_find?_eq_some h)
  obtain ⟨hle, hget⟩ := List.mk_mem_zipIdx_iff_le_and_getElem?_sub.mp hmem
  have hkey := List.find?_some h
  simp only [Bool.and_eq_true, decide_eq_true_eq] at hkey
  exact ⟨hkey.1, hle, hget⟩

/-- The number of the latest mutation of a key, and zero if there is none. -/
def number (log : List Mutation) (k : Key) : Nat :=
  match latest? k (fun _ => true) log with
  | some (_, n) => n
  | none => 0

end Mutation

namespace Store

/-! ## Namespaces -/

/-- Every namespace that is kept has an entry. -/
def Occupied (s : Store) : Prop :=
  ∀ ns named, s.entries.find? ns = some named → named.isEmpty = false

theorem occupied_file {s : Store} (occupied : s.Occupied) (k : Key) (entry : Entry) :
    (s.file k entry).Occupied := by
  intro ns named found
  rw [file, OrderedMap.find?_insert] at found
  by_cases hns : ns = k.ns
  · rw [if_pos hns] at found
    cases found
    -- the entry that was just filed is found
    rw [Bool.eq_false_iff]
    intro hempty
    have hnone := OrderedMap.isEmpty_iff.mp hempty k.name
    rw [OrderedMap.find?_insert, if_pos rfl] at hnone
    cases hnone
  · rw [if_neg hns] at found
    exact occupied ns named found

theorem occupied_remove {s : Store} (occupied : s.Occupied) (k : Key) : (s.remove k).Occupied := by
  intro ns named found
  unfold remove at found
  cases hnamed : s.entries.find? k.ns with
  | none =>
      rw [hnamed] at found
      exact occupied ns named found
  | some rest =>
      simp only [hnamed] at found
      by_cases hempty : (rest.erase k.name).isEmpty = true
      · rw [if_pos hempty, OrderedMap.find?_erase] at found
        split_ifs at found with hns
        exact occupied ns named found
      · rw [if_neg hempty, OrderedMap.find?_insert] at found
        split_ifs at found with hns
        · cases found
          exact Bool.eq_false_iff.mpr hempty
        · exact occupied ns named found

theorem Occupied.act {s : Store} (occupied : s.Occupied) (a : Action) : (s.act a).Occupied := by
  cases h : s.accepted? a with
  | none =>
      rw [Occupied, (act_of_not_accepted h).1]
      exact occupied
  | some x =>
      obtain ⟨-, -, accepted, hact⟩ := accepted?_eq_some h
      rw [hact, Occupied]
      rcases entries_of_mutate accepted with ⟨k, entry, hentries⟩ | ⟨k, hentries⟩
      · rw [hentries]
        exact occupied_file occupied k entry
      · rw [hentries]
        exact occupied_remove occupied k

theorem Occupied.run {s : Store} (occupied : s.Occupied) (actions : List Action) :
    (s.run actions).Occupied := by
  induction actions generalizing s with
  | nil => exact occupied
  | cons a rest ih => exact ih (occupied.act a)

theorem occupied_create (tuning : Tuning) (handled : Bool) : (create tuning handled).Occupied := by
  intro ns named found
  exact nomatch found

/-! ## Versions -/

/-- What a log tells of two live keys was written under different numbers. -/
theorem Recounts.number_injective {s : Store} {log : List Mutation} {k k₀ : Key}
    (recounts : s.Recounts log k) (recounts₀ : s.Recounts log k₀) (live : s.Live k)
    (live₀ : s.Live k₀) (h : Mutation.number log k = Mutation.number log k₀) : k = k₀ := by
  obtain ⟨a, stored⟩ := live_iff.mp live
  obtain ⟨a₀, stored₀⟩ := live_iff.mp live₀
  obtain ⟨m, n, hlatest, -⟩ := recounts.version a stored
  obtain ⟨m₀, n₀, hlatest₀, -⟩ := recounts₀.version a₀ stored₀
  have hnumber : n = n₀ := by simpa only [Mutation.number, hlatest, hlatest₀] using h
  obtain ⟨hkey, -, hget⟩ := Mutation.getElem?_of_latest? hlatest
  obtain ⟨hkey₀, -, hget₀⟩ := Mutation.getElem?_of_latest? hlatest₀
  -- the mutations stand at the same position, so they are one mutation, which has one key
  rw [hnumber, hget₀] at hget
  rw [← hkey, ← hkey₀, Option.some.inj hget]

/-- A live key has the number of its latest mutation as its version. -/
theorem Recounts.version_eq_number {s : Store} {log : List Mutation} {k : Key} {a : Autoscaler}
    (recounts : s.Recounts log k) (stored : s.stored? k = some a) :
    1 ≤ Mutation.number log k ∧ Mutation.number log k ≤ log.length ∧
      a.version = UInt64.ofNat (Mutation.number log k) := by
  obtain ⟨m, n, hlatest, hversion⟩ := recounts.version a stored
  obtain ⟨-, hle, hget⟩ := Mutation.getElem?_of_latest? hlatest
  have hlt : n - 1 < log.length := (List.getElem?_eq_some_iff.mp hget).1
  have hnumber : Mutation.number log k = n := by simp only [Mutation.number, hlatest]
  rw [hnumber]
  exact ⟨hle, by omega, hversion⟩

/-- The log of a run from an empty store tells of every key what is there. -/
theorem recounts_create (tuning : Tuning) (handled : Bool) (history : List Action) (k : Key) :
    ((create tuning handled).run history).Recounts
      (((create tuning handled).log history).map Accepted.mutation) k := by
  have nothing : (create tuning handled).stored? k = none := rfl
  have before : (create tuning handled).Recounts [] k := by
    constructor <;> simp [nothing, Mutation.latest?]
  simpa using (coherent_create tuning handled).recounts_run rfl before history

/-! ## Views that are handed out -/

section Coherent

variable {s : Store} (coherent : s.Coherent)

include coherent

theorem entriesIn_eq_filter (scope : String) :
    s.entriesIn scope =
      (s.entriesIn everyNamespace).filter fun entry => covers scope entry.autoscaler.spec.ns := by
  rw [entriesIn_eq, entriesIn_eq]
  show List.map Prod.snd (List.filter _ s.table.entries) =
    List.filter _ (List.map Prod.snd (List.filter _ s.table.entries))
  have hall : s.table.entries.filter (fun e => covers everyNamespace e.1.ns) = s.table.entries :=
    List.filter_eq_self.mpr fun _ _ => rfl
  rw [hall, List.filter_map]
  refine congrArg _ (List.filter_congr fun e he => ?_)
  have found := OrderedMap.mem_entries_iff.mp he
  rw [find?_table] at found
  have hkey := (coherent e.1 e.2 found).1
  show covers scope e.1.ns = covers scope e.2.autoscaler.key.ns
  rw [hkey]

/-- What a store lists in a scope are the views of the autoscalers in it. -/
theorem list_eq_views (scope : String) :
    (s.list scope).map Except.ok =
      (s.autoscalers.filter fun a => covers scope a.spec.ns).map Autoscaler.view := by
  rw [list, entriesIn_eq_filter coherent, autoscalers, List.filter_map, List.map_map, List.map_map]
  refine List.map_congr_left fun entry hentry => ?_
  have hmem := (List.mem_filter.mp hentry).1
  rw [entriesIn_eq, OrderedMap.mem_values_iff] at hmem
  obtain ⟨k, found⟩ := hmem
  have hall : covers everyNamespace k.ns = true := rfl
  rw [find?_tableIn, if_pos hall] at found
  exact (coherent k entry found).2.symm

/-- A listed view is that of an autoscaler that is stored. -/
theorem exists_of_mem_list {scope : String} {v : View} (listed : v ∈ s.list scope) :
    ∃ a, s.get v.key = .ok a ∧ v = a.shown := by
  rw [list_eq, OrderedMap.mem_values_iff] at listed
  obtain ⟨k, hk⟩ := listed
  rw [find?_viewsIn] at hk
  split_ifs at hk
  obtain ⟨entry, found, rfl⟩ := Option.map_eq_some_iff.mp hk
  obtain ⟨hkey, hview⟩ := coherent k entry found
  have hshown := (Autoscaler.view_eq_ok_iff.mp hview).2
  have hviewKey : entry.view.key = k := by rw [hshown, Autoscaler.key_shown, hkey]
  exact ⟨entry.autoscaler, get_eq_ok_iff.mpr ⟨entry, hviewKey ▸ found, rfl⟩, hshown⟩

theorem getView_eq (k : Key) : s.getView k = (s.get k).bind Autoscaler.view := by
  rw [getView, get]
  cases found : s.find? k with
  | none => rfl
  | some entry => exact (coherent k entry found).2.symm

/-- The view that a written status is answered with is the view of what is stored. -/
theorem updateStatus_view {sink : String} {v : View} {c : Commit}
    (h : s.updateStatus sink v = .ok c) :
    ∃ a, c.store.get ⟨sink, v.name⟩ = .ok a ∧ a.view = .ok c.change.view := by
  have commits : s.Commits (.updateStatus sink v) c := coherent.commits h
  obtain ⟨a, found, -, hview, -⟩ := commits.written nofun
  exact ⟨a, get_eq_ok_iff.mpr ⟨_, found, rfl⟩, hview⟩

end Coherent

theorem list_of_listAndWatch {s s' : Store} {scope : String} {views : List View} {version : UInt64}
    {id : Nat} (h : s.listAndWatch scope = .ok (views, version, id, s')) :
    views = s.list scope ∧ s'.entries = s.entries := by
  obtain ⟨⟨id₀, s₀⟩, hwatch, h⟩ := bind_eq_ok_iff.mp h
  cases h
  refine ⟨rfl, ?_⟩
  unfold watch at hwatch
  split_ifs at hwatch
  cases hwatch
  rfl

/-- **The representation of a store.**  In every store that a run reaches, no namespace is kept
without an entry, every entry is filed under the namespace and the name of its autoscaler, which has
a name, a namespace and a metric, and beside it stands the view of that autoscaler.  Live keys have
the numbers of their latest mutations as their versions, which are different numbers, so as long as
the numbers fit into a version no two live keys share one.

What a store lists, alone or with a watch, what it answers to a request for a view and to a written
status are therefore the views of the autoscalers that are stored. -/
theorem representation (tuning : Tuning) (handled : Bool) (history : List Action) :
    let start := create tuning handled
    let s := start.run history
    let accepted := (start.log history).length
    (∀ ns named, (ns, named) ∈ s.entries.entries → named.entries ≠ [] ∧
      ∀ name entry, (name, entry) ∈ named.entries → entry.autoscaler.key = ⟨ns, name⟩ ∧
        entry.autoscaler.spec.Valid ∧ entry.autoscaler.view = .ok entry.view) ∧
    (∃ number : Key → Nat,
      (∀ k a, s.get k = .ok a →
        1 ≤ number k ∧ number k ≤ accepted ∧ a.version = UInt64.ofNat (number k)) ∧
      ∀ k k₀, s.Live k → s.Live k₀ → number k = number k₀ → k = k₀) ∧
    (accepted < UInt64.size → ∀ k k₀ a a₀, s.get k = .ok a → s.get k₀ = .ok a₀ →
      a.version = a₀.version → k = k₀) ∧
    (∀ scope, (s.list scope).map Except.ok =
      (s.autoscalers.filter fun a => covers scope a.spec.ns).map Autoscaler.view) ∧
    (∀ k, s.getView k = (s.get k).bind Autoscaler.view) ∧
    (∀ scope views version id s', s.listAndWatch scope = .ok (views, version, id, s') →
      views.map Except.ok =
        (s'.autoscalers.filter fun a => covers scope a.spec.ns).map Autoscaler.view) ∧
    ∀ sink v c, s.updateStatus sink v = .ok c →
      ∃ a, c.store.get ⟨sink, v.name⟩ = .ok a ∧ a.view = .ok c.change.view := by
  intro start s accepted
  have coherent : s.Coherent := coherent_run tuning handled history
  have occupied : s.Occupied := (occupied_create tuning handled).run history
  let log := (start.log history).map Accepted.mutation
  have recounts (k : Key) : s.Recounts log k := recounts_create tuning handled history k
  have hlength : log.length = accepted := List.length_map ..
  have hversion (k : Key) (a : Autoscaler) (stored : s.get k = .ok a) :
      1 ≤ Mutation.number log k ∧ Mutation.number log k ≤ accepted ∧
        a.version = UInt64.ofNat (Mutation.number log k) := by
    rw [← hlength]
    exact (recounts k).version_eq_number (stored?_eq_some_iff.mpr stored)
  refine ⟨?_, ⟨Mutation.number log, hversion, ?_⟩, ?_, list_eq_views coherent, getView_eq coherent,
    ?_, fun sink v c h => updateStatus_view coherent h⟩
  · intro ns named hnamed
    have found := OrderedMap.mem_entries_iff.mp hnamed
    refine ⟨?_, ?_⟩
    · intro hnil
      have hempty : named.isEmpty = true := by rw [OrderedMap.isEmpty, hnil]; rfl
      rw [occupied ns named found] at hempty
      cases hempty
    · intro name entry hentry
      have hentry : s.find? ⟨ns, name⟩ = some entry := by
        rw [find?_eq, found]
        exact OrderedMap.mem_entries_iff.mp hentry
      obtain ⟨hkey, hview⟩ := coherent _ _ hentry
      exact ⟨hkey, coherent.valid hentry, hview⟩
  · intro k k₀ live live₀ h
    exact (recounts k).number_injective (recounts k₀) live live₀ h
  · intro hsize k k₀ a a₀ stored stored₀ h
    obtain ⟨-, hle, hv⟩ := hversion k a stored
    obtain ⟨-, hle₀, hv₀⟩ := hversion k₀ a₀ stored₀
    have hnumber : Mutation.number log k = Mutation.number log k₀ := by
      have hofNat : UInt64.ofNat (Mutation.number log k) = UInt64.ofNat (Mutation.number log k₀) :=
        hv.symm.trans (h.trans hv₀)
      have htoNat := congrArg UInt64.toNat hofNat
      rwa [UInt64.toNat_ofNat_of_lt' (by omega), UInt64.toNat_ofNat_of_lt' (by omega)] at htoNat
    exact (recounts k).number_injective (recounts k₀) ⟨a, stored⟩ ⟨a₀, stored₀⟩ hnumber
  · intro scope views version id s' h
    obtain ⟨rfl, hentries⟩ := list_of_listAndWatch h
    rw [list_eq_views coherent, autoscalers, autoscalers, entriesIn, entriesIn, hentries]

end Store

end Autoscaling

import Autoscaling.Store.Lemmas
import Mathlib.Tactic.Common

/-!
# The store as one table

A store files its entries by namespace and then by name.  Read out in order they make one table by
key, with the lookups of the store (`Store.find?_table`).  What a store lists in a scope are the
values of the part of that table that the scope covers, so lists of two stores can be compared by
their lookups.
-/

namespace Autoscaling

namespace Key

theorem compare_of_ns_eq {k k₀ : Key} (hns : k.ns = k₀.ns) :
    compare k k₀ = compare k.name k₀.name := by
  show (compare k.ns k₀.ns).then (compare k.name k₀.name) = _
  have hself : compare k₀.ns k₀.ns = .eq := Std.ReflCmp.compare_self
  rw [hns, hself]
  rfl

theorem compare_of_ns_lt {k k₀ : Key} (hns : compare k.ns k₀.ns = .lt) : compare k k₀ = .lt := by
  show (compare k.ns k₀.ns).then (compare k.name k₀.name) = _
  rw [hns]
  rfl

end Key

namespace Store

/-- The entries of a namespace by key. -/
def shelf (ns : String) (named : OrderedMap String Entry) : List (Key × Entry) :=
  named.entries.map fun e => (⟨ns, e.1⟩, e.2)

/-- All entries by key. -/
def table (s : Store) : OrderedMap Key Entry where
  entries := s.entries.entries.flatMap fun e => shelf e.1 e.2
  ascending := by
    rw [Ascending, List.pairwise_flatMap]
    constructor
    -- within a namespace the names decide, between two of them the namespaces do
    · intro e _
      rw [shelf, List.pairwise_map]
      refine List.Pairwise.imp ?_ e.2.ascending
      intro named named₀ hname
      have hns : (⟨e.1, named.1⟩ : Key).ns = (⟨e.1, named₀.1⟩ : Key).ns := rfl
      exact (Key.compare_of_ns_eq hns).trans hname
    · refine List.Pairwise.imp ?_ s.entries.ascending
      intro e e₀ hns x hx y hy
      obtain ⟨_, -, rfl⟩ := List.mem_map.mp hx
      obtain ⟨_, -, rfl⟩ := List.mem_map.mp hy
      exact Key.compare_of_ns_lt hns

theorem find?_table (s : Store) (k : Key) : s.table.find? k = s.find? k := by
  ext entry
  rw [← OrderedMap.mem_entries_iff, find?_eq, Option.bind_eq_some_iff]
  show (k, entry) ∈ s.entries.entries.flatMap _ ↔ _
  rw [List.mem_flatMap]
  constructor
  · rintro ⟨⟨ns, named⟩, hnamed, hentry⟩
    obtain ⟨⟨name, found⟩, hfound, heq⟩ := List.mem_map.mp hentry
    cases heq
    exact ⟨named, OrderedMap.mem_entries_iff.mp hnamed, OrderedMap.mem_entries_iff.mp hfound⟩
  · rintro ⟨named, hnamed, hfound⟩
    refine ⟨(k.ns, named), OrderedMap.mem_entries_iff.mpr hnamed, List.mem_map.mpr ?_⟩
    exact ⟨(k.name, entry), OrderedMap.mem_entries_iff.mpr hfound, rfl⟩

/-- The entries in a scope, by key. -/
def tableIn (s : Store) (scope : String) : OrderedMap Key Entry :=
  s.table.filter fun k _ => covers scope k.ns

theorem find?_tableIn (s : Store) (scope : String) (k : Key) :
    (s.tableIn scope).find? k = if covers scope k.ns then s.find? k else none := by
  rw [tableIn, OrderedMap.find?_filter, find?_table]
  by_cases hscope : covers scope k.ns = true
  · cases s.find? k <;> simp [hscope]
  · cases s.find? k <;> simp [hscope]

/-- A scope covers a namespace whole or not at all. -/
theorem filter_shelf (scope ns : String) (named : OrderedMap String Entry) :
    (shelf ns named).filter (fun e => covers scope e.1.ns) =
      if covers scope ns then shelf ns named else [] := by
  by_cases hscope : covers scope ns = true
  · rw [if_pos hscope, List.filter_eq_self]
    intro e he
    obtain ⟨_, -, rfl⟩ := List.mem_map.mp he
    exact hscope
  · rw [if_neg hscope, List.filter_eq_nil_iff]
    intro e he
    obtain ⟨_, -, rfl⟩ := List.mem_map.mp he
    exact hscope

theorem entriesIn_eq (s : Store) (scope : String) :
    s.entriesIn scope = (s.tableIn scope).values := by
  show List.flatMap _ (List.filter _ s.entries.entries) =
    List.map Prod.snd (List.filter _ (List.flatMap _ s.entries.entries))
  induction s.entries.entries with
  | nil => rfl
  | cons e rest ih =>
      rw [List.flatMap_cons, List.filter_append, List.map_append, ← ih, filter_shelf]
      by_cases hscope : covers scope e.1 = true
      · simp [hscope, shelf, OrderedMap.values, Function.comp_def]
      · simp [hscope]

/-- The views in a scope, by key. -/
def viewsIn (s : Store) (scope : String) : OrderedMap Key View :=
  (s.tableIn scope).mapValues fun _ entry => entry.view

theorem find?_viewsIn (s : Store) (scope : String) (k : Key) :
    (s.viewsIn scope).find? k =
      if covers scope k.ns then (s.find? k).map Entry.view else none := by
  rw [viewsIn, OrderedMap.find?_mapValues, find?_tableIn]
  split_ifs <;> rfl

/-- What a store lists in a scope are the views in it, by ascending key. -/
theorem list_eq (s : Store) (scope : String) : s.list scope = (s.viewsIn scope).values := by
  rw [list, entriesIn_eq, viewsIn]
  simp [OrderedMap.values, OrderedMap.mapValues, Function.comp_def]

end Store

end Autoscaling

import Autoscaling.Ordered.Map

/-!
# Maps and their lookups

A map is known by its lookups: maps that find the same values are the same map
(`OrderedMap.eq_of_find?_eq`), and an entry is listed exactly when it is found
(`OrderedMap.mem_entries_iff`).  The other lemmas say what filtering, replacing values and filing a
list do to every lookup, so that no proof has to open the list of entries.
-/

namespace Autoscaling

universe u v

namespace Entries

variable {κ : Type u} {α : Type v} [Ord κ]

theorem mem_of_find? [Std.LawfulEqOrd κ] {k : κ} {v : α} {entries : List (κ × α)}
    (h : find? k entries = some v) : (k, v) ∈ entries := by
  induction entries with
  | nil => exact absurd h (by simp [find?])
  | cons head rest ih =>
      obtain ⟨k', v'⟩ := head
      rw [find?] at h
      split at h
      · rename_i heq
        have hkey : k = k' := Std.LawfulEqCmp.eq_of_compare heq
        have hvalue : v' = v := Option.some.inj h
        exact hkey ▸ hvalue ▸ List.mem_cons_self
      · exact List.mem_cons_of_mem _ (ih h)

/-- A key that is less than all keys of the list is not found. -/
theorem find?_eq_none_of_lt {k : κ} {entries : List (κ × α)}
    (h : ∀ e ∈ entries, compare k e.1 = .lt) : find? k entries = none := by
  induction entries with
  | nil => rfl
  | cons head rest ih =>
      obtain ⟨k', v'⟩ := head
      have hne : compare k k' ≠ .eq := by
        rw [h _ List.mem_cons_self]
        decide
      rw [find?, if_neg hne]
      exact ih fun e he => h e (List.mem_cons_of_mem _ he)

theorem find?_of_mem [Std.TransOrd κ] {k : κ} {v : α} {entries : List (κ × α)}
    (ordered : Ascending entries) (h : (k, v) ∈ entries) : find? k entries = some v := by
  induction entries with
  | nil => exact absurd h List.not_mem_nil
  | cons head rest ih =>
      obtain ⟨hHead, hRest⟩ := List.pairwise_cons.mp ordered
      obtain ⟨k', v'⟩ := head
      rcases List.mem_cons.mp h with h | h
      · obtain ⟨hkey, hvalue⟩ := Prod.mk.inj h
        subst hkey
        subst hvalue
        rw [find?, if_pos Std.ReflCmp.compare_self]
      · have hne : compare k k' ≠ .eq := by
          intro heq
          have hlt : compare k' k = .lt := hHead _ h
          rw [Std.OrientedCmp.eq_symm heq] at hlt
          exact absurd hlt (by decide)
        rw [find?, if_neg hne]
        exact ih hRest h

/-- The first entry of an ascending list is not found in a list of greater keys. -/
theorem find?_tail [Std.TransOrd κ] {head : κ × α} {rest : List (κ × α)}
    (ordered : Ascending (head :: rest)) : find? head.1 rest = none :=
  find?_eq_none_of_lt (List.pairwise_cons.mp ordered).1

/-- Ascending lists that find the same values begin with the same entry. -/
theorem head_eq_of_find?_eq [Std.TransOrd κ] [Std.LawfulEqOrd κ] {a b : κ × α}
    {as bs : List (κ × α)} (hA : Ascending (a :: as)) (hB : Ascending (b :: bs))
    (h : ∀ k, find? k (a :: as) = find? k (b :: bs)) : a = b := by
  have aFound : find? a.1 (b :: bs) = some a.2 := by
    rw [← h]
    exact find?_of_mem hA List.mem_cons_self
  have bFound : find? b.1 (a :: as) = some b.2 := by
    rw [h]
    exact find?_of_mem hB List.mem_cons_self
  rcases List.mem_cons.mp (mem_of_find? aFound) with hab | hab
  · exact hab
  · rcases List.mem_cons.mp (mem_of_find? bFound) with hba | hba
    · exact hba.symm
    · have hlt : compare b.1 a.1 = .lt := (List.pairwise_cons.mp hB).1 _ hab
      have hgt : compare a.1 b.1 = .lt := (List.pairwise_cons.mp hA).1 _ hba
      exact absurd hgt (Std.OrientedCmp.not_lt_of_lt hlt)

/-- Ascending lists that find the same values are equal. -/
theorem eq_of_find?_eq [Std.TransOrd κ] [Std.LawfulEqOrd κ] {as bs : List (κ × α)}
    (hA : Ascending as) (hB : Ascending bs) (h : ∀ k, find? k as = find? k bs) : as = bs := by
  induction as generalizing bs with
  | nil =>
      cases bs with
      | nil => rfl
      | cons b bs =>
          have found := h b.1
          rw [find?_of_mem hB List.mem_cons_self] at found
          exact absurd found (by simp [find?])
  | cons a as ih =>
      cases bs with
      | nil =>
          have found := h a.1
          rw [find?_of_mem hA List.mem_cons_self] at found
          exact absurd found (by simp [find?])
      | cons b bs =>
          have hab : a = b := head_eq_of_find?_eq hA hB h
          subst hab
          refine congrArg (a :: ·) (ih (List.pairwise_cons.mp hA).2 (List.pairwise_cons.mp hB).2 ?_)
          intro k
          by_cases hk : compare k a.1 = .eq
          · have hkey : k = a.1 := Std.LawfulEqCmp.eq_of_compare hk
            rw [hkey, find?_tail hA, find?_tail hB]
          · have found := h k
            rwa [find?, find?, if_neg hk, if_neg hk] at found

theorem find?_filter [Std.TransOrd κ] [Std.LawfulEqOrd κ] (keeps : κ → α → Bool) (k : κ)
    {entries : List (κ × α)} (ordered : Ascending entries) :
    find? k (entries.filter fun e => keeps e.1 e.2) = (find? k entries).filter (keeps k) := by
  induction entries with
  | nil => rfl
  | cons head rest ih =>
      have tail := find?_tail ordered
      have hRest := (List.pairwise_cons.mp ordered).2
      obtain ⟨k', v'⟩ := head
      rw [List.filter_cons]
      by_cases hk : compare k k' = .eq
      · have hkey : k = k' := Std.LawfulEqCmp.eq_of_compare hk
        subst hkey
        by_cases hkeep : keeps k v' = true
        · rw [if_pos hkeep, find?, find?, if_pos hk, if_pos hk, Option.filter_some, if_pos hkeep]
        · rw [if_neg hkeep, ih hRest, tail, find?, if_pos hk, Option.filter_some, if_neg hkeep,
            Option.filter_none]
      · by_cases hkeep : keeps k' v' = true
        · rw [if_pos hkeep, find?, find?, if_neg hk, if_neg hk, ih hRest]
        · rw [if_neg hkeep, find?, if_neg hk, ih hRest]

theorem find?_map {β : Type v} [Std.LawfulEqOrd κ] (f : κ → α → β) (k : κ)
    (entries : List (κ × α)) :
    find? k (entries.map fun e => (e.1, f e.1 e.2)) = (find? k entries).map (f k) := by
  induction entries with
  | nil => rfl
  | cons head rest ih =>
      obtain ⟨k', v'⟩ := head
      by_cases hk : compare k k' = .eq
      · have hkey : k = k' := Std.LawfulEqCmp.eq_of_compare hk
        simp [find?, hkey]
      · simp [find?, hk, ih]

end Entries

namespace OrderedMap

variable {κ : Type u} {α : Type v} [Ord κ]

/-- A map is known by its lookups. -/
theorem eq_of_find?_eq [Std.TransOrd κ] [Std.LawfulEqOrd κ] {m₁ m₂ : OrderedMap κ α}
    (h : ∀ k, m₁.find? k = m₂.find? k) : m₁ = m₂ :=
  ext (Entries.eq_of_find?_eq m₁.ascending m₂.ascending h)

/-- The entries are what lookups find. -/
theorem mem_entries_iff [Std.TransOrd κ] [Std.LawfulEqOrd κ] {m : OrderedMap κ α} {k : κ} {v : α} :
    (k, v) ∈ m.entries ↔ m.find? k = some v :=
  ⟨Entries.find?_of_mem m.ascending, Entries.mem_of_find?⟩

theorem mem_values_iff [Std.TransOrd κ] [Std.LawfulEqOrd κ] {m : OrderedMap κ α} {v : α} :
    v ∈ m.values ↔ ∃ k, m.find? k = some v := by
  rw [values, List.mem_map]
  exact ⟨fun ⟨e, he, hv⟩ => ⟨e.1, mem_entries_iff.mp (hv ▸ he)⟩,
    fun ⟨k, hk⟩ => ⟨(k, v), mem_entries_iff.mpr hk, rfl⟩⟩

theorem mem_keys_iff [Std.TransOrd κ] [Std.LawfulEqOrd κ] {m : OrderedMap κ α} {k : κ} :
    k ∈ m.keys ↔ m.contains k = true := by
  rw [keys, List.mem_map, contains, Option.isSome_iff_exists]
  exact ⟨fun ⟨e, he, hk⟩ => ⟨e.2, mem_entries_iff.mp (hk ▸ he)⟩,
    fun ⟨v, hv⟩ => ⟨(k, v), mem_entries_iff.mpr hv, rfl⟩⟩

/-- The keys are listed in strictly ascending order. -/
theorem keys_ascending (m : OrderedMap κ α) : m.keys.Pairwise fun a b => compare a b = .lt := by
  rw [keys, List.pairwise_map]
  exact m.ascending

@[simp] theorem find?_filter [Std.TransOrd κ] [Std.LawfulEqOrd κ] (m : OrderedMap κ α)
    (keeps : κ → α → Bool) (k : κ) : (m.filter keeps).find? k = (m.find? k).filter (keeps k) :=
  Entries.find?_filter keeps k m.ascending

@[simp] theorem find?_mapValues {β : Type v} [Std.LawfulEqOrd κ] (m : OrderedMap κ α)
    (f : κ → α → β) (k : κ) : (m.mapValues f).find? k = (m.find? k).map (f k) :=
  Entries.find?_map f k m.entries

/-- A map has no entries exactly when lookups find nothing. -/
theorem isEmpty_iff [Std.TransOrd κ] [Std.LawfulEqOrd κ] {m : OrderedMap κ α} :
    m.isEmpty = true ↔ ∀ k, m.find? k = none := by
  rw [isEmpty, List.isEmpty_iff]
  constructor
  · intro h k
    rw [find?, h, Entries.find?]
  · intro h
    have same : m = empty := eq_of_find?_eq h
    rw [same]
    rfl

/-- Filing more entries does not depend on the ones that they replace. -/
theorem find?_foldl_insert [Std.TransOrd κ] [Std.LawfulEqOrd κ] [DecidableEq κ]
    (entries : List (κ × α)) (m : OrderedMap κ α) (k : κ) :
    (entries.foldl (fun m e => m.insert e.1 e.2) m).find? k =
      ((entries.reverse.find? fun e => decide (k = e.1)).map Prod.snd).or (m.find? k) := by
  induction entries generalizing m with
  | nil => rfl
  | cons e rest ih =>
      rw [List.foldl_cons, ih, find?_insert, List.reverse_cons, List.find?_append]
      cases hRest : rest.reverse.find? fun e => decide (k = e.1) with
      | some found => rfl
      | none => by_cases hk : k = e.1 <;> simp [hk]

/-- Of several entries with the same key the last one counts. -/
theorem find?_ofList [Std.TransOrd κ] [Std.LawfulEqOrd κ] [DecidableEq κ]
    (entries : List (κ × α)) (k : κ) :
    (ofList entries).find? k =
      (entries.reverse.find? fun e => decide (k = e.1)).map Prod.snd := by
  rw [ofList, find?_foldl_insert, find?_empty, Option.or_none]

/-- Of entries with different keys every one counts. -/
theorem find?_ofList_eq_some_iff [Std.TransOrd κ] [Std.LawfulEqOrd κ] [DecidableEq κ]
    {entries : List (κ × α)} (distinct : (entries.map Prod.fst).Nodup) {k : κ} {v : α} :
    (ofList entries).find? k = some v ↔ (k, v) ∈ entries := by
  rw [find?_ofList, ← List.mem_reverse]
  have distinct' : (entries.reverse.map Prod.fst).Nodup :=
    (entries.reverse_perm.map Prod.fst).nodup_iff.mpr distinct
  generalize entries.reverse = entries at distinct'
  induction entries with
  | nil => simp
  | cons e rest ih =>
      rw [List.map_cons, List.nodup_cons] at distinct'
      obtain ⟨hnew, distinct'⟩ := distinct'
      rw [List.mem_cons]
      by_cases hk : k = e.1
      · have hrest : (k, v) ∉ rest := fun hmem => hnew (hk ▸ List.mem_map_of_mem hmem)
        rw [List.find?_cons_of_pos (by simpa using hk), or_iff_left hrest]
        simp [Prod.ext_iff, hk, eq_comm]
      · have hne : (k, v) ≠ e := fun heq => hk (congrArg Prod.fst heq)
        rw [List.find?_cons_of_neg (by simpa using hk), or_iff_right hne]
        exact ih distinct'

theorem contains_ofList_iff [Std.TransOrd κ] [Std.LawfulEqOrd κ] [DecidableEq κ]
    {entries : List (κ × α)} {k : κ} :
    (ofList entries).contains k = true ↔ k ∈ entries.map Prod.fst := by
  rw [contains, find?_ofList, Option.isSome_map, List.find?_isSome]
  simp [eq_comm]

/-- Entries with different keys can be filed in any order. -/
theorem ofList_perm [Std.TransOrd κ] [Std.LawfulEqOrd κ] [DecidableEq κ]
    {entries entries' : List (κ × α)} (perm : entries.Perm entries')
    (distinct : (entries.map Prod.fst).Nodup) : ofList entries = ofList entries' := by
  have distinct' : (entries'.map Prod.fst).Nodup := (perm.map Prod.fst).nodup_iff.mp distinct
  refine eq_of_find?_eq fun k => Option.ext fun v => ?_
  rw [find?_ofList_eq_some_iff distinct, find?_ofList_eq_some_iff distinct', perm.mem_iff]

/-- Filing the entries of a map again gives the map. -/
theorem ofList_entries [Std.TransOrd κ] [Std.LawfulEqOrd κ] [DecidableEq κ]
    (m : OrderedMap κ α) : ofList m.entries = m := by
  refine eq_of_find?_eq fun k => ?_
  rw [find?_ofList]
  cases hlast : m.entries.reverse.find? fun e => decide (k = e.1) with
  | none =>
      cases hfound : m.find? k with
      | none => rfl
      | some v =>
          have hmem := List.mem_reverse.mpr (mem_entries_iff.mpr hfound)
          exact absurd (decide_eq_true rfl) (List.find?_eq_none.mp hlast _ hmem)
  | some e =>
      have hkey : k = e.1 := by simpa using List.find?_some hlast
      have hmem := List.mem_reverse.mp (List.mem_of_find?_eq_some hlast)
      exact (hkey ▸ mem_entries_iff.mp hmem).symm

/-- Filing the values of a map under their keys gives the map, if every value tells its key. -/
theorem ofList_values [Std.TransOrd κ] [Std.LawfulEqOrd κ] [DecidableEq κ] {m : OrderedMap κ α}
    {key : α → κ} (h : ∀ k v, m.find? k = some v → key v = k) :
    ofList (m.values.map fun v => (key v, v)) = m := by
  have hentries : m.values.map (fun v => (key v, v)) = m.entries := by
    rw [values, List.map_map]
    refine (List.map_congr_left fun e he => ?_).trans (List.map_id _)
    exact Prod.ext (h e.1 e.2 (mem_entries_iff.mp he)) rfl
  rw [hentries, ofList_entries]

end OrderedMap

end Autoscaling

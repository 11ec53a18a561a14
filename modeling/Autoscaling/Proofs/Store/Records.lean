import Autoscaling.Proofs.Store.Representation
import Mathlib

/-!
# A store as one map

Whoever reads a store may think of one map from keys to autoscalers, `Store.records`, although the
store files them by namespace and then by name, each with its view.  `Store.reads_agree` says that
all reads are reads of that map: the autoscalers and the views in it by ascending key, the views of
one namespace as a part of all of them, how many there are, and single lookups.  What a mutation
does to a store is an `Edit` of the map at one key.

`Store.table` is the map with the views.  The records are read off it, and what is said about the
views rests on `Store.Coherent`, by which a view is that of the autoscaler beside it.
-/

namespace Autoscaling

/-- Keys are compared by namespace and then by name, by code points. -/
theorem Key.compare_eq_lt_iff {k k₀ : Key} :
    compare k k₀ = .lt ↔ k.ns < k₀.ns ∨ k.ns = k₀.ns ∧ k.name < k₀.name := by
  have hlt (a b : String) : compare a b = .lt ↔ a < b := compareOfLessAndEq_eq_lt
  have heq (a b : String) : compare a b = .eq ↔ a = b := Std.compare_eq_iff_eq
  show (compare k.ns k₀.ns).then (compare k.name k₀.name) = _ ↔ _
  rw [Ordering.then_eq_lt, hlt, hlt, heq]

/-- What an accepted mutation does to a map of autoscalers: it files an autoscaler under a new key,
replaces the one that is filed under a key, or removes it. -/
inductive Edit (m : Mutation) (version : UInt64) (before after : OrderedMap Key Autoscaler) :
    Prop where
  | inserted {a : Autoscaler} (kind : m.kind = .added) (absent : before.find? m.key = none)
      (key : a.key = m.key) (stamp : a.version = version) (eq : after = before.insert m.key a)
  | replaced {old a : Autoscaler} (kind : m.kind = .modified)
      (present : before.find? m.key = some old) (key : a.key = m.key) (stamp : a.version = version)
      (eq : after = before.insert m.key a)
  | erased {old : Autoscaler} (kind : m.kind = .deleted) (present : before.find? m.key = some old)
      (eq : after = before.erase m.key)

namespace Store

/-- The stored autoscalers by key. -/
def records (s : Store) : OrderedMap Key Autoscaler :=
  s.table.mapValues fun _ entry => entry.autoscaler

/-- The stored specifications by key. -/
def specs (s : Store) : OrderedMap Key Spec := s.records.mapValues fun _ a => a.spec

/-- The namespaces that something is stored in. -/
def namespaces (s : Store) : List String := s.entries.keys

theorem find?_records (s : Store) (k : Key) : s.records.find? k = s.stored? k := by
  rw [records, OrderedMap.find?_mapValues, find?_table, stored?]

theorem find?_specs (s : Store) (k : Key) :
    s.specs.find? k = (s.stored? k).map Autoscaler.spec := by
  rw [specs, OrderedMap.find?_mapValues, find?_records]

theorem values_specs (s : Store) : s.specs.values = s.records.values.map Autoscaler.spec := by
  simp [specs, OrderedMap.values, OrderedMap.mapValues]

theorem tableIn_everyNamespace (s : Store) : s.tableIn everyNamespace = s.table :=
  OrderedMap.ext (List.filter_eq_self.mpr fun _ _ => rfl)

theorem mem_keys_records_iff {s : Store} {k : Key} : k ∈ s.records.keys ↔ s.Live k := by
  rw [OrderedMap.mem_keys_iff, OrderedMap.contains, find?_records, Option.isSome_iff_exists,
    live_iff]

theorem nodup_keys_records (s : Store) : s.records.keys.Nodup := by
  refine s.records.keys_ascending.imp ?_
  rintro k _ hlt rfl
  have hself : compare k k = .eq := Std.ReflCmp.compare_self
  rw [hself] at hlt
  exact nomatch hlt

/-! ## Reading everything -/

theorem autoscalers_eq (s : Store) : s.autoscalers = s.records.values := by
  rw [autoscalers, entriesIn_eq, tableIn_everyNamespace]
  simp [records, OrderedMap.values, OrderedMap.mapValues, Function.comp_def]

theorem size_eq (s : Store) : s.size = s.records.size := by
  have hfold (entries : List (String × OrderedMap String Entry)) (n : Nat) :
      (entries.map Prod.snd).foldl (fun n named => n + named.size) n =
        n + (entries.flatMap fun e => shelf e.1 e.2).length := by
    induction entries generalizing n with
    | nil => rfl
    | cons e rest ih =>
        rw [List.map_cons, List.foldl_cons, ih, List.flatMap_cons, List.length_append, shelf,
          List.length_map]
        exact Nat.add_assoc ..
  show (s.entries.entries.map Prod.snd).foldl _ 0 =
    ((s.entries.entries.flatMap fun e => shelf e.1 e.2).map _).length
  rw [hfold, Nat.zero_add, List.length_map]

/-! ## Reading one namespace -/

/-- What is read of one namespace is what is filed under it. -/
theorem entriesIn_namespace (s : Store) {ns : String} (hns : ns ≠ everyNamespace) :
    s.entriesIn ns = match s.entries.find? ns with
      | some named => named.values
      | none => [] := by
  let part : OrderedMap String (OrderedMap String Entry) := s.entries.filter fun ns₀ _ =>
    covers ns ns₀
  have hcovers (ns₀ : String) : covers ns ns₀ = decide (ns₀ = ns) := by
    simp [covers, hns, eq_comm, beq_eq_decide]
  have hpart : s.entriesIn ns = part.entries.flatMap fun e => e.2.values := rfl
  -- the part of the map that the scope covers has the one entry of the namespace, or none
  cases hnamed : s.entries.find? ns with
  | none =>
      have hempty : part = .empty := by
        refine OrderedMap.eq_of_find?_eq fun ns₀ => ?_
        rw [OrderedMap.find?_filter, hcovers, OrderedMap.find?_empty]
        by_cases hsame : ns₀ = ns
        · rw [hsame, hnamed, Option.filter_none]
        · simp [hsame]
      rw [hpart, hempty]
      rfl
  | some named =>
      have hone : part = OrderedMap.empty.insert ns named := by
        refine OrderedMap.eq_of_find?_eq fun ns₀ => ?_
        rw [OrderedMap.find?_filter, hcovers, OrderedMap.find?_insert, OrderedMap.find?_empty]
        by_cases hsame : ns₀ = ns
        · simp [hsame, hnamed]
        · simp [hsame]
      rw [hpart, hone]
      exact List.append_nil _

theorem mem_namespaces_iff {s : Store} (occupied : s.Occupied) {ns : String} :
    ns ∈ s.namespaces ↔ ∃ name, s.Live ⟨ns, name⟩ := by
  have hlive (name : String) : s.Live ⟨ns, name⟩ ↔ ∃ entry, s.find? ⟨ns, name⟩ = some entry := by
    simp [live_iff, stored?]
  simp only [hlive, find?_eq, Option.bind_eq_some_iff, namespaces, OrderedMap.mem_keys_iff,
    OrderedMap.contains, Option.isSome_iff_exists]
  constructor
  · rintro ⟨named, hnamed⟩
    -- a namespace that is kept has an entry
    have hne : ¬ ∀ name, named.find? name = none := by
      rw [← OrderedMap.isEmpty_iff, occupied ns named hnamed]
      exact Bool.false_ne_true
    obtain ⟨name, hname⟩ := not_forall.mp hne
    obtain ⟨entry, hentry⟩ := Option.ne_none_iff_exists'.mp hname
    exact ⟨name, entry, named, hnamed, hentry⟩
  · rintro ⟨name, entry, named, hnamed, -⟩
    exact ⟨named, hnamed⟩

section Coherent

variable {s : Store} (coherent : s.Coherent)

include coherent

/-- An autoscaler is stored under the key of its specification. -/
theorem key_of_stored? {k : Key} {a : Autoscaler} (stored : s.stored? k = some a) :
    a.spec.key = k := by
  obtain ⟨entry, found, rfl⟩ := Option.map_eq_some_iff.mp stored
  exact (coherent k entry found).1

theorem view_of_mem_entriesIn {scope : String} {entry : Entry}
    (hentry : entry ∈ s.entriesIn scope) :
    entry.view = entry.autoscaler.shown ∧ entry.autoscaler.view = .ok entry.view := by
  rw [entriesIn_eq, OrderedMap.mem_values_iff] at hentry
  obtain ⟨k, found⟩ := hentry
  rw [find?_tableIn] at found
  split_ifs at found
  obtain ⟨-, hview⟩ := coherent k entry found
  exact ⟨(Autoscaler.view_eq_ok_iff.mp hview).2, hview⟩

theorem list_everyNamespace : s.list everyNamespace = s.records.values.map Autoscaler.shown := by
  rw [← autoscalers_eq, autoscalers, list, List.map_map]
  exact List.map_congr_left fun entry hentry => (view_of_mem_entriesIn coherent hentry).1

theorem list_namespace {ns : String} (hns : ns ≠ everyNamespace) :
    s.list ns = (s.list everyNamespace).filter fun v => v.ns == ns := by
  rw [list, entriesIn_eq_filter coherent, list, List.filter_map]
  refine congrArg _ (List.filter_congr fun entry hentry => ?_)
  have hview := (view_of_mem_entriesIn coherent hentry).1
  have hcovers (ns₀ : String) : covers ns ns₀ = (ns₀ == ns) := by
    simp [covers, hns, beq_eq_decide, eq_comm]
  rw [hcovers, Function.comp, hview]
  rfl

/-- Listing every namespace is listing one after the other. -/
theorem list_everyNamespace_eq_flatMap (occupied : s.Occupied) :
    s.list everyNamespace = s.namespaces.flatMap s.list := by
  have hone (e : String × OrderedMap String Entry) (he : e ∈ s.entries.entries) :
      s.list e.1 = e.2.values.map Entry.view := by
    have hnamed := OrderedMap.mem_entries_iff.mp he
    have hkept : e.1 ∈ s.namespaces := List.mem_map_of_mem he
    obtain ⟨name, live⟩ := (mem_namespaces_iff occupied).mp hkept
    rw [list, entriesIn_namespace s (key_of_live coherent live).2, hnamed]
  have hall : s.entriesIn everyNamespace = s.entries.entries.flatMap fun e => e.2.values :=
    congrArg (List.flatMap _) (List.filter_eq_self.mpr fun _ _ => rfl)
  rw [namespaces, OrderedMap.keys, List.flatMap_map, list, hall, List.map_flatMap]
  exact (List.flatMap_congr hone).symm

end Coherent

/-! ## Mutations -/

/-- An accepted mutation edits the map of the autoscalers at its key. -/
theorem Commits.edit {s : Store} {m : Mutation} {c : Commit} (h : s.Commits m c) :
    Edit m (s.version + 1) s.records c.store.records := by
  obtain ⟨hbefore, hafter⟩ := h.isSome_stored?
  rw [← find?_records] at hbefore
  have helsewhere (k : Key) (hk : k ≠ m.key) : c.store.records.find? k = s.records.find? k := by
    rw [find?_records, find?_records, stored?, stored?, h.elsewhere k hk]
  have hinsert (a : Autoscaler) (view : View) (hstored : c.store.find? m.key = some ⟨a, view⟩) :
      c.store.records = s.records.insert m.key a := by
    refine OrderedMap.eq_of_find?_eq fun k => ?_
    rw [OrderedMap.find?_insert]
    by_cases hk : k = m.key
    · rw [if_pos hk, hk, find?_records, stored?, hstored]
      rfl
    · rw [if_neg hk, helsewhere k hk]
  cases hkind : m.kind with
  | added =>
      obtain ⟨a, hstored, hkey, -, hversion⟩ := h.written (by simp [hkind])
      rw [hkind] at hbefore
      have absent := Option.isNone_iff_eq_none.mp (Option.isSome_eq_false_iff.mp hbefore)
      exact .inserted hkind absent hkey hversion (hinsert a _ hstored)
  | modified =>
      obtain ⟨a, hstored, hkey, -, hversion⟩ := h.written (by simp [hkind])
      rw [hkind] at hbefore
      obtain ⟨old, hold⟩ := Option.isSome_iff_exists.mp hbefore
      exact .replaced hkind hold hkey hversion (hinsert a _ hstored)
  | deleted =>
      rw [hkind] at hbefore
      obtain ⟨old, hold⟩ := Option.isSome_iff_exists.mp hbefore
      refine .erased hkind hold (OrderedMap.eq_of_find?_eq fun k => ?_)
      rw [OrderedMap.find?_erase]
      by_cases hk : k = m.key
      · rw [if_pos hk, hk, find?_records, stored?, (h.deleted hkind).1]
        rfl
      · rw [if_neg hk, helsewhere k hk]

/-- **All reads agree on one map.**  In every store that a run reaches, the autoscalers are those of
`Store.records`, each under its own key, by ascending namespace and name, and all views are those of
these autoscalers, in the same order.  Listing every namespace is listing one after the other, for
the namespaces that something is live in, in their order; listing one of them gives the views of
all that are in it, and nothing if nothing is live there.  The size is the size of the map, and
requests for an autoscaler and for a view are answered exactly for its keys.

An accepted mutation edits the map at its key and leaves what is read of other keys as it was.
Whatever else is done leaves the whole map. -/
theorem reads_agree (tuning : Tuning) (handled : Bool) (history : List Action) :
    let s := (create tuning handled).run history
    (s.autoscalers = s.records.values ∧ (∀ k a, s.records.find? k = some a → a.key = k) ∧
      s.autoscalers.Pairwise fun a b =>
        a.spec.ns < b.spec.ns ∨ a.spec.ns = b.spec.ns ∧ a.spec.name < b.spec.name) ∧
    ((s.list everyNamespace).map Except.ok = s.autoscalers.map Autoscaler.view ∧
      ∃ namespaces : List String, namespaces.Pairwise (· < ·) ∧
        (∀ ns, ns ∈ namespaces ↔ ∃ name, s.Live ⟨ns, name⟩) ∧
        s.list everyNamespace = namespaces.flatMap s.list) ∧
    (∀ ns, ns ≠ everyNamespace →
      s.list ns = (s.list everyNamespace).filter (fun v => v.ns == ns) ∧
        ((∀ name, ¬ s.Live ⟨ns, name⟩) → s.list ns = [])) ∧
    (s.size = s.records.size ∧ (s.isEmpty = true ↔ s.records.size = 0)) ∧
    (∀ k, (∀ a, s.get k = .ok a ↔ s.records.find? k = some a) ∧
      ∀ v, s.getView k = .ok v ↔ ∃ a, s.records.find? k = some a ∧ a.view = .ok v) ∧
    (∀ m c, s.mutate m = .ok c →
      Edit m (s.version + 1) s.records c.store.records ∧
        m.outcome (s.records.find? m.key) =
          .ok ((c.store.records.find? m.key).map Autoscaler.content) ∧
        ∀ k, k ≠ m.key → c.store.get k = s.get k ∧ c.store.getView k = s.getView k) ∧
    ∀ a, s.accepted? a = none → (s.act a).records = s.records ∧
      ∀ k, (s.act a).getView k = s.getView k := by
  intro s
  have coherent : s.Coherent := coherent_run tuning handled history
  have occupied : s.Occupied := (occupied_create tuning handled).run history
  have hfind (k : Key) (a : Autoscaler) : s.records.find? k = some a ↔ s.get k = .ok a := by
    rw [find?_records, stored?_eq_some_iff]
  have hkey (k : Key) (a : Autoscaler) (h : s.records.find? k = some a) : a.key = k := by
    rw [find?_records] at h
    exact key_of_stored? coherent h
  refine ⟨⟨s.autoscalers_eq, hkey, ?_⟩, ⟨?_, s.namespaces, ?_,
    fun ns => mem_namespaces_iff occupied, list_everyNamespace_eq_flatMap coherent occupied⟩, ?_,
    ⟨s.size_eq, ?_⟩, ?_, ?_, ?_⟩
  · rw [autoscalers_eq, OrderedMap.values, List.pairwise_map]
    refine List.Pairwise.imp_of_mem ?_ s.records.ascending
    intro e e₀ he he₀ hlt
    rw [← hkey _ _ (OrderedMap.mem_entries_iff.mp he),
      ← hkey _ _ (OrderedMap.mem_entries_iff.mp he₀)] at hlt
    exact Key.compare_eq_lt_iff.mp hlt
  · have hall : s.autoscalers.filter (fun a => covers everyNamespace a.spec.ns) = s.autoscalers :=
      List.filter_eq_self.mpr fun _ _ => rfl
    rw [list_eq_views coherent, hall]
  · exact s.entries.keys_ascending.imp fun h => compareOfLessAndEq_eq_lt.mp h
  · intro ns hns
    refine ⟨list_namespace coherent hns, fun dead => ?_⟩
    have hnot : ns ∉ s.namespaces := fun hmem => by
      obtain ⟨name, live⟩ := (mem_namespaces_iff occupied).mp hmem
      exact dead name live
    have hnone : s.entries.find? ns = none := by
      simpa [namespaces, OrderedMap.mem_keys_iff, OrderedMap.contains] using hnot
    rw [list, entriesIn_namespace s hns, hnone]
    rfl
  · rw [isEmpty, size_eq, beq_iff_eq]
  · intro k
    refine ⟨fun a => (hfind k a).symm, fun v => ?_⟩
    rw [getView_eq coherent, bind_eq_ok_iff]
    exact exists_congr fun a => and_congr_left fun _ => (hfind k a).symm
  · intro m c accepted
    have commits := coherent.commits accepted
    refine ⟨commits.edit, ?_, fun k hk => ?_⟩
    · rw [find?_records, find?_records]
      exact commits.outcome
    · rw [get, getView, commits.elsewhere k hk]
      exact ⟨rfl, rfl⟩
  · intro a h
    refine ⟨OrderedMap.eq_of_find?_eq fun k => ?_, fun k => ?_⟩
    · rw [find?_records, find?_records, stored?, stored?, find?_act_of_not_accepted h]
    · rw [getView, getView, find?_act_of_not_accepted h]

/-- A namespace is read among the others, and it is gone with its last autoscaler. -/
example :
    let add (ns name : String) : Action :=
      .mutate (.add (.declared ⟨ns, name, none, 1, [⟨"load", 1, none⟩], none, none⟩))
    let s := (create ⟨1, .disconnect⟩ false).run [add "b" "x", add "a" "y", add "a" "x"]
    (s.list everyNamespace).map View.key = [⟨"a", "x"⟩, ⟨"a", "y"⟩, ⟨"b", "x"⟩] ∧
      (s.list "a").map View.key = [⟨"a", "x"⟩, ⟨"a", "y"⟩] ∧
      (s.act (.mutate (.delete ⟨"b", "x"⟩))).namespaces = ["a"] := by
  decide

end Store

end Autoscaling

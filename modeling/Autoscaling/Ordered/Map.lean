/-!
# Maps listed by key

A finite map is the list of its entries by strictly ascending key.  Two maps with the same
entries are therefore the same map, and reading one out in order is reading the list.

The operations are lookup, insertion that replaces, and removal.  Each comes with the lemma that
says what it does to every lookup.
-/

namespace Autoscaling

universe u v

/-- Every key of the list is greater than the ones before it. -/
def Ascending {κ : Type u} {α : Type v} [Ord κ] (entries : List (κ × α)) : Prop :=
  entries.Pairwise fun a b => compare a.1 b.1 = .lt

namespace Entries

variable {κ : Type u} {α : Type v} [Ord κ]

/-- The value filed under a key. -/
def find? (k : κ) : List (κ × α) → Option α
  | [] => none
  | (k', v) :: rest => if compare k k' = .eq then some v else find? k rest

/-- File a value under a key, at its place, instead of any value filed there before. -/
def insert (k : κ) (v : α) : List (κ × α) → List (κ × α)
  | [] => [(k, v)]
  | (k', v') :: rest =>
      match compare k k' with
      | .lt => (k, v) :: (k', v') :: rest
      | .eq => (k, v) :: rest
      | .gt => (k', v') :: insert k v rest

def erase (k : κ) (entries : List (κ × α)) : List (κ × α) :=
  entries.filter fun e => !(compare k e.1).isEq

theorem mem_insert {k : κ} {v : α} {e : κ × α} {entries : List (κ × α)}
    (h : e ∈ insert k v entries) : e = (k, v) ∨ e ∈ entries := by
  induction entries with
  | nil => exact .inl (List.mem_singleton.mp h)
  | cons head rest ih =>
      obtain ⟨k', v'⟩ := head
      rw [insert] at h
      split at h
      · exact (List.mem_cons.mp h)
      · exact (List.mem_cons.mp h).imp id (List.mem_cons_of_mem _)
      · rcases List.mem_cons.mp h with h | h
        · exact .inr (h ▸ List.mem_cons_self)
        · exact (ih h).imp id (List.mem_cons_of_mem _)

theorem ascending_insert [Std.TransOrd κ] [Std.LawfulEqOrd κ] (k : κ) (v : α)
    {entries : List (κ × α)} (h : Ascending entries) : Ascending (insert k v entries) := by
  induction entries with
  | nil => exact List.pairwise_singleton _ _
  | cons head rest ih =>
      obtain ⟨k', v'⟩ := head
      have hHead := (List.pairwise_cons.mp h).1
      have hRest := (List.pairwise_cons.mp h).2
      rw [insert]
      split
      · rename_i hlt
        refine List.pairwise_cons.mpr ⟨fun e he => ?_, h⟩
        rcases List.mem_cons.mp he with he | he
        · exact he ▸ hlt
        · exact Std.TransCmp.lt_trans hlt (hHead e he)
      · rename_i heq
        have hkey : k = k' := Std.LawfulEqCmp.eq_of_compare heq
        exact List.pairwise_cons.mpr ⟨fun e he => hkey ▸ hHead e he, hRest⟩
      · rename_i hgt
        refine List.pairwise_cons.mpr ⟨fun e he => ?_, ih hRest⟩
        rcases mem_insert he with he | he
        · exact he ▸ Std.OrientedCmp.lt_of_gt hgt
        · exact hHead e he

theorem ascending_erase (k : κ) {entries : List (κ × α)} (h : Ascending entries) :
    Ascending (erase k entries) :=
  h.filter _

theorem find?_insert [Std.TransOrd κ] [Std.LawfulEqOrd κ] [DecidableEq κ] (k k₀ : κ) (v : α)
    (entries : List (κ × α)) :
    find? k₀ (insert k v entries) = if k₀ = k then some v else find? k₀ entries := by
  induction entries with
  | nil =>
      by_cases hk : k₀ = k
      · subst hk
        simp [insert, find?]
      · have hne : compare k₀ k ≠ .eq := fun h => hk (Std.LawfulEqCmp.eq_of_compare h)
        simp [insert, find?, hk, hne]
  | cons head rest ih =>
      obtain ⟨k', v'⟩ := head
      rw [insert]
      by_cases hk : k₀ = k
      · subst hk
        split
        · simp [find?]
        · simp [find?]
        · rename_i hgt
          have hne : compare k₀ k' ≠ .eq := by rw [hgt]; decide
          simpa [find?, hne] using ih
      · have hne : compare k₀ k ≠ .eq := fun h => hk (Std.LawfulEqCmp.eq_of_compare h)
        split
        · simp [find?, hk, hne]
        · rename_i heq
          have hkey : k = k' := Std.LawfulEqCmp.eq_of_compare heq
          subst hkey
          simp [find?, hk, hne]
        · simp only [find?, ih, hk, if_false]

theorem find?_erase [Std.LawfulEqOrd κ] [DecidableEq κ] (k k₀ : κ) (entries : List (κ × α)) :
    find? k₀ (erase k entries) = if k₀ = k then none else find? k₀ entries := by
  induction entries with
  | nil => simp [erase, find?]
  | cons head rest ih =>
      obtain ⟨k', v'⟩ := head
      by_cases hkey : k = k'
      · subst hkey
        have hdrop : erase k ((k, v') :: rest) = erase k rest := by simp [erase]
        by_cases hk : k₀ = k
        · rw [hdrop, ih, if_pos hk, if_pos hk]
        · have hne : compare k₀ k ≠ .eq := fun h => hk (Std.LawfulEqCmp.eq_of_compare h)
          rw [hdrop, ih, if_neg hk, if_neg hk, find?, if_neg hne]
      · have hne : compare k k' ≠ .eq := fun h => hkey (Std.LawfulEqCmp.eq_of_compare h)
        have hkeep : erase k ((k', v') :: rest) = (k', v') :: erase k rest := by
          cases h : compare k k' <;> simp_all [erase]
        by_cases hk : k₀ = k
        · subst hk
          rw [hkeep, find?, if_neg hne, ih, if_pos rfl, if_pos rfl]
        · rw [hkeep, find?, ih, if_neg hk, if_neg hk, find?]

end Entries

/-- A finite map, listed by strictly ascending key. -/
structure OrderedMap (κ : Type u) (α : Type v) [Ord κ] where
  entries : List (κ × α)
  ascending : Ascending entries

namespace OrderedMap

variable {κ : Type u} {α : Type v} [Ord κ]

instance [BEq κ] [BEq α] : BEq (OrderedMap κ α) := ⟨fun a b => a.entries == b.entries⟩

def empty : OrderedMap κ α := ⟨[], List.Pairwise.nil⟩

instance : Inhabited (OrderedMap κ α) := ⟨empty⟩

def find? (m : OrderedMap κ α) (k : κ) : Option α := Entries.find? k m.entries

def contains (m : OrderedMap κ α) (k : κ) : Bool := (m.find? k).isSome

/-- File a value under a key instead of any value filed there before. -/
def insert [Std.TransOrd κ] [Std.LawfulEqOrd κ] (m : OrderedMap κ α) (k : κ) (v : α) :
    OrderedMap κ α :=
  ⟨Entries.insert k v m.entries, Entries.ascending_insert k v m.ascending⟩

def erase (m : OrderedMap κ α) (k : κ) : OrderedMap κ α :=
  ⟨Entries.erase k m.entries, Entries.ascending_erase k m.ascending⟩

/-- File a list of entries one after the other: the last one of a key counts. -/
def ofList [Std.TransOrd κ] [Std.LawfulEqOrd κ] (entries : List (κ × α)) : OrderedMap κ α :=
  entries.foldl (fun m e => m.insert e.1 e.2) empty

/-- Keep the entries that pass a test. -/
def filter (m : OrderedMap κ α) (keeps : κ → α → Bool) : OrderedMap κ α :=
  ⟨m.entries.filter fun e => keeps e.1 e.2, m.ascending.filter _⟩

/-- Replace every value by one that is made from it and its key. -/
def mapValues {β : Type v} (m : OrderedMap κ α) (f : κ → α → β) : OrderedMap κ β where
  entries := m.entries.map fun e => (e.1, f e.1 e.2)
  ascending := by
    rw [Ascending, List.pairwise_map]
    exact m.ascending

def keys (m : OrderedMap κ α) : List κ := m.entries.map Prod.fst

/-- The values in ascending order of their keys. -/
def values (m : OrderedMap κ α) : List α := m.entries.map Prod.snd

def size (m : OrderedMap κ α) : Nat := m.entries.length

def isEmpty (m : OrderedMap κ α) : Bool := m.entries.isEmpty

@[simp] theorem find?_empty (k : κ) : (empty : OrderedMap κ α).find? k = none := rfl

@[simp] theorem find?_insert [Std.TransOrd κ] [Std.LawfulEqOrd κ] [DecidableEq κ]
    (m : OrderedMap κ α) (k k₀ : κ) (v : α) :
    (m.insert k v).find? k₀ = if k₀ = k then some v else m.find? k₀ := by
  have h := Entries.find?_insert k k₀ v m.entries
  by_cases hk : k₀ = k <;> simp_all [find?, insert]

@[simp] theorem find?_erase [Std.LawfulEqOrd κ] [DecidableEq κ] (m : OrderedMap κ α) (k k₀ : κ) :
    (m.erase k).find? k₀ = if k₀ = k then none else m.find? k₀ := by
  have h := Entries.find?_erase k k₀ m.entries
  by_cases hk : k₀ = k <;> simp_all [find?, erase]

theorem ext {m₁ m₂ : OrderedMap κ α} (h : m₁.entries = m₂.entries) : m₁ = m₂ := by
  cases m₁
  cases m₂
  cases h
  rfl

end OrderedMap

end Autoscaling

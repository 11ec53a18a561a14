import Autoscaling.Toml.Tree
import Mathlib.Tactic.Common

/-!
# Changes in a tree of tables

Two changes at one place are one change (`Toml.Node.change_bind`), and a change at the end of a path
is a change at the end of its beginning (`Toml.Node.change_append`).  With them what a document puts
into its tree is gathered up: a field that is put into a table that was just put into its place is
put there with the table (`Toml.Node.addAt_table`), and so is a field of the last table of an array
(`Toml.Node.addAt_tables`).
-/

namespace Autoscaling

namespace Toml

namespace Node

variable {name : String} {node : Node} {fields : List (String × Node)}

/-! ## Fields -/

theorem lookup_append_self (h : fields.lookup name = none) (node : Node) :
    (fields ++ [(name, node)]).lookup name = some node := by
  rw [List.lookup_append, h]
  simp

theorem replace_cons (name : String) (node : Node) (field : String × Node)
    (fields : List (String × Node)) :
    replace name node (field :: fields) =
      (if field.1 = name then (name, node) else field) :: replace name node fields := by
  simp [replace]

theorem lookup_cons_ne {name' : String} (h : name' ≠ name) (node : Node)
    (fields : List (String × Node)) : ((name', node) :: fields).lookup name = fields.lookup name := by
  have hne : (name == name') = false := beq_eq_false_iff_ne.mpr (Ne.symm h)
  rw [List.lookup_cons, hne]

theorem lookup_replace (h : fields.lookup name ≠ none) (node : Node) :
    (replace name node fields).lookup name = some node := by
  induction fields with
  | nil => exact absurd rfl h
  | cons field fields ih =>
      obtain ⟨name', node'⟩ := field
      rw [replace_cons]
      by_cases hname : name' = name
      · rw [if_pos hname, List.lookup_cons_self]
      · rw [lookup_cons_ne hname] at h
        rw [if_neg hname, lookup_cons_ne hname, ih h]

theorem replace_replace (name : String) (node node' : Node) (fields : List (String × Node)) :
    replace name node' (replace name node fields) = replace name node' fields := by
  induction fields with
  | nil => rfl
  | cons field fields ih =>
      simp only [replace_cons, ih]
      by_cases hname : field.1 = name <;> simp [hname]

theorem replace_of_lookup (h : fields.lookup name = none) (node : Node) :
    replace name node fields = fields := by
  induction fields with
  | nil => rfl
  | cons field fields ih =>
      obtain ⟨name', node'⟩ := field
      have hname : name' ≠ name := by
        rintro rfl
        rw [List.lookup_cons_self] at h
        exact Option.some_ne_none _ h
      rw [lookup_cons_ne hname] at h
      rw [replace_cons, if_neg hname, ih h]

theorem replace_append_self (h : fields.lookup name = none) (node node' : Node) :
    replace name node' (fields ++ [(name, node)]) = fields ++ [(name, node')] := by
  have hkept := replace_of_lookup h node'
  rw [replace] at hkept ⊢
  rw [List.map_append, hkept]
  simp

/-! ## Changes -/

/-- A change of fields. -/
abbrev Change := Origin → List (String × Node) → Option (List (String × Node))

section Steps

variable (f : Change) (path : List String) (origin : Origin)

theorem change_of_none (h : fields.lookup name = none) :
    change false f (name :: path) origin fields =
      (change false f path .implied []).map fun inner =>
        fields ++ [(name, .table .implied inner)] := by
  rw [change, h, Option.map_eq_bind]
  rfl

theorem change_of_table {o : Origin} {inner : List (String × Node)}
    (h : fields.lookup name = some (.table o inner)) :
    change false f (name :: path) origin fields =
      (change false f path o inner).map fun inner => replace name (.table o inner) fields := by
  rw [change, h, Option.map_eq_bind]
  rfl

theorem change_of_tables {items : List (List (String × Node))} {last : List (String × Node)}
    (h : fields.lookup name = some (.tables items)) (hlast : items.getLast? = some last) :
    change false f (name :: path) origin fields =
      (change false f path .declared last).map fun last =>
        replace name (.tables (items.dropLast ++ [last])) fields := by
  rw [change, h, Option.map_eq_bind]
  simp only [hlast]
  rfl

end Steps

/-- The fields at the end of a path: what a change there does to the tree, and that a second change
finds what the first one left. -/
structure Spot (path : List String) (origin : Origin) (fields : List (String × Node)) where
  /-- how the table came about -/
  madeBy : Origin
  inner : List (String × Node)
  /-- the tree with other fields there -/
  put : List (String × Node) → List (String × Node)
  change_eq : ∀ f, change false f path origin fields = (f madeBy inner).map put
  change_put : ∀ f inner, change false f path origin (put inner) = (f madeBy inner).map put

/-- A path leads to a table or array of tables, or no change can be made at its end. -/
theorem exists_spot (path : List String) (origin : Origin) (fields : List (String × Node)) :
    (∀ f, change false f path origin fields = none) ∨ Nonempty (Spot path origin fields) := by
  induction path generalizing origin fields with
  | nil =>
      exact .inr ⟨origin, fields, id, fun f => Option.map_id.symm ▸ rfl, fun f inner =>
        Option.map_id.symm ▸ rfl⟩
  | cons name path ih =>
      cases hlookup : fields.lookup name with
      | none =>
          rcases ih .implied [] with hnone | ⟨⟨madeBy, inner, put, hchange, hput⟩⟩
          · refine .inl fun f => ?_
            rw [change_of_none f path origin hlookup, hnone, Option.map_none]
          · refine .inr ⟨madeBy, inner, fun inner => fields ++ [(name, .table .implied (put inner))],
              fun f => ?_, fun f inner => ?_⟩
            · rw [change_of_none f path origin hlookup, hchange, Option.map_map]
              rfl
            · rw [change_of_table f path origin (lookup_append_self hlookup _), hput,
                Option.map_map]
              refine congrArg (Option.map · _) (funext fun inner => ?_)
              exact replace_append_self hlookup _ _
      | some node =>
          have hreplaced (node : Node) : (replace name node fields).lookup name = some node :=
            lookup_replace (by simp [hlookup]) node
          cases node with
          | value v => exact .inl fun f => by simp [change, hlookup]
          | table o inner =>
              rcases ih o inner with hnone | ⟨⟨madeBy, inner, put, hchange, hput⟩⟩
              · refine .inl fun f => ?_
                rw [change_of_table f path origin hlookup, hnone, Option.map_none]
              · refine .inr ⟨madeBy, inner, fun inner => replace name (.table o (put inner)) fields,
                  fun f => ?_, fun f inner => ?_⟩
                · rw [change_of_table f path origin hlookup, hchange, Option.map_map]
                  rfl
                · rw [change_of_table f path origin (hreplaced _), hput, Option.map_map]
                  refine congrArg (Option.map · _) (funext fun inner => ?_)
                  exact replace_replace _ _ _ _
          | tables items =>
              cases hlast : items.getLast? with
              | none => exact .inl fun f => by simp [change, hlookup, hlast]
              | some last =>
                  rcases ih .declared last with hnone | ⟨⟨madeBy, inner, put, hchange, hput⟩⟩
                  · refine .inl fun f => ?_
                    rw [change_of_tables f path origin hlookup hlast, hnone, Option.map_none]
                  · refine .inr ⟨madeBy, inner, fun inner =>
                      replace name (.tables (items.dropLast ++ [put inner])) fields,
                      fun f => ?_, fun f inner => ?_⟩
                    · rw [change_of_tables f path origin hlookup hlast, hchange, Option.map_map]
                      rfl
                    · have hlast : (items.dropLast ++ [put inner]).getLast? = some (put inner) := by
                        simp
                      rw [change_of_tables f path origin (hreplaced _) hlast, hput, Option.map_map]
                      refine congrArg (Option.map · _) (funext fun inner => ?_)
                      simp [replace_replace]

/-- One change after the other. -/
def andThen (f g : Change) : Change := fun origin fields => (f origin fields).bind (g origin)

/-- Two changes at one place are one. -/
theorem change_bind (f g : Change) (path : List String) (origin : Origin)
    (fields : List (String × Node)) :
    (change false f path origin fields).bind (change false g path origin) =
      change false (andThen f g) path origin fields := by
  rcases exists_spot path origin fields with hnone | ⟨⟨madeBy, inner, put, hchange, hput⟩⟩
  · rw [hnone, hnone, Option.bind_none]
  · rw [hchange, hchange, andThen, Option.bind_map, Option.map_bind]
    exact congrArg _ (funext fun inner => hput g inner)

/-- A change that does at least what another one does. -/
theorem change_mono {f g : Change} (h : ∀ origin fields r, f origin fields = some r →
    g origin fields = some r) {path : List String} {origin : Origin}
    {fields r : List (String × Node)} (hf : change false f path origin fields = some r) :
    change false g path origin fields = some r := by
  rcases exists_spot path origin fields with hnone | ⟨⟨madeBy, inner, put, hchange, -⟩⟩
  · rw [hnone] at hf
    cases hf
  · rw [hchange] at hf ⊢
    obtain ⟨inner', hinner, hr⟩ := Option.map_eq_some_iff.mp hf
    rw [h _ _ _ hinner, Option.map_some, hr]

/-- A change that can be made where another one can. -/
theorem exists_change {f g : Change} (h : ∀ origin fields, (f origin fields).isSome = true →
    (g origin fields).isSome = true) {path : List String} {origin : Origin}
    {fields r : List (String × Node)} (hf : change false f path origin fields = some r) :
    ∃ r', change false g path origin fields = some r' := by
  rcases exists_spot path origin fields with hnone | ⟨⟨madeBy, inner, put, hchange, -⟩⟩
  · rw [hnone] at hf
    cases hf
  · rw [hchange] at hf ⊢
    obtain ⟨inner', hinner, -⟩ := Option.map_eq_some_iff.mp hf
    obtain ⟨inner'', hinner'⟩ := Option.isSome_iff_exists.mp (h madeBy inner (by simp [hinner]))
    exact ⟨put inner'', by rw [hinner', Option.map_some]⟩

/-- A change at the end of a path, seen from the path without its last name. -/
theorem change_append (f : Change) (path : List String) (name : String) (origin : Origin)
    (fields : List (String × Node)) :
    change false f (path ++ [name]) origin fields =
      change false (change false f [name]) path origin fields := by
  induction path generalizing origin fields with
  | nil => rfl
  | cons first path ih => simp only [List.cons_append, change, ih]

/-! ## Putting a field into its place -/

/-- Add a field of a new name. -/
def add (name : String) (node : Node) : Change := fun _ fields =>
  if (fields.lookup name).isNone then some (fields ++ [(name, node)]) else none

/-- Add a field to the table at the end of a path of a document. -/
def addAt (path : List String) (name : String) (node : Node) (fields : List (String × Node)) :
    Option (List (String × Node)) :=
  change false (add name node) path .declared fields

variable {path : List String} {placed placed' : List (String × Node)}

/-- Whether a field can be added does not depend on what it holds. -/
theorem exists_addAt (h : addAt path name node placed = some placed') (node' : Node) :
    ∃ r, addAt path name node' placed = some r := by
  refine exists_change (fun origin fields hadd => ?_) h
  simp only [add] at hadd ⊢
  split_ifs at hadd ⊢ <;> simp_all

/-- What is changed in a field that was just added is added with it. -/
theorem change_addAt (h : addAt path name node placed = some placed') {f : Change}
    {node' : Node} (hf : ∀ origin fields, fields.lookup name = none →
      f origin (fields ++ [(name, node)]) = some (fields ++ [(name, node')])) :
    change false f path .declared placed' = addAt path name node' placed := by
  have hbind := change_bind (add name node) f path .declared placed
  rw [show change false (add name node) path .declared placed = some placed' from h,
    Option.bind_some] at hbind
  rw [hbind, addAt]
  congr 1
  funext origin fields
  simp only [andThen, add]
  split_ifs with hname
  · exact hf origin fields (by simpa using hname)
  · rfl

/-- A field is added to a table that was just added. -/
theorem addAt_table {origin : Origin} {inner : List (String × Node)} {name' : String}
    (h : addAt path name (.table origin inner) placed = some placed')
    (hname : inner.lookup name' = none) (node' : Node) :
    addAt (path ++ [name]) name' node' placed' =
      addAt path name (.table origin (inner ++ [(name', node')])) placed := by
  rw [addAt, change_append]
  refine change_addAt h fun o fields hfields => ?_
  rw [change_of_table _ _ _ (lookup_append_self hfields _)]
  simp [change, add, hname, replace_append_self hfields]

/-- A field is added to the last table of an array that was just added. -/
theorem addAt_tables {items : List (List (String × Node))} {inner : List (String × Node)}
    {name' : String} (h : addAt path name (.tables (items ++ [inner])) placed = some placed')
    (hname : inner.lookup name' = none) (node' : Node) :
    addAt (path ++ [name]) name' node' placed' =
      addAt path name (.tables (items ++ [inner ++ [(name', node')]])) placed := by
  rw [addAt, change_append]
  refine change_addAt h fun o fields hfields => ?_
  have hlast : (items ++ [inner]).getLast? = some inner := by simp
  rw [change_of_tables _ _ _ (lookup_append_self hfields _) hlast]
  simp [change, add, hname, replace_append_self hfields]

/-- A field with a longer path implies a table. -/
theorem addAt_implied {name' : String} (h : addAt path name node placed = some placed')
    (node' : Node) :
    addAt (path ++ [name]) name' node' placed =
      addAt path name (.table .implied [(name', node')]) placed := by
  obtain ⟨r, hr⟩ := exists_addAt h (.table .implied [(name', node')])
  rw [hr, addAt, change_append]
  refine change_mono (fun origin fields r hadd => ?_) hr
  simp only [add] at hadd
  split_ifs at hadd with hname
  rw [change_of_none _ _ _ (Option.isNone_iff_eq_none.mp hname), ← hadd]
  rfl

/-- A table that a header declares is added. -/
theorem declare_eq {inner : List (String × Node)}
    (h : addAt path name (.table .declared inner) placed = some placed') :
    declare path name inner placed = some placed' := by
  refine change_mono (fun origin fields r hadd => ?_) h
  simp only [add] at hadd
  split_ifs at hadd with hname
  rw [Option.isNone_iff_eq_none] at hname
  rw [hname]
  exact hadd

/-- The first table of an array is added. -/
theorem append_eq {inner : List (String × Node)}
    (h : addAt path name (.tables [inner]) placed = some placed') :
    append path name inner placed = some placed' := by
  refine change_mono (fun origin fields r hadd => ?_) h
  simp only [add] at hadd
  split_ifs at hadd with hname
  rw [Option.isNone_iff_eq_none] at hname
  rw [hname]
  exact hadd

/-- A further table is added to an array. -/
theorem append_addAt {items : List (List (String × Node))}
    (h : addAt path name (.tables items) placed = some placed') (inner : List (String × Node)) :
    append path name inner placed' = addAt path name (.tables (items ++ [inner])) placed := by
  refine change_addAt h fun o fields hfields => ?_
  simp [lookup_append_self hfields, replace_append_self hfields]

theorem impliedAt?_of_change {origin : Origin} {r : List (String × Node)}
    (h : change false (add name node) path origin fields = some r) :
    impliedAt? (path ++ [name]) fields = none := by
  induction path generalizing origin fields r with
  | nil =>
      simp only [change, add] at h
      split_ifs at h with hname
      simp only [List.nil_append, impliedAt?, Option.isNone_iff_eq_none.mp hname]
  | cons first path ih =>
      have hlonger : (path ++ [name]).isEmpty = false := by simp
      cases hlookup : fields.lookup first with
      | none => simp [impliedAt?, hlookup]
      | some node' =>
          cases node' with
          | value v => simp [impliedAt?, hlookup]
          | table o inner =>
              rw [change_of_table _ _ _ hlookup] at h
              obtain ⟨inner', hinner, -⟩ := Option.map_eq_some_iff.mp h
              simp [impliedAt?, hlookup, ih hinner]
          | tables items =>
              cases hlast : items.getLast? with
              | none => simp [impliedAt?, hlookup, hlast]
              | some last =>
                  rw [change_of_tables _ _ _ hlookup hlast] at h
                  obtain ⟨inner', hinner, -⟩ := Option.map_eq_some_iff.mp h
                  simp [impliedAt?, hlookup, hlast, ih hinner]

/-- What can be added is not there yet, not even as an implied table. -/
theorem impliedAt?_eq_none (h : addAt path name node placed = some placed') :
    impliedAt? (path ++ [name]) placed = none :=
  impliedAt?_of_change h

end Node

end Toml

end Autoscaling

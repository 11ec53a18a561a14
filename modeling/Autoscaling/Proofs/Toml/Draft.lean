import Autoscaling.Proofs.Toml.Tree
import Autoscaling.Proofs.Toml.Value

/-!
# Lines of a document are put together

The lines of a written document (`Toml.statementsOf`) make a tree that has the plain values of every
table before its tables (`Toml.ofStatements_statementsOf`).

The invariant is about the tree with the current table in place.  If a section can be added to that
tree, its lines add it (`Toml.addsField`); so the lines of one section after the other add
them all.
-/

namespace Autoscaling

namespace Toml

/-! ## The lines of a document -/

/-- The fields of a table that stand on a line each. -/
def plainFields (fields : List (String × Toml)) : List (String × Toml) :=
  fields.filter fun field => !isUnderHeader field.2

/-- Whether a table has a header of its own. -/
def hasHeader (fields : List (String × Toml)) : Bool :=
  fields.isEmpty || fields.any fun field => !isUnderHeader field.2

def bodyStatements (fields : List (String × Toml)) : List Statement :=
  (pairsOf (plainFields fields)).map .pair

mutual

/-- The lines of the tables and arrays of tables among the fields of the table at a path. -/
def sectionStatements (path : List String) : List (String × Toml) → List Statement
  | [] => []
  | (name, value) :: rest => fieldStatements path name value ++ sectionStatements path rest

/-- The lines of a table or an array of tables. -/
def fieldStatements (path : List String) (name : String) : Toml → List Statement
  | .table fields =>
      (if hasHeader fields then .table path name :: bodyStatements fields else []) ++
        sectionStatements (path ++ [name]) fields
  | .array items => if items.all isTable then elementStatements path name items else []
  | _ => []

/-- The lines of the elements of an array of tables. -/
def elementStatements (path : List String) (name : String) : List Toml → List Statement
  | [] => []
  | .table fields :: rest =>
      .element path name :: bodyStatements fields ++ sectionStatements (path ++ [name]) fields ++
        elementStatements path name rest
  | _ :: rest => elementStatements path name rest

end

/-- The lines of a document. -/
def statementsOf (fields : List (String × Toml)) : List Statement :=
  bodyStatements fields ++ sectionStatements [] fields

/-! ## The tree of a document -/

mutual

/-- A value that stands in its place. -/
def nodeOf : Toml → Node
  | .table fields =>
      .table (if hasHeader fields then .declared else .implied)
        (valuesOf (plainFields fields) ++ sectionNodes fields)
  | .array items => .tables (elementNodes items)
  | v => .value v

/-- The tables and arrays of tables among fields. -/
def sectionNodes : List (String × Toml) → List (String × Node)
  | [] => []
  | (name, value) :: rest =>
      if isUnderHeader value then (name, nodeOf value) :: sectionNodes rest else sectionNodes rest

def elementNodes : List Toml → List (List (String × Node))
  | [] => []
  | .table fields :: rest =>
      (valuesOf (plainFields fields) ++ sectionNodes fields) :: elementNodes rest
  | _ :: rest => elementNodes rest

end

/-- The fields of a table: plain values first, then tables. -/
def nodesOf (fields : List (String × Toml)) : List (String × Node) :=
  valuesOf (plainFields fields) ++ sectionNodes fields

theorem names_sectionNodes (fields : List (String × Toml)) :
    (sectionNodes fields).map Prod.fst =
      (fields.filter fun field => isUnderHeader field.2).map Prod.fst := by
  induction fields with
  | nil => rfl
  | cons field fields ih =>
      obtain ⟨name, value⟩ := field
      rw [sectionNodes]
      split_ifs with h <;> simp [h, ih]

theorem names_valuesOf (fields : List (String × Toml)) :
    (valuesOf fields).map Prod.fst = fields.map Prod.fst := by
  simp [valuesOf]

/-- No name occurs twice among the fields in their new order. -/
theorem nodup_nodesOf {fields : List (String × Toml)} (h : (fields.map Prod.fst).Nodup) :
    ((valuesOf (plainFields fields)).map Prod.fst ++ (sectionNodes fields).map Prod.fst).Nodup := by
  have hperm := (List.filter_append_perm (fun field => isUnderHeader field.2) fields).map Prod.fst
  rw [List.map_append] at hperm
  rw [names_sectionNodes, names_valuesOf, plainFields]
  exact (List.perm_append_comm.trans hperm).nodup_iff.mpr h

/-! ## One section after the other -/

namespace Node

/-- Add several fields to the table at the end of a path. -/
def addAllAt (path : List String) :
    List (String × Node) → List (String × Node) → Option (List (String × Node))
  | [], placed => some placed
  | (name, node) :: rest, placed => (addAt path name node placed).bind (addAllAt path rest)

variable {path : List String} {name : String} {placed placed' : List (String × Node)}

theorem lookup_eq_none_of_nodup {inner rest : List (String × Node)} {field : String × Node}
    (h : (inner.map Prod.fst ++ (field :: rest).map Prod.fst).Nodup) :
    inner.lookup field.1 = none := by
  rw [List.lookup_eq_none_iff]
  intro other hother
  refine bne_iff_ne.mpr fun hname => ?_
  refine List.disjoint_of_nodup_append h (List.mem_map_of_mem hother) ?_
  simp [hname]

/-- Fields are added to a node that was just added, if single ones are. -/
theorem addAllAt_inner (holding : List (String × Node) → Node)
    (hfield : ∀ {inner placed' name'}, addAt path name (holding inner) placed = some placed' →
      inner.lookup name' = none → ∀ node',
        addAt (path ++ [name]) name' node' placed' =
          addAt path name (holding (inner ++ [(name', node')])) placed)
    (nodes inner : List (String × Node))
    (h : addAt path name (holding inner) placed = some placed')
    (hnodup : (inner.map Prod.fst ++ nodes.map Prod.fst).Nodup) :
    addAllAt (path ++ [name]) nodes placed' =
      addAt path name (holding (inner ++ nodes)) placed := by
  induction nodes generalizing inner placed' with
  | nil => rw [addAllAt, List.append_nil, h]
  | cons field nodes ih =>
      obtain ⟨name', node⟩ := field
      obtain ⟨placed'', hadd⟩ := exists_addAt h (holding (inner ++ [(name', node)]))
      rw [addAllAt, hfield h (lookup_eq_none_of_nodup hnodup) node, hadd, Option.bind_some,
        ih _ hadd (by simpa using hnodup), List.append_assoc]
      rfl

/-- Fields are added to a table that was just added. -/
theorem addAllAt_table {origin : Origin} (nodes inner : List (String × Node))
    (h : addAt path name (.table origin inner) placed = some placed')
    (hnodup : (inner.map Prod.fst ++ nodes.map Prod.fst).Nodup) :
    addAllAt (path ++ [name]) nodes placed' =
      addAt path name (.table origin (inner ++ nodes)) placed :=
  addAllAt_inner (fun inner => .table origin inner) addAt_table nodes inner h hnodup

/-- Fields are added to the last table of an array that was just added. -/
theorem addAllAt_tables {items : List (List (String × Node))} (nodes inner : List (String × Node))
    (h : addAt path name (.tables (items ++ [inner])) placed = some placed')
    (hnodup : (inner.map Prod.fst ++ nodes.map Prod.fst).Nodup) :
    addAllAt (path ++ [name]) nodes placed' =
      addAt path name (.tables (items ++ [inner ++ nodes])) placed :=
  addAllAt_inner (fun inner => .tables (items ++ [inner])) addAt_tables nodes inner h hnodup

/-- The first of several fields with a longer path implies a table. -/
theorem addAllAt_implied {node : Node} {nodes : List (String × Node)} (hne : nodes ≠ [])
    (h : addAt path name node placed = some placed') (hnodup : (nodes.map Prod.fst).Nodup) :
    addAllAt (path ++ [name]) nodes placed = addAt path name (.table .implied nodes) placed := by
  cases nodes with
  | nil => exact absurd rfl hne
  | cons field nodes =>
      obtain ⟨name', node'⟩ := field
      obtain ⟨placed'', hadd⟩ := exists_addAt h (.table .implied [(name', node')])
      rw [addAllAt, addAt_implied h, hadd, Option.bind_some,
        addAllAt_table nodes _ hadd (by simpa using hnodup)]
      rfl

end Node

/-! ## Steps -/

namespace Draft

variable {path : List String} {name : String} {placed placed' placed'' : List (String × Node)}

theorem steps_append (first second : List Statement) (d : Draft) :
    steps (first ++ second) d = (steps first d).bind (steps second) := by
  induction first generalizing d with
  | nil => rfl
  | cons statement first ih =>
      simp only [List.cons_append, steps, Option.bind_eq_bind]
      cases d.step statement with
      | none => rfl
      | some d => exact ih d

/-- The lines bring the tree, with the current table in place, from one state into another. -/
def Adds (statements : List Statement) (placed placed' : List (String × Node)) : Prop :=
  ∀ d : Draft, d.close = some placed → ∃ d', steps statements d = some d' ∧ d'.close = some placed'

theorem Adds.nil : Adds [] placed placed := fun d hd => ⟨d, rfl, hd⟩

theorem Adds.append {first second : List Statement} (h : Adds first placed placed')
    (h' : Adds second placed' placed'') : Adds (first ++ second) placed placed'' := by
  intro d hd
  obtain ⟨d', hsteps, hclose⟩ := h d hd
  obtain ⟨d'', hsteps', hclose'⟩ := h' d' hclose
  exact ⟨d'', by rw [steps_append, hsteps, Option.bind_some, hsteps'], hclose'⟩

/-- Plain values are put into the current table. -/
theorem steps_pairs (fields : List (String × Toml)) (d : Draft)
    (h : (d.fields.map Prod.fst ++ fields.map Prod.fst).Nodup) :
    steps ((pairsOf fields).map .pair) d =
      some { d with fields := d.fields ++ valuesOf fields } := by
  induction fields generalizing d with
  | nil => simp [pairsOf, valuesOf, steps]
  | cons field fields ih =>
      obtain ⟨name, value⟩ := field
      have hname : name ∉ d.fields.map Prod.fst := fun hmem =>
        List.disjoint_of_nodup_append h hmem (by simp)
      have hothers := ih { d with fields := d.fields ++ [(name, .value value)] } (by simpa using h)
      rw [pairsOf_cons, valuesOf_cons, List.map_cons, steps, step]
      simpa [put_value hname] using hothers

theorem nodup_plainFields {fields : List (String × Toml)} (h : (fields.map Prod.fst).Nodup) :
    ((plainFields fields).map Prod.fst).Nodup :=
  (List.filter_sublist.map Prod.fst).nodup h

/-- A header and the plain values under it. -/
theorem adds_table {fields : List (String × Toml)} (hnodup : (fields.map Prod.fst).Nodup)
    (h : Node.addAt path name (.table .declared (valuesOf (plainFields fields))) placed =
      some placed') :
    Adds (.table path name :: bodyStatements fields) placed placed' := by
  intro d hd
  have hpairs := steps_pairs (plainFields fields) ⟨placed, .table path name, []⟩
    (by simpa using nodup_plainFields hnodup)
  refine ⟨⟨placed, .table path name, valuesOf (plainFields fields)⟩, ?_, Node.declare_eq h⟩
  simp only [steps, step, hd, Node.impliedAt?_eq_none h, Option.bind_eq_bind, Option.bind_some,
    Option.getD_none]
  exact hpairs

/-- The header of an element and the plain values under it. -/
theorem adds_element {fields : List (String × Toml)} (hnodup : (fields.map Prod.fst).Nodup)
    (h : Node.append path name (valuesOf (plainFields fields)) placed = some placed') :
    Adds (.element path name :: bodyStatements fields) placed placed' := by
  intro d hd
  have hpairs := steps_pairs (plainFields fields) ⟨placed, .element path name, []⟩
    (by simpa using nodup_plainFields hnodup)
  refine ⟨⟨placed, .element path name, valuesOf (plainFields fields)⟩, ?_, h⟩
  simp only [steps, step, hd, Option.bind_eq_bind, Option.bind_some]
  exact hpairs

end Draft

open Node Draft

/-- A section under a header adds its table or array. -/
def AddsField (path : List String) (name : String) (v : Toml) : Prop :=
  ∀ placed placed', addAt path name (nodeOf v) placed = some placed' →
    Adds (fieldStatements path name v) placed placed'

def AddsSections (path : List String) (fields : List (String × Toml)) : Prop :=
  ∀ placed placed', addAllAt path (sectionNodes fields) placed = some placed' →
    Adds (sectionStatements path fields) placed placed'

theorem plainFields_of_not_hasHeader {fields : List (String × Toml)}
    (h : ¬ hasHeader fields = true) : plainFields fields = [] ∧ sectionNodes fields ≠ [] := by
  simp only [hasHeader, Bool.or_eq_true, List.any_eq_true, not_or, not_exists, not_and] at h
  obtain ⟨hne, hunder⟩ := h
  refine ⟨List.filter_eq_nil_iff.mpr hunder, ?_⟩
  cases fields with
  | nil => exact absurd rfl hne
  | cons field fields =>
      obtain ⟨name, value⟩ := field
      have hvalue : isUnderHeader value = true := by simpa using hunder (name, value) (by simp)
      simp [sectionNodes, hvalue]

/-- A table is added with its header, if it has one, and then field by field. -/
theorem addsField_table {path : List String} {name : String} {fields : List (String × Toml)}
    (hnodup : (fields.map Prod.fst).Nodup) (h : AddsSections (path ++ [name]) fields) :
    AddsField path name (.table fields) := by
  intro placed placed' hadd
  have hnames := nodup_nodesOf hnodup
  rw [nodeOf] at hadd
  rw [fieldStatements]
  split_ifs at hadd ⊢ with hheader
  · obtain ⟨placed₁, hplain⟩ := exists_addAt hadd (.table .declared (valuesOf (plainFields fields)))
    have hsections := addAllAt_table (sectionNodes fields) _ hplain hnames
    exact (adds_table hnodup hplain).append (h _ _ (hsections.trans hadd))
  · obtain ⟨hplain, hne⟩ := plainFields_of_not_hasHeader hheader
    rw [hplain] at hadd hnames
    have hsections := addAllAt_implied hne hadd (by simpa [valuesOf] using hnames)
    exact h _ _ (hsections.trans hadd)

/-- The elements of an array are added one after the other.  `items` are those that are in place;
with none in place the array is not there yet. -/
def AddsElements (path : List String) (name : String) (elements : List Toml) : Prop :=
  ∀ items placed placed' placed'' , (elements = [] → placed' = placed'') →
    (∀ inner, append path name inner placed' = addAt path name (.tables (items ++ [inner])) placed) →
      addAt path name (.tables (items ++ elementNodes elements)) placed = some placed'' →
        Adds (elementStatements path name elements) placed' placed''

theorem addsElements_nil (path : List String) (name : String) : AddsElements path name [] := by
  intro items placed placed' placed'' hdone _ _
  rw [elementStatements, hdone rfl]
  exact Adds.nil

theorem addsElements_cons {path : List String} {name : String} {fields : List (String × Toml)}
    {rest : List Toml} (hnodup : (fields.map Prod.fst).Nodup)
    (h : AddsSections (path ++ [name]) fields) (hrest : AddsElements path name rest) :
    AddsElements path name (.table fields :: rest) := by
  intro items placed placed' placed'' _ happend hadd
  rw [elementNodes] at hadd
  obtain ⟨placed₁, hplain⟩ :=
    exists_addAt hadd (.tables (items ++ [valuesOf (plainFields fields)]))
  obtain ⟨placed₂, hfull⟩ := exists_addAt hadd (.tables (items ++ [nodesOf fields]))
  have hsections := addAllAt_tables (sectionNodes fields) _ hplain (nodup_nodesOf hnodup)
  have hothers := hrest (items ++ [nodesOf fields]) placed placed₂ placed'' (fun hnil => ?_)
    (append_addAt hfull) (by simpa [nodesOf] using hadd)
  · rw [elementStatements]
    exact ((adds_element hnodup ((happend _).trans hplain)).append
      (h _ _ (hsections.trans hfull))).append hothers
  · subst hnil
    rw [elementNodes] at hadd
    exact Option.some.inj (hfull.symm.trans hadd)

theorem addsField_array {path : List String} {name : String} {items : List Toml}
    (hunder : isUnderHeader (.array items) = true) (h : AddsElements path name items) :
    AddsField path name (.array items) := by
  intro placed placed' hadd
  rw [isUnderHeader, Bool.and_eq_true] at hunder
  rw [nodeOf] at hadd
  rw [fieldStatements, if_pos hunder.2]
  refine h [] placed placed placed' (fun hnil => ?_) (fun inner => ?_) hadd
  · simp [hnil] at hunder
  · obtain ⟨r, hr⟩ := exists_addAt hadd (.tables [inner])
    rw [List.nil_append, hr, append_eq hr]

/-- A plain value has no lines of its own. -/
theorem fieldStatements_of_plain (path : List String) (name : String) {v : Toml}
    (h : isUnderHeader v = false) : fieldStatements path name v = [] := by
  cases v with
  | table fields => cases h
  | array items =>
      rw [fieldStatements]
      split_ifs with htables
      · cases items with
        | nil => rfl
        | cons item items => simp [isUnderHeader, htables] at h
      · rfl
  | _ => simp [fieldStatements]

mutual

/-- A section can be written under a header wherever it can be added. -/
theorem addsField : (v : Toml) → Regular v → isUnderHeader v = true →
    ∀ path name, AddsField path name v
  | .table fields, h, _, path, name => by
      rw [Regular] at h
      exact addsField_table h.1 (addsSections fields h.2 (path ++ [name]))
  | .array items, h, hunder, path, name => by
      rw [Regular] at h
      have htables : items.all isTable = true := by
        rw [isUnderHeader, Bool.and_eq_true] at hunder
        exact hunder.2
      exact addsField_array hunder (addsElements items h htables path name)
  | .str _, _, hunder, _, _ => by cases hunder
  | .int _, _, hunder, _, _ => by cases hunder
  | .float _, _, hunder, _, _ => by cases hunder
  | .bool _, _, hunder, _, _ => by cases hunder
  | .moment _, _, hunder, _, _ => by cases hunder

theorem addsSections : (fields : List (String × Toml)) → RegularFields fields →
    ∀ path, AddsSections path fields
  | [], _, path => by
      intro placed placed' hadd
      rw [sectionNodes, addAllAt] at hadd
      rw [sectionStatements, Option.some.inj hadd]
      exact Adds.nil
  | (name, v) :: rest, h, path => by
      rw [RegularFields] at h
      have hothers := addsSections rest h.2 path
      intro placed placed' hadd
      rw [sectionNodes] at hadd
      rw [sectionStatements]
      split_ifs at hadd with hunder
      · obtain ⟨placed₁, hfield, hadd⟩ := Option.bind_eq_some_iff.mp hadd
        exact (addsField v h.1 hunder path name placed placed₁ hfield).append
          (hothers _ _ hadd)
      · rw [fieldStatements_of_plain path name (by simpa using hunder)]
        exact hothers placed placed' hadd

theorem addsElements : (items : List Toml) → RegularItems items → items.all isTable = true →
    ∀ path name, AddsElements path name items
  | [], _, _, path, name => addsElements_nil path name
  | .table fields :: rest, h, htables, path, name => by
      rw [RegularItems, Regular] at h
      exact addsElements_cons h.1.1 (addsSections fields h.1.2 (path ++ [name]))
        (addsElements rest h.2 (by simpa [isTable] using htables) path name)
  | .array _ :: _, _, htables, _, _ => by simp [isTable] at htables
  | .str _ :: _, _, htables, _, _ => by simp [isTable] at htables
  | .int _ :: _, _, htables, _, _ => by simp [isTable] at htables
  | .float _ :: _, _, htables, _, _ => by simp [isTable] at htables
  | .bool _ :: _, _, htables, _, _ => by simp [isTable] at htables
  | .moment _ :: _, _, htables, _, _ => by simp [isTable] at htables

end

/-- At the root of a document every field of a new name can be added. -/
theorem addAllAt_root (nodes placed : List (String × Node))
    (hnodup : (placed.map Prod.fst ++ nodes.map Prod.fst).Nodup) :
    addAllAt [] nodes placed = some (placed ++ nodes) := by
  induction nodes generalizing placed with
  | nil => rw [addAllAt, List.append_nil]
  | cons field nodes ih =>
      have hname := lookup_eq_none_of_nodup hnodup
      have hadd : addAt [] field.1 field.2 placed = some (placed ++ [field]) := by
        simp [addAt, change, add, hname]
      rw [addAllAt, hadd, Option.bind_some, ih _ (by simpa using hnodup), List.append_assoc]
      rfl

/-- The lines of a document make its tree. -/
theorem ofStatements_statementsOf {fields : List (String × Toml)}
    (hnodup : (fields.map Prod.fst).Nodup) (h : RegularFields fields) :
    ofStatements (statementsOf fields) = some (fieldsToToml (nodesOf fields)) := by
  have hbody := steps_pairs (plainFields fields) .empty
    (by simpa [Draft.empty] using nodup_plainFields hnodup)
  have hadd := addAllAt_root _ _ (nodup_nodesOf hnodup)
  obtain ⟨d, hsteps, hclose⟩ := addsSections fields h [] _ _ hadd
    ⟨[], .root, valuesOf (plainFields fields)⟩ rfl
  rw [ofStatements, statementsOf, steps_append, bodyStatements, hbody, Option.bind_some]
  simp [Draft.empty, hsteps, hclose, nodesOf]

end Toml

end Autoscaling

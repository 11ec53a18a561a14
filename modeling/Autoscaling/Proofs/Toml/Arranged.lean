import Autoscaling.Proofs.Decode.Reads
import Autoscaling.Proofs.Toml.Document

/-!
# The order of fields does not matter

A document that is read back lists the plain values of a table before its tables.  The JSON value
that it stands for has the same canonical form as that of the document that was written
(`Toml.canonical_arrangedValue`).
-/

namespace Autoscaling

namespace Toml

/-! ## Arranged fields -/

/-- A value as it is read in the place of a field. -/
def arrangedValue (v : Toml) : Toml := if isUnderHeader v then (nodeOf v).toToml else v

theorem fieldsToToml_append (nodes nodes' : List (String × Node)) :
    Node.fieldsToToml (nodes ++ nodes') = Node.fieldsToToml nodes ++ Node.fieldsToToml nodes' := by
  induction nodes with
  | nil => rfl
  | cons field nodes ih =>
      obtain ⟨name, node⟩ := field
      rw [List.cons_append, Node.fieldsToToml, Node.fieldsToToml, ih, List.cons_append]

theorem fieldsToToml_plainFields (fields : List (String × Toml)) :
    Node.fieldsToToml (valuesOf (plainFields fields)) =
      (fields.filter fun field => !isUnderHeader field.2).map fun field =>
        (field.1, arrangedValue field.2) := by
  rw [fieldsToToml_valuesOf, plainFields]
  refine (List.map_id _).symm.trans (List.map_congr_left fun field hfield => ?_)
  have hvalue : isUnderHeader field.2 = false := by simpa using (List.mem_filter.mp hfield).2
  simp [arrangedValue, hvalue]

theorem fieldsToToml_sectionNodes (fields : List (String × Toml)) :
    Node.fieldsToToml (sectionNodes fields) =
      (fields.filter fun field => isUnderHeader field.2).map fun field =>
        (field.1, arrangedValue field.2) := by
  induction fields with
  | nil => rfl
  | cons field fields ih =>
      obtain ⟨name, v⟩ := field
      rw [sectionNodes]
      split_ifs with hunder
      · have hvalue : arrangedValue v = (nodeOf v).toToml := if_pos hunder
        simp [hunder, Node.fieldsToToml, hvalue, ih]
      · simp [hunder, ih]

/-- The fields that are read are those that were written, in another order. -/
theorem arranged_perm (fields : List (String × Toml)) :
    (arranged fields).Perm (fields.map fun field => (field.1, arrangedValue field.2)) := by
  rw [arranged, nodesOf, fieldsToToml_append, fieldsToToml_plainFields, fieldsToToml_sectionNodes,
    ← List.map_append]
  exact (List.perm_append_comm.trans (List.filter_append_perm _ fields)).map _

theorem names_arranged_perm (fields : List (String × Toml)) :
    ((arranged fields).map Prod.fst).Perm (fields.map Prod.fst) := by
  have hperm := (arranged_perm fields).map Prod.fst
  rwa [List.map_map] at hperm

/-! ## Canonical forms -/

theorem fieldsToJson_eq_map (fields : List (String × Toml)) :
    fieldsToJson fields = fields.map fun field => (field.1, toJson field.2) := by
  induction fields with
  | nil => rfl
  | cons field fields ih => rw [fieldsToJson, ih, List.map_cons]

theorem canonical_table (fields : List (String × Toml)) :
    (toJson (.table fields)).canonical =
      .obj (OrderedMap.ofList
        (fields.map fun field => (field.1, (toJson field.2).canonical))).entries := by
  rw [toJson, Json.canonical, Json.canonicalFields_eq, fieldsToJson_eq_map, Json.canonicalEntries,
    List.map_map]
  rfl

/-- Fields may be in any order, and their values only count by their canonical forms. -/
theorem canonical_table_congr {fields fields' : List (String × Toml)} {f : Toml → Toml}
    (hperm : fields'.Perm (fields.map fun field => (field.1, f field.2)))
    (hnodup : (fields.map Prod.fst).Nodup)
    (h : ∀ field ∈ fields, (toJson (f field.2)).canonical = (toJson field.2).canonical) :
    (toJson (.table fields')).canonical = (toJson (.table fields)).canonical := by
  have hvalues : (fields.map fun field => (field.1, f field.2)).map
      (fun field => (field.1, (toJson field.2).canonical)) =
        fields.map fun field => (field.1, (toJson field.2).canonical) := by
    rw [List.map_map]
    exact List.map_congr_left fun field hfield => congrArg (Prod.mk field.1) (h field hfield)
  have hnames : ((fields'.map fun field => (field.1, (toJson field.2).canonical)).map
      Prod.fst).Nodup := by
    have hnames := hperm.map Prod.fst
    rw [List.map_map] at hnames ⊢
    exact hnames.nodup_iff.mpr hnodup
  rw [canonical_table, canonical_table,
    OrderedMap.ofList_perm (hperm.map fun field => (field.1, (toJson field.2).canonical)) hnames,
    hvalues]

mutual

/-- A value that is read has the canonical form of the value that was written. -/
theorem canonical_arrangedValue : (v : Toml) → Regular v →
    (toJson (arrangedValue v)).canonical = (toJson v).canonical
  | .table fields, h => by
      rw [Regular] at h
      exact canonical_table_congr (arranged_perm fields) h.1 (canonical_arrangedFields fields h.2)
  | .array items, h => by
      rw [Regular] at h
      rw [arrangedValue]
      split_ifs with hunder
      · rw [isUnderHeader, Bool.and_eq_true] at hunder
        rw [nodeOf, Node.toToml, toJson, toJson, Json.canonical, Json.canonical,
          canonical_arrangedItems items h hunder.2]
      · rfl
  | .str _, _ => rfl
  | .int _, _ => rfl
  | .float _, _ => rfl
  | .bool _, _ => rfl
  | .moment _, _ => rfl

theorem canonical_arrangedFields : (fields : List (String × Toml)) → RegularFields fields →
    ∀ field ∈ fields, (toJson (arrangedValue field.2)).canonical = (toJson field.2).canonical
  | [], _ => by simp
  | (_, v) :: rest, h => by
      rw [RegularFields] at h
      exact List.forall_mem_cons.mpr
        ⟨canonical_arrangedValue v h.1, canonical_arrangedFields rest h.2⟩

theorem canonical_arrangedItems : (items : List Toml) → RegularItems items →
    items.all isTable = true →
      Json.canonicalItems (itemsToJson (Node.tablesToToml (elementNodes items))) =
        Json.canonicalItems (itemsToJson items)
  | [], _, _ => rfl
  | .table fields :: rest, h, htables => by
      rw [RegularItems, Regular] at h
      have hfields := canonical_table_congr (arranged_perm fields) h.1.1
        (canonical_arrangedFields fields h.1.2)
      have hrest := canonical_arrangedItems rest h.2 (by simpa [isTable] using htables)
      rw [elementNodes, Node.tablesToToml, itemsToJson, itemsToJson, Json.canonicalItems,
        Json.canonicalItems, hrest]
      exact congrArg (· :: _) hfields
  | .array _ :: _, _, htables => by simp [isTable] at htables
  | .str _ :: _, _, htables => by simp [isTable] at htables
  | .int _ :: _, _, htables => by simp [isTable] at htables
  | .float _ :: _, _, htables => by simp [isTable] at htables
  | .bool _ :: _, _, htables => by simp [isTable] at htables
  | .moment _ :: _, _, htables => by simp [isTable] at htables

end

end Toml

end Autoscaling

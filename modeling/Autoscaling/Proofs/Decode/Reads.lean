import Autoscaling.Config.Basic
import Autoscaling.Ordered.Lemmas
import Mathlib.Data.List.Nodup
import Mathlib.Tactic.Common

/-!
# Reading what was written

A decoder `Reads` a value as data if it answers with that data when it is given the canonical form
of the value, which is the form that payloads are kept in.  There is one lemma for each way in which
data is written: scalars, names of variants, lists, values that may be absent, and records, which
are put together field by field with the same combinators as their decoders.  None of them looks at
more than one level of a value.

The canonical form itself is known by its lookups.  Of fields with different names each is found
(`Json.find?_canonicalFields`), and a value in canonical form is its own (`Json.Canonical.eq`).
-/

namespace Autoscaling

/-! ## Canonical forms -/

namespace Json

/-- The fields with their values in canonical form. -/
def canonicalEntries (fields : List (String × Json)) : List (String × Json) :=
  fields.map fun field => (field.1, field.2.canonical)

theorem canonicalFields_eq_foldl (fields : List (String × Json)) (filed : OrderedMap String Json) :
    canonicalFields fields filed.entries =
      ((canonicalEntries fields).foldl (fun m e => m.insert e.1 e.2) filed).entries := by
  induction fields generalizing filed with
  | nil => rfl
  | cons field rest ih => exact ih (filed.insert field.1 field.2.canonical)

/-- The fields of an object are filed as those of a map. -/
theorem canonicalFields_eq (fields : List (String × Json)) :
    canonicalFields fields [] = (OrderedMap.ofList (canonicalEntries fields)).entries :=
  canonicalFields_eq_foldl fields .empty

/-- Of fields with different names each is found. -/
theorem find?_canonicalFields {fields : List (String × Json)}
    (distinct : (fields.map Prod.fst).Nodup) {name : String} {value : Json}
    (h : (name, value) ∈ fields) :
    Entries.find? name (canonicalFields fields []) = some value.canonical := by
  have hmem : (name, value.canonical) ∈ canonicalEntries fields :=
    List.mem_map_of_mem (f := fun field : String × Json => (field.1, field.2.canonical)) h
  have hdistinct : ((canonicalEntries fields).map Prod.fst).Nodup := by
    rwa [canonicalEntries, List.map_map]
  rw [canonicalFields_eq]
  show (OrderedMap.ofList (canonicalEntries fields)).find? name = _
  rw [OrderedMap.find?_ofList]
  cases hfound : (canonicalEntries fields).reverse.find? fun e => decide (name = e.1) with
  | none =>
      have hother := List.find?_eq_none.mp hfound _ (List.mem_reverse.mpr hmem)
      exact absurd (decide_eq_true rfl) hother
  | some e =>
      have hname : name = e.1 := by simpa using List.find?_some hfound
      have he : e ∈ canonicalEntries fields := List.mem_reverse.mp (List.mem_of_find?_eq_some hfound)
      have heq : e = (name, value.canonical) :=
        List.inj_on_of_nodup_map hdistinct he hmem hname.symm
      rw [heq]
      rfl

/-- A field that is not there is not found. -/
theorem find?_canonicalFields_eq_none {fields : List (String × Json)} {name : String}
    (h : name ∉ fields.map Prod.fst) :
    Entries.find? name (canonicalFields fields []) = none := by
  rw [canonicalFields_eq]
  show (OrderedMap.ofList (canonicalEntries fields)).find? name = _
  rw [OrderedMap.find?_ofList, Option.map_eq_none_iff, List.find?_eq_none]
  intro e he
  have hname : e.1 ∈ fields.map Prod.fst := by
    obtain ⟨field, hfield, rfl⟩ := List.mem_map.mp (List.mem_reverse.mp he)
    exact List.mem_map.mpr ⟨field, hfield, rfl⟩
  simpa using fun heq : name = e.1 => h (heq ▸ hname)

mutual

/-- A value in canonical form is its own canonical form. -/
theorem Canonical.eq : {value : Json} → value.Canonical → value.canonical = value
  | .arr items, h => by
      rw [canonical, CanonicalItems.eq h]
  | .obj fields, h => by
      have hentries : canonicalEntries fields = fields := CanonicalFields.eq h.2
      have hofList : OrderedMap.ofList fields = ⟨fields, h.1⟩ := OrderedMap.ofList_entries ⟨_, h.1⟩
      rw [canonical, canonicalFields_eq, hentries, hofList]
  | .null, _ => rfl
  | .bool _, _ => rfl
  | .int _, _ => rfl
  | .float _, _ => rfl
  | .str _, _ => rfl

theorem CanonicalItems.eq : {items : List Json} → CanonicalItems items →
    canonicalItems items = items
  | [], _ => rfl
  | item :: rest, h => by
      rw [canonicalItems, Canonical.eq h.1, CanonicalItems.eq h.2]

theorem CanonicalFields.eq : {fields : List (String × Json)} → CanonicalFields fields →
    canonicalEntries fields = fields
  | [], _ => rfl
  | (name, value) :: rest, h => by
      rw [canonicalEntries, List.map_cons, Canonical.eq h.1]
      exact congrArg _ (CanonicalFields.eq h.2)

end

end Json

theorem Payload.ofJson_json (p : Payload) : Payload.ofJson p.json = p := by
  obtain ⟨json, canonical⟩ := p
  simp only [ofJson, canonical.eq]

/-- A payload that stands for nothing is the absent one. -/
theorem Payload.eq_null {p : Payload} (h : p.isNull = true) : p = .null := by
  obtain ⟨json, canonical⟩ := p
  cases json with
  | null => rfl
  | _ => exact absurd h Bool.false_ne_true

/-! ## Scalars, lists and variants -/

namespace Decoder

/-- A decoder answers with the data when it is given the canonical form of the value. -/
def Reads {α : Type} (decoder : Decoder α) (dialect : Dialect) (value : Json) (x : α) : Prop :=
  decoder dialect value.canonical = .ok x

variable {α : Type} {dialect : Dialect}

theorem reads_text (s : String) : text.Reads dialect (.str s) s := rfl

/-- Integers are read as they are written, whatever is made of them. -/
theorem reads_integer {low high : Int} {name : String} {make : Int → α} {n : JsonInt} {x : α}
    (lower : low ≤ n.val) (upper : n.val < high) (hx : make n.val = x) :
    (integer low high name make).Reads dialect (.int n) x := by
  show (if low ≤ n.val ∧ n.val < high then _ else _) = _
  rw [if_pos ⟨lower, upper⟩, hx]

theorem reads_u32 (n : UInt32) : u32.Reads dialect (.ofUInt32 n) n := by
  have hn := n.toNat_lt
  refine reads_integer ?_ ?_ (by simp)
  · exact Int.natCast_nonneg _
  · exact Int.ofNat_lt.mpr hn

/-- A word of 64 bits, by whatever name messages call it. -/
theorem reads_word (name : String) (n : UInt64) :
    (integer 0 18446744073709551616 name fun n => UInt64.ofNat n.toNat).Reads dialect
      (.ofUInt64 n) n := by
  have hn := n.toNat_lt
  refine reads_integer ?_ ?_ (by simp)
  · exact Int.natCast_nonneg _
  · exact Int.ofNat_lt.mpr hn

theorem reads_u64 (n : UInt64) : u64.Reads dialect (.ofUInt64 n) n := reads_word "u64" n

theorem reads_usize (n : UInt64) : usize.Reads dialect (.ofUInt64 n) n := reads_word "usize" n

theorem reads_i64 (n : Int64) : i64.Reads dialect (.ofInt64 n) n :=
  reads_integer n.le_toInt n.toInt_lt (Int64.ofInt_toInt n)

theorem reads_f64 {x : Float} (finite : x.isFinite = true) : f64.Reads dialect (.ofFloat x) x := by
  rw [Json.ofFloat, FiniteFloat.ofFloat?, dif_pos finite]
  rfl

theorem reads_payload (p : Payload) : payload.Reads dialect p.json p := by
  show Except.ok (Payload.ofJson p.json.canonical) = _
  rw [p.canonical.eq, p.ofJson_json]

/-- The name of a variant is read as the variant. -/
theorem reads_variant {variants : List (String × α)} {name : String} {x : α}
    (h : variants.lookup name = some x) : (variant variants).Reads dialect (.str name) x := by
  show named variants name = _
  rw [named, h]

theorem reads_items {decoder : Decoder α} {write : α → Json} (xs : List α)
    (h : ∀ x ∈ xs, decoder.Reads dialect (write x) x) :
    items decoder dialect (Json.canonicalItems (xs.map write)) = .ok xs := by
  induction xs with
  | nil => rfl
  | cons x rest ih =>
      obtain ⟨hx, hrest⟩ := List.forall_mem_cons.mp h
      rw [List.map_cons, Json.canonicalItems, items, show decoder dialect _ = .ok x from hx,
        ih hrest]
      rfl

theorem reads_list {decoder : Decoder α} {write : α → Json} (xs : List α)
    (h : ∀ x ∈ xs, decoder.Reads dialect (write x) x) :
    (list decoder).Reads dialect (.ofList write xs) xs :=
  reads_items xs h

/-- A value that is there is read unless it is written as `null`. -/
theorem reads_some {decoder : Decoder α} {value : Json} {y : α}
    (h : decoder.Reads dialect value y) (hnull : value.canonical ≠ .null) :
    decoder.option.Reads dialect value (some y) := by
  rw [Reads] at h ⊢
  rw [option, h]
  · rfl
  · exact hnull

/-- A value that may be absent is read if those that are there are not written as `null`. -/
theorem reads_option {decoder : Decoder α} {write : α → Json} {x : Option α}
    (h : ∀ y ∈ x, decoder.Reads .json (write y) y ∧ (write y).canonical ≠ .null) :
    decoder.option.Reads .json (.ofOption write x) x := by
  cases x with
  | none => rfl
  | some y =>
      obtain ⟨hy, hnull⟩ := h y rfl
      exact reads_some hy hnull

end Decoder

/-! ## Records -/

namespace Fields

variable {α β : Type} {dialect : Dialect} {fields : List (String × Json)}

/-- The fields of a record are found and read among the fields of an object, if those have
different names. -/
def Reads (described : Fields α) (dialect : Dialect) (fields : List (String × Json)) (x : α) :
    Prop :=
  (fields.map Prod.fst).Nodup →
    described.ofFields dialect (Json.canonicalFields fields []) = .all x

theorem Reads.map {described : Fields α} {x : α} (f : α → β)
    (h : described.Reads dialect fields x) : (f <$> described).Reads dialect fields (f x) := by
  intro distinct
  show Found.join (.all f) (described.ofFields dialect _) = _
  rw [h distinct]
  rfl

theorem Reads.seq {first : Fields (α → β)} {second : Fields α} {f : α → β} {x : α}
    (hf : first.Reads dialect fields f) (hx : second.Reads dialect fields x) :
    (first <*> second).Reads dialect fields (f x) := by
  intro distinct
  show Found.join (first.ofFields dialect _) (second.ofFields dialect _) = _
  rw [hf distinct, hx distinct]
  rfl

/-- A field that is written. -/
theorem Reads.cell {name : String} {value : Json} {decoder : Decoder α}
    {fromObject fromList : Option α} {x : α} (hx : decoder.Reads dialect value x)
    (h : (name, value) ∈ fields) :
    (Fields.cell name decoder fromObject fromList).Reads dialect fields x := by
  intro distinct
  have hvalue : decoder dialect value.canonical = .ok x := hx
  simp only [Fields.cell, Json.find?_canonicalFields distinct h, hvalue]

/-- A field that is left out. -/
theorem Reads.default {name : String} {decoder : Decoder α} {x : α}
    (h : name ∉ fields.map Prod.fst) : (withDefault name decoder x).Reads dialect fields x := by
  intro _
  simp only [withDefault, Fields.cell, Json.find?_canonicalFields_eq_none h]

theorem Reads.absent {name : String} {decoder : Decoder α}
    (h : name ∉ fields.map Prod.fst) : (optional name decoder).Reads dialect fields none := by
  intro _
  simp only [optional, Fields.cell, Json.find?_canonicalFields_eq_none h]

theorem Reads.decoder {described : Fields α} {x : α} (h : described.Reads dialect fields x)
    (distinct : (fields.map Prod.fst).Nodup) (name : String) :
    (described.decoder name).Reads dialect (.obj fields) x := by
  rw [Decoder.Reads, Json.canonical, Fields.decoder, h distinct]

end Fields

end Autoscaling

import Autoscaling.Proofs.Decode.Reads
import Autoscaling.Proofs.Toml.Value
import Autoscaling.Store.Lemmas

/-!
# JSON values in configuration files

A JSON value has a place in a configuration file unless there is a `null` in it or an integer beyond
the signed words of 64 bits (`Toml.fails_ofJson_iff`).  If it has, it is found there again
(`Toml.toJson_ofJson`).
-/

namespace Autoscaling

namespace Json

/-- A value lies inside another one: it is an item or a field of it, or lies inside one of them. -/
inductive Inside : Json → Json → Prop
  | item {value : Json} {items : List Json} (h : value ∈ items) : Inside value (.arr items)
  | deeperItem {value item : Json} {items : List Json} (h : item ∈ items) :
      Inside value item → Inside value (.arr items)
  | field {value : Json} {name : String} {fields : List (String × Json)}
      (h : (name, value) ∈ fields) : Inside value (.obj fields)
  | deeperField {value other : Json} {name : String} {fields : List (String × Json)}
      (h : (name, other) ∈ fields) : Inside value other → Inside value (.obj fields)

/-- A value is another one or lies inside it. -/
def Within (value whole : Json) : Prop := whole = value ∨ Inside value whole

theorem inside_arr_iff {value : Json} {items : List Json} :
    Inside value (.arr items) ↔ ∃ item ∈ items, Within value item := by
  constructor
  · intro h
    cases h with
    | item h => exact ⟨value, h, .inl rfl⟩
    | deeperItem h hinside => exact ⟨_, h, .inr hinside⟩
  · rintro ⟨item, hitem, rfl | hinside⟩
    · exact .item hitem
    · exact .deeperItem hitem hinside

theorem inside_obj_iff {value : Json} {fields : List (String × Json)} :
    Inside value (.obj fields) ↔ ∃ field ∈ fields, Within value field.2 := by
  constructor
  · intro h
    cases h with
    | field h => exact ⟨_, h, .inl rfl⟩
    | deeperField h hinside => exact ⟨_, h, .inr hinside⟩
  · rintro ⟨⟨name, other⟩, hfield, rfl | hinside⟩
    · exact .field hfield
    · exact .deeperField hfield hinside

end Json

namespace Toml

open Json

/-! ## What has no place -/

/-- A value that has no place in a configuration file. -/
def Misfit (value : Json) : Prop :=
  value = .null ∨ ∃ n : JsonInt, value = .int n ∧ 9223372036854775807 < n.val

/-- Something in a value has no place. -/
def HasMisfit (whole : Json) : Prop := ∃ value, Misfit value ∧ Within value whole

theorem hasMisfit_arr_iff {items : List Json} :
    HasMisfit (.arr items) ↔ ∃ item ∈ items, HasMisfit item := by
  constructor
  · rintro ⟨value, hvalue, rfl | hinside⟩
    · exact absurd hvalue (by simp [Misfit])
    · obtain ⟨item, hitem, hwithin⟩ := inside_arr_iff.mp hinside
      exact ⟨item, hitem, value, hvalue, hwithin⟩
  · rintro ⟨item, hitem, value, hvalue, hwithin⟩
    exact ⟨value, hvalue, .inr (inside_arr_iff.mpr ⟨item, hitem, hwithin⟩)⟩

theorem hasMisfit_obj_iff {fields : List (String × Json)} :
    HasMisfit (.obj fields) ↔ ∃ field ∈ fields, HasMisfit field.2 := by
  constructor
  · rintro ⟨value, hvalue, rfl | hinside⟩
    · exact absurd hvalue (by simp [Misfit])
    · obtain ⟨field, hfield, hwithin⟩ := inside_obj_iff.mp hinside
      exact ⟨field, hfield, value, hvalue, hwithin⟩
  · rintro ⟨field, hfield, value, hvalue, hwithin⟩
    exact ⟨value, hvalue, .inr (inside_obj_iff.mpr ⟨field, hfield, hwithin⟩)⟩

/-- A value without parts has no misfit in it but itself. -/
theorem hasMisfit_iff_of_scalar {whole : Json} (h : ∀ value, ¬ Inside value whole) :
    HasMisfit whole ↔ Misfit whole := by
  constructor
  · rintro ⟨value, hvalue, hwithin⟩
    rwa [hwithin.resolve_right (h value)]
  · exact fun hmisfit => ⟨whole, hmisfit, .inl rfl⟩

section Fails

variable {ε α β : Type}

/-- There is an error in place of an answer. -/
def Fails (x : Except ε α) : Prop := ∃ e, x = .error e

theorem fails_bind_iff {x : Except ε α} {f : α → Except ε β} :
    Fails (x >>= f) ↔ Fails x ∨ ∃ a, x = .ok a ∧ Fails (f a) := by
  cases x with
  | error e => exact ⟨fun _ => .inl ⟨e, rfl⟩, fun _ => ⟨e, rfl⟩⟩
  | ok a =>
      refine ⟨fun h => .inr ⟨a, rfl, h⟩, ?_⟩
      rintro (⟨e, h⟩ | ⟨b, h, hfails⟩)
      · cases h
      · cases h
        exact hfails

theorem not_fails_ok (a : α) : ¬ Fails (.ok a : Except ε α) := by
  rintro ⟨e, h⟩
  cases h

theorem fails_map_iff {x : Except ε α} {f : α → β} : Fails (f <$> x) ↔ Fails x := by
  cases x with
  | error e => exact ⟨fun _ => ⟨e, rfl⟩, fun _ => ⟨e, rfl⟩⟩
  | ok a => exact iff_of_false (not_fails_ok (f a)) (not_fails_ok a)

theorem fails_or_ok (x : Except ε α) : Fails x ∨ ∃ a, x = .ok a := by
  cases x with
  | error e => exact .inl ⟨e, rfl⟩
  | ok a => exact .inr ⟨a, rfl⟩

/-- What comes second fails or not whatever came first. -/
theorem fails_bind_of_forall {x : Except ε α} {f : α → Except ε β} {P : Prop}
    (h : ∀ a, Fails (f a) ↔ P) : Fails (x >>= f) ↔ Fails x ∨ P := by
  rw [fails_bind_iff]
  rcases fails_or_ok x with hx | ⟨a, rfl⟩
  · exact iff_of_true (.inl hx) (.inl hx)
  · refine or_congr_right ⟨?_, fun hP => ⟨a, rfl, (h a).mpr hP⟩⟩
    rintro ⟨b, -, hb⟩
    exact (h b).mp hb

/-- Nothing can fail after what comes first. -/
theorem fails_bind_ok_iff {x : Except ε α} {f : α → β} :
    Fails (x >>= fun a => .ok (f a)) ↔ Fails x :=
  (fails_bind_of_forall fun a => iff_of_false (not_fails_ok (f a)) id).trans (or_false _).to_iff

/-- Two parts, of which the second does not depend on the first. -/
theorem fails_pair_iff {γ : Type} {x : Except ε α} {y : Except ε β} {f : α → β → γ} :
    Fails (x >>= fun a => y >>= fun b => .ok (f a b)) ↔ Fails x ∨ Fails y :=
  fails_bind_of_forall fun _ => fails_bind_ok_iff

theorem map_eq_ok_iff {x : Except ε α} {f : α → β} {b : β} :
    f <$> x = .ok b ↔ ∃ a, x = .ok a ∧ f a = b := by
  cases x with
  | error e => exact iff_of_false (by rintro ⟨⟩) (by rintro ⟨a, h, -⟩; cases h)
  | ok a =>
      refine ⟨fun h => ⟨a, rfl, Except.ok.inj h⟩, ?_⟩
      rintro ⟨a', h, rfl⟩
      cases h
      rfl

theorem pair_eq_ok_iff {γ : Type} {x : Except ε α} {y : Except ε β} {f : α → β → γ} {c : γ} :
    (x >>= fun a => y >>= fun b => .ok (f a b)) = .ok c ↔
      ∃ a b, x = .ok a ∧ y = .ok b ∧ f a b = c := by
  constructor
  · intro h
    obtain ⟨a, hx, h⟩ := bind_eq_ok_iff.mp h
    obtain ⟨b, hy, h⟩ := bind_eq_ok_iff.mp h
    exact ⟨a, b, hx, hy, Except.ok.inj h⟩
  · rintro ⟨a, b, rfl, rfl, rfl⟩
    rfl

end Fails

theorem fails_ofInt_iff (n : Int) : Fails (ofInt n) ↔ 9223372036854775807 < n := by
  rw [ofInt]
  split_ifs with h
  · exact iff_of_false (not_fails_ok _) (by omega)
  · exact iff_of_true ⟨_, rfl⟩ (by omega)

mutual

/-- What has no place is refused, and nothing else is. -/
theorem fails_ofJson_iff : (value : Json) → (Fails (ofJson value) ↔ HasMisfit value)
  | .null => iff_of_true ⟨_, rfl⟩ ⟨.null, .inl rfl, .inl rfl⟩
  | .bool b => by
      rw [hasMisfit_iff_of_scalar (by rintro _ ⟨⟩)]
      exact iff_of_false (not_fails_ok _) (by simp [Misfit])
  | .int n => by
      rw [hasMisfit_iff_of_scalar (by rintro _ ⟨⟩), ofJson, fails_ofInt_iff]
      simp [Misfit]
  | .float x => by
      rw [hasMisfit_iff_of_scalar (by rintro _ ⟨⟩)]
      exact iff_of_false (not_fails_ok _) (by simp [Misfit])
  | .str s => by
      rw [hasMisfit_iff_of_scalar (by rintro _ ⟨⟩)]
      exact iff_of_false (not_fails_ok _) (by simp [Misfit])
  | .arr items => by
      rw [ofJson, fails_map_iff, hasMisfit_arr_iff]
      exact fails_itemsOfJson_iff items
  | .obj fields => by
      rw [ofJson, fails_map_iff, hasMisfit_obj_iff]
      exact fails_fieldsOfJson_iff fields

theorem fails_itemsOfJson_iff :
    (items : List Json) → (Fails (itemsOfJson items) ↔ ∃ item ∈ items, HasMisfit item)
  | [] => iff_of_false (not_fails_ok _) (by simp)
  | item :: rest => by
      rw [itemsOfJson, fails_pair_iff, fails_ofJson_iff item, fails_itemsOfJson_iff rest,
        List.exists_mem_cons_iff]

theorem fails_fieldsOfJson_iff : (fields : List (String × Json)) →
    (Fails (fieldsOfJson fields) ↔ ∃ field ∈ fields, HasMisfit field.2)
  | [] => iff_of_false (not_fails_ok _) (by simp)
  | (name, value) :: rest => by
      rw [fieldsOfJson, fails_pair_iff, fails_ofJson_iff value, fails_fieldsOfJson_iff rest,
        List.exists_mem_cons_iff]

end

/-! ## What has a place is found there -/

theorem regular_ofInt {n : Int} {v : Toml} (h : ofInt n = .ok v) : Regular v := by
  rw [ofInt] at h
  split_ifs at h
  cases h
  simp [Regular]

theorem toJson_ofInt {n : JsonInt} {v : Toml} (h : ofInt n.val = .ok v) : toJson v = .int n := by
  rw [ofInt] at h
  split_ifs at h with hn
  cases h
  obtain ⟨n, lower, upper⟩ := n
  simp only at hn
  have hval : (Int64.ofInt n).toInt = n := Int64.toInt_ofInt_of_le (by omega) (by omega)
  simp only [toJson, Json.ofInt64, hval]

mutual

theorem toJson_ofJson : (value : Json) → ∀ v, ofJson value = .ok v → toJson v = value
  | .null, v, h => by cases h
  | .bool b, v, h => by
      cases h
      rfl
  | .int n, v, h => by
      rw [ofJson] at h
      exact toJson_ofInt h
  | .float x, v, h => by
      cases h
      rw [toJson, Json.ofFloat, FiniteFloat.ofFloat?, dif_pos x.finite]
  | .str s, v, h => by
      cases h
      rfl
  | .arr items, v, h => by
      rw [ofJson, map_eq_ok_iff] at h
      obtain ⟨vs, hvs, rfl⟩ := h
      rw [toJson, itemsToJson_itemsOfJson items vs hvs]
  | .obj fields, v, h => by
      rw [ofJson, map_eq_ok_iff] at h
      obtain ⟨vs, hvs, rfl⟩ := h
      rw [toJson, fieldsToJson_fieldsOfJson fields vs hvs]

theorem itemsToJson_itemsOfJson :
    (items : List Json) → ∀ vs, itemsOfJson items = .ok vs → itemsToJson vs = items
  | [], vs, h => by
      cases h
      rfl
  | item :: rest, vs, h => by
      rw [itemsOfJson, pair_eq_ok_iff] at h
      obtain ⟨v, others, hv, hothers, rfl⟩ := h
      rw [itemsToJson, toJson_ofJson item v hv, itemsToJson_itemsOfJson rest others hothers]

theorem fieldsToJson_fieldsOfJson :
    (fields : List (String × Json)) → ∀ vs, fieldsOfJson fields = .ok vs → fieldsToJson vs = fields
  | [], vs, h => by
      cases h
      rfl
  | (name, value) :: rest, vs, h => by
      rw [fieldsOfJson, pair_eq_ok_iff] at h
      obtain ⟨v, others, hv, hothers, rfl⟩ := h
      rw [fieldsToJson, toJson_ofJson value v hv, fieldsToJson_fieldsOfJson rest others hothers]

end

theorem names_fieldsOfJson {fields : List (String × Json)} {vs : List (String × Toml)}
    (h : fieldsOfJson fields = .ok vs) : vs.map Prod.fst = fields.map Prod.fst := by
  induction fields generalizing vs with
  | nil =>
      cases h
      rfl
  | cons field rest ih =>
      obtain ⟨name, value⟩ := field
      rw [fieldsOfJson, pair_eq_ok_iff] at h
      obtain ⟨v, others, -, hothers, rfl⟩ := h
      rw [List.map_cons, List.map_cons, ih hothers]

/-- No two fields of a canonical object have the same name. -/
theorem nodup_of_ascending {fields : List (String × Json)} (h : Ascending fields) :
    (fields.map Prod.fst).Nodup := by
  rw [List.Nodup, List.pairwise_map]
  refine h.imp fun {a b} hlt heq => ?_
  rw [heq, Std.ReflOrd.compare_self] at hlt
  cases hlt

mutual

/-- What comes of a canonical value is regular. -/
theorem regular_ofJson : (value : Json) → value.Canonical → ∀ v, ofJson value = .ok v → Regular v
  | .null, _, v, h => by cases h
  | .bool b, _, v, h => by
      cases h
      simp [Regular]
  | .int n, _, v, h => by
      rw [ofJson] at h
      exact regular_ofInt h
  | .float x, _, v, h => by
      cases h
      rw [Regular]
      exact x.finite
  | .str s, _, v, h => by
      cases h
      simp [Regular]
  | .arr items, hcanonical, v, h => by
      rw [ofJson, map_eq_ok_iff] at h
      obtain ⟨vs, hvs, rfl⟩ := h
      rw [Regular]
      exact regular_itemsOfJson items hcanonical vs hvs
  | .obj fields, hcanonical, v, h => by
      rw [ofJson, map_eq_ok_iff] at h
      obtain ⟨vs, hvs, rfl⟩ := h
      rw [Regular, names_fieldsOfJson hvs]
      exact ⟨nodup_of_ascending hcanonical.1, regular_fieldsOfJson fields hcanonical.2 vs hvs⟩

theorem regular_itemsOfJson : (items : List Json) → CanonicalItems items →
    ∀ vs, itemsOfJson items = .ok vs → RegularItems vs
  | [], _, vs, h => by
      cases h
      trivial
  | item :: rest, hcanonical, vs, h => by
      rw [itemsOfJson, pair_eq_ok_iff] at h
      obtain ⟨v, others, hv, hothers, rfl⟩ := h
      exact ⟨regular_ofJson item hcanonical.1 v hv,
        regular_itemsOfJson rest hcanonical.2 others hothers⟩

theorem regular_fieldsOfJson : (fields : List (String × Json)) → CanonicalFields fields →
    ∀ vs, fieldsOfJson fields = .ok vs → RegularFields vs
  | [], _, vs, h => by
      cases h
      trivial
  | (name, value) :: rest, hcanonical, vs, h => by
      rw [fieldsOfJson, pair_eq_ok_iff] at h
      obtain ⟨v, others, hv, hothers, rfl⟩ := h
      exact ⟨regular_ofJson value hcanonical.1 v hv,
        regular_fieldsOfJson rest hcanonical.2 others hothers⟩

end

end Toml

end Autoscaling

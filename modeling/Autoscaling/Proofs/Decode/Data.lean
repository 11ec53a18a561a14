import Autoscaling.Proofs.Decimal.Doubles
import Autoscaling.Proofs.Decode.Written
import Autoscaling.Store.Lemmas

/-!
# Types of data

The types of data that are written, each with its way of writing and its decoder.  Data of each of
them is read back from what was written, as the payload of settings with any type id.  For a
configuration this takes a tolerance that is a number; every configuration that was read has one,
because JSON has no other doubles and its integers are rounded to numbers.
-/

namespace Autoscaling

/-! ## What holds of whatever is read -/

theorem Found.join_eq_all {α β : Type} {f : Found (α → β)} {x : Found α} {y : β}
    (h : f.join x = .all y) : ∃ g a, f = .all g ∧ x = .all a ∧ g a = y := by
  cases f with
  | all g =>
      cases x with
      | all a => exact ⟨g, a, rfl, rfl, Found.all.inj h⟩
      | bad field error => cases h
      | missing field => cases h
  | bad field error =>
      cases x with
      | bad field' error' =>
          simp only [join] at h
          split at h <;> cases h
      | all a => cases h
      | missing field' => cases h
  | missing field => cases x <;> cases h

/-- Whatever a description of fields reads has a property. -/
structure Fields.Gives {α : Type} (described : Fields α) (dialect : Dialect) (P : α → Prop) :
    Prop where
  ofFields : ∀ {fields x}, described.ofFields dialect fields = .all x → P x
  ofItems : ∀ {items x rest}, described.ofItems dialect items = .ok (x, rest) → P x

namespace Fields.Gives

variable {α β : Type} {dialect : Dialect} {P : β → Prop}

theorem any (described : Fields α) : described.Gives dialect fun _ => True :=
  ⟨fun _ => trivial, fun _ => trivial⟩

theorem seq {first : Fields (α → β)} {second : Fields α} {Q : α → Prop}
    (hf : first.Gives dialect fun f => ∀ x, Q x → P (f x)) (hx : second.Gives dialect Q) :
    (first <*> second).Gives dialect P where
  ofFields {fields y} h := by
    obtain ⟨f, x, hfirst, hsecond, rfl⟩ :=
      Found.join_eq_all (show Found.join _ (second.ofFields dialect fields) = .all y from h)
    exact hf.ofFields hfirst x (hx.ofFields hsecond)
  ofItems {items y rest} h := by
    obtain ⟨⟨f, between⟩, hfirst, h⟩ := bind_eq_ok_iff.mp h
    obtain ⟨⟨x, after⟩, hsecond, h⟩ := bind_eq_ok_iff.mp h
    cases h
    exact hf.ofItems hfirst x (hx.ofItems (mapError_eq_ok_iff.mp hsecond))

/-- A field about which nothing has to be known. -/
theorem seq_any {first : Fields (α → β)} (second : Fields α)
    (hf : first.Gives dialect fun f => ∀ x, P (f x)) : (first <*> second).Gives dialect P :=
  seq ⟨fun h x _ => hf.ofFields h x, fun h x _ => hf.ofItems h x⟩ (any second)

theorem map_any {f : α → β} (described : Fields α) (h : ∀ x, P (f x)) :
    (f <$> described).Gives dialect P := by
  have hf : (pure f : Fields (α → β)).Gives dialect fun f => ∀ x, P (f x) :=
    ⟨fun hf => Found.all.inj hf ▸ h, fun hf => by cases hf; exact h⟩
  exact seq_any described hf

/-- A field with the values that stand for its absence. -/
theorem cell {name : String} {decoder : Decoder α} {fromObject fromList : Option α} {Q : α → Prop}
    (hdecoder : ∀ {value x}, decoder dialect value = .ok x → Q x)
    (hobject : ∀ x ∈ fromObject, Q x) (hlist : ∀ x ∈ fromList, Q x) :
    (Fields.cell name decoder fromObject fromList).Gives dialect Q where
  ofFields {fields x} h := by
    simp only [Fields.cell] at h
    split at h
    · split at h
      · rename_i hvalue
        cases h
        exact hdecoder hvalue
      · cases h
    · split at h
      · cases h
        exact hobject x rfl
      · cases h
  ofItems {items x rest} h := by
    simp only [Fields.cell] at h
    split at h
    · split at h
      · rename_i hvalue
        cases h
        exact hdecoder hvalue
      · cases h
    · split at h
      · cases h
        exact hlist x rfl
      · cases h

theorem decoder {described : Fields α} {Q : α → Prop} (gives : described.Gives dialect Q)
    {name : String} {value : Json} {x : α} (h : described.decoder name dialect value = .ok x) :
    Q x := by
  simp only [Fields.decoder] at h
  split at h
  · split at h
    · rename_i hfields
      cases h
      exact gives.ofFields hfields
    · cases h
    · cases h
  · split at h
    · rename_i hitems
      split at h
      · cases h
        exact gives.ofItems hitems
      · cases h
    · cases h
    · cases h
  · cases h

end Fields.Gives

theorem Decoder.isFinite_f64 {value : Json} {x : Float} (h : f64 .json value = .ok x) :
    x.isFinite = true := by
  cases value with
  | int n =>
      cases h
      exact n.isFinite
  | float x =>
      cases h
      exact x.finite
  | _ => cases h

/-- The tolerance of a configuration that was read is a number. -/
theorem Config.isFinite_tolerance {value : Json} {c : Config}
    (h : decoder .json value = .ok c) : c.tolerance.isFinite = true := by
  refine Fields.Gives.decoder (Q := fun c : Config => c.tolerance.isFinite = true) ?_ h
  -- the fields after the tolerance, the tolerance, and those before it
  refine .seq_any _ <| .seq_any _ <| .seq_any _ <| .seq (Q := fun x => x.isFinite = true) ?_ ?_
  · exact .seq_any _ <| .seq_any _ <| .seq_any _ <| .seq_any _ <| .map_any _
      fun _ _ _ _ _ _ finite _ _ _ => finite
  · have standard : (0.1 : Float).isFinite = true := by decide +kernel
    refine .cell Decoder.isFinite_f64 ?_ ?_ <;> rintro x ⟨⟩ <;> exact standard

/-! ## The types -/

/-- A way of writing data and its decoder. -/
structure Codec (α : Type) where
  write : α → Json
  decoder : Decoder α

/-- The types of data that are written. -/
inductive DataType where
  | settings | overflow | tuning | config
  | key | selectPolicy | policyKind | scalingPolicy | scalingRules | behavior | metric | spec
  | conditionType | condition | status | autoscaler
  | selector
  | viewTarget | viewMetric | viewPolicy | viewRules | viewBehavior | viewSpec | viewCondition
  | viewStatus | view
  | eventType | event
  deriving DecidableEq

namespace DataType

/-- The data of a type. -/
def Data : DataType → Type
  | settings => Settings
  | overflow => Overflow
  | tuning => Tuning
  | config => Config
  | key => Key
  | selectPolicy => SelectPolicy
  | policyKind => PolicyKind
  | scalingPolicy => ScalingPolicy
  | scalingRules => ScalingRules
  | behavior => Behavior
  | metric => Metric
  | spec => Spec
  | conditionType => ConditionType
  | condition => Condition
  | status => Status
  | autoscaler => Autoscaler
  | selector => Selector
  | viewTarget => View.Target
  | viewMetric => View.Metric
  | viewPolicy => View.Policy
  | viewRules => View.Rules
  | viewBehavior => View.Behavior
  | viewSpec => View.Spec
  | viewCondition => View.Condition
  | viewStatus => View.Status
  | view => View
  | eventType => EventType
  | event => Event

/-- How the data of a type is written and read. -/
def codec : (t : DataType) → Codec t.Data
  | settings => ⟨Settings.toJson, Settings.decoder⟩
  | overflow => ⟨Overflow.toJson, Overflow.decoder⟩
  | tuning => ⟨Tuning.toJson, Tuning.decoder⟩
  | config => ⟨Config.toJson, Config.decoder⟩
  | key => ⟨Key.toJson, Key.decoder⟩
  | selectPolicy => ⟨SelectPolicy.toJson, SelectPolicy.decoder⟩
  | policyKind => ⟨PolicyKind.toJson, PolicyKind.decoder⟩
  | scalingPolicy => ⟨ScalingPolicy.toJson, ScalingPolicy.decoder⟩
  | scalingRules => ⟨ScalingRules.toJson, ScalingRules.decoder⟩
  | behavior => ⟨Behavior.toJson, Behavior.decoder⟩
  | metric => ⟨Metric.toJson, Metric.decoder⟩
  | spec => ⟨Spec.toJson, Spec.decoder⟩
  | conditionType => ⟨ConditionType.toJson, ConditionType.decoder⟩
  | condition => ⟨Condition.toJson, Condition.decoder⟩
  | status => ⟨Status.toJson, Status.decoder⟩
  | autoscaler => ⟨Autoscaler.toJson, Autoscaler.decoder⟩
  | selector => ⟨Selector.toJson, Selector.decoder⟩
  | viewTarget => ⟨View.Target.toJson, View.Target.decoder⟩
  | viewMetric => ⟨View.Metric.toJson, View.Metric.decoder⟩
  | viewPolicy => ⟨View.Policy.toJson, View.Policy.decoder⟩
  | viewRules => ⟨View.Rules.toJson, View.Rules.decoder⟩
  | viewBehavior => ⟨View.Behavior.toJson, View.Behavior.decoder⟩
  | viewSpec => ⟨View.Spec.toJson, View.Spec.decoder⟩
  | viewCondition => ⟨View.Condition.toJson, View.Condition.decoder⟩
  | viewStatus => ⟨View.Status.toJson, View.Status.decoder⟩
  | view => ⟨View.toJson, View.decoder⟩
  | eventType => ⟨EventType.toJson, EventType.decoder⟩
  | event => ⟨Event.toJson, Event.decoder⟩

/-- Whether everything in the data has a written form: JSON has no tolerance that is infinite or no
number. -/
def IsWritable : (t : DataType) → t.Data → Prop
  | config, c => Config.tolerance c |>.isFinite
  | _, _ => True

theorem reads (t : DataType) (x : t.Data) (h : t.IsWritable x) :
    t.codec.decoder.Reads .json (t.codec.write x) x := by
  cases t with
  | settings => exact Settings.reads x
  | overflow => exact Overflow.reads x
  | tuning => exact Tuning.reads x
  | config => exact Config.reads h
  | key => exact Key.reads x
  | selectPolicy => exact SelectPolicy.reads x
  | policyKind => exact PolicyKind.reads x
  | scalingPolicy => exact ScalingPolicy.reads x
  | scalingRules => exact ScalingRules.reads x
  | behavior => exact Behavior.reads x
  | metric => exact Metric.reads x
  | spec => exact Spec.reads x
  | conditionType => exact ConditionType.reads x
  | condition => exact Condition.reads x
  | status => exact Status.reads x
  | autoscaler => exact Autoscaler.reads x
  | selector => exact Selector.reads x
  | viewTarget => exact View.Target.reads x
  | viewMetric => exact View.Metric.reads x
  | viewPolicy => exact View.Policy.reads x
  | viewRules => exact View.Rules.reads x
  | viewBehavior => exact View.Behavior.reads x
  | viewSpec => exact View.Spec.reads x
  | viewCondition => exact View.Condition.reads x
  | viewStatus => exact View.Status.reads x
  | view => exact View.reads x
  | eventType => exact EventType.reads x
  | event => exact Event.reads x

/-- Data that was read has a written form. -/
theorem isWritable_of_decoder {t : DataType} {value : Json} {x : t.Data}
    (h : t.codec.decoder .json value = .ok x) : t.IsWritable x := by
  cases t with
  | config => exact Config.isFinite_tolerance h
  | _ => trivial

theorem decode_eq_ok_iff {α : Type} {s : Settings} {decoder : Decoder α} {x : α} :
    s.decode decoder = .ok x ↔ decoder .json s.payload.json = .ok x := by
  rw [Settings.decode]
  cases decoder .json s.payload.json <;> simp

/-- Decoding undoes writing, whatever the type id is.  So data that was read from any payload, with
defaults in place of what is missing or by the position of its fields, is read again from what is
written for it. -/
theorem decode_write (t : DataType) :
    (∀ (typeId : String) (x : t.Data), t.IsWritable x →
      (Settings.mk typeId (.ofJson (t.codec.write x))).decode t.codec.decoder = .ok x) ∧
    ∀ (s : Settings) (x : t.Data), s.decode t.codec.decoder = .ok x →
      ∀ typeId : String, (Settings.mk typeId (.ofJson (t.codec.write x))).decode t.codec.decoder = .ok x := by
  have writes (typeId : String) (x : t.Data) (h : t.IsWritable x) :
      (Settings.mk typeId (.ofJson (t.codec.write x))).decode t.codec.decoder = .ok x :=
    decode_eq_ok_iff.mpr (t.reads x h)
  exact ⟨writes, fun s x h typeId => writes typeId x (isWritable_of_decoder (decode_eq_ok_iff.mp h))⟩

/-- A configuration without backends, and the tuning of a store by position and without its last
field. -/
theorem decode_write_defaults :
    (Settings.mk "hub" (.ofJson (Config.toJson ⟨none, none, none, none, 15, 0.1, 300, 1, {}⟩))).decode
        Config.decoder = .ok ⟨none, none, none, none, 15, 0.1, 300, 1, {}⟩ ∧
      (Settings.mk "store" (.ofJson (.arr [.ofNat 5]))).decode Tuning.decoder = .ok ⟨5, .disconnect⟩ ∧
      (Settings.mk "other" (.ofJson (Tuning.mk 5 .disconnect).toJson)).decode Tuning.decoder =
        .ok ⟨5, .disconnect⟩ := by
  have finite : (0.1 : Float).isFinite = true := by decide +kernel
  have positional : (Settings.mk "store" (.ofJson (.arr [.ofNat 5]))).decode Tuning.decoder =
      .ok ⟨5, .disconnect⟩ := rfl
  exact ⟨(decode_write config).1 "hub" _ finite, positional,
    (decode_write tuning).2 _ _ positional "other"⟩

end DataType

end Autoscaling

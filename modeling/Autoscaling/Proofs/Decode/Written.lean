import Autoscaling.Autoscaler.Json
import Autoscaling.Proofs.Decode.Reads
import Autoscaling.Provider.Event
import Autoscaling.View.Json

/-!
# Data that is written and read back

Every type of data that is written has its own way of writing and its own decoder.  For each of them
`reads` says that the decoder undoes the writing, field by field, whatever stands in the fields; the
lemmas for a record refer to those for its parts.
-/

namespace Autoscaling

open Decoder Fields

variable {dialect : Dialect}

/-! ## Configurations -/

theorem Settings.reads (s : Settings) : Settings.decoder.Reads dialect s.toJson s := by
  obtain ⟨typeId, payload⟩ := s
  cases hnull : payload.isNull with
  | true =>
      -- an absent payload is left out, and `null` is what stands for it
      obtain rfl : payload = .null := Payload.eq_null hnull
      have hwritten : Settings.toJson ⟨typeId, .null⟩ = .obj [("type", .str typeId)] := rfl
      rw [hwritten]
      exact Reads.map Settings.mk (.cell (reads_text _) (by simp))
        |>.seq (.default (by simp))
        |>.decoder (by simp) _
  | false =>
      simp only [Settings.toJson, hnull]
      exact Reads.map Settings.mk (.cell (reads_text _) (by simp))
        |>.seq (.cell (reads_payload _) (by simp))
        |>.decoder (by simp) _

theorem Settings.reads_option (s : Option Settings) :
    Settings.decoder.option.Reads .json (.ofOption Settings.toJson s) s :=
  Decoder.reads_option fun s _ => ⟨s.reads, nofun⟩

theorem Overflow.reads (o : Overflow) : Overflow.decoder.Reads dialect o.toJson o := by
  cases o <;> exact reads_variant rfl

theorem Tuning.reads (t : Tuning) : Tuning.decoder.Reads dialect t.toJson t :=
  Reads.map Tuning.mk (.cell (reads_usize _) (by simp))
    |>.seq (.cell t.watchOverflow.reads (by simp))
    |>.decoder (by simp) _

theorem Config.reads {c : Config} (finite : c.tolerance.isFinite = true) :
    Config.decoder.Reads .json c.toJson c :=
  Reads.map Config.mk (.cell (Settings.reads_option _) (by simp))
    |>.seq (.cell (Settings.reads_option _) (by simp))
    |>.seq (.cell (Settings.reads_option _) (by simp))
    |>.seq (.cell (Settings.reads_option _) (by simp))
    |>.seq (.cell (reads_u64 _) (by simp))
    |>.seq (.cell (reads_f64 finite) (by simp))
    |>.seq (.cell (reads_u64 _) (by simp))
    |>.seq (.cell (reads_usize _) (by simp))
    |>.seq (.cell c.store.reads (by simp))
    |>.decoder (by simp) _

/-! ## Autoscalers -/

theorem Key.reads (k : Key) : Key.decoder.Reads dialect k.toJson k :=
  Reads.map Key.mk (.cell (reads_text _) (by simp))
    |>.seq (.cell (reads_text _) (by simp))
    |>.decoder (by simp) _

theorem SelectPolicy.reads (p : SelectPolicy) : SelectPolicy.decoder.Reads dialect p.toJson p := by
  cases p <;> exact reads_variant rfl

theorem PolicyKind.reads (k : PolicyKind) : PolicyKind.decoder.Reads dialect k.toJson k := by
  cases k <;> exact reads_variant rfl

theorem ScalingPolicy.reads (p : ScalingPolicy) :
    ScalingPolicy.decoder.Reads dialect p.toJson p :=
  Reads.map ScalingPolicy.mk (.cell p.kind.reads (by simp))
    |>.seq (.cell (reads_u32 _) (by simp))
    |>.seq (.cell (reads_u32 _) (by simp))
    |>.decoder (by simp) _

theorem reads_optional_u32 (n : Option UInt32) :
    Decoder.u32.option.Reads .json (.ofOption .ofUInt32 n) n :=
  reads_option fun n _ => ⟨reads_u32 n, nofun⟩

theorem ScalingRules.reads (r : ScalingRules) : ScalingRules.decoder.Reads .json r.toJson r :=
  Reads.map ScalingRules.mk (.cell (reads_optional_u32 _) (by simp))
    |>.seq (.cell r.selectPolicy.reads (by simp))
    |>.seq (.cell (reads_list _ fun p _ => p.reads) (by simp))
    |>.decoder (by simp) _

theorem Behavior.reads (b : Behavior) : Behavior.decoder.Reads .json b.toJson b :=
  Reads.map Behavior.mk (.cell (reads_option fun r _ => ⟨r.reads, nofun⟩) (by simp))
    |>.seq (.cell (reads_option fun r _ => ⟨r.reads, nofun⟩) (by simp))
    |>.decoder (by simp) _

theorem Metric.reads (m : Metric) : Metric.decoder.Reads .json m.toJson m :=
  Reads.map Metric.mk (.cell (reads_text _) (by simp))
    |>.seq (.cell (reads_i64 _) (by simp))
    |>.seq (.cell (Settings.reads_option _) (by simp))
    |>.decoder (by simp) _

theorem Spec.reads (s : Spec) : Spec.decoder.Reads .json s.toJson s :=
  Reads.map Spec.mk (.cell (reads_text _) (by simp))
    |>.seq (.cell (reads_text _) (by simp))
    |>.seq (.cell (reads_optional_u32 _) (by simp))
    |>.seq (.cell (reads_u32 _) (by simp))
    |>.seq (.cell (reads_list _ fun m _ => m.reads) (by simp))
    |>.seq (.cell (Settings.reads_option _) (by simp))
    |>.seq (.cell (reads_option fun b _ => ⟨b.reads, nofun⟩) (by simp))
    |>.decoder (by simp) _

theorem ConditionType.reads (c : ConditionType) :
    ConditionType.decoder.Reads dialect c.toJson c := by
  cases c <;> exact reads_variant rfl

theorem Condition.reads (c : Condition) : Condition.decoder.Reads dialect c.toJson c :=
  Reads.map Condition.mk (.cell c.type.reads (by simp))
    |>.seq (.cell (reads_text _) (by simp))
    |>.seq (.cell (reads_u64 _) (by simp))
    |>.seq (.cell (reads_text _) (by simp))
    |>.seq (.cell (reads_text _) (by simp))
    |>.decoder (by simp) _

theorem Status.reads (s : Status) : Status.decoder.Reads .json s.toJson s :=
  Reads.map Status.mk (.cell (reads_optional_u32 _) (by simp))
    |>.seq (.cell (reads_u32 _) (by simp))
    |>.seq (.cell (reads_list _ fun c _ => c.reads) (by simp))
    |>.seq (.cell (reads_u64 _) (by simp))
    |>.decoder (by simp) _

theorem Autoscaler.reads (a : Autoscaler) : Autoscaler.decoder.Reads .json a.toJson a :=
  Reads.map Autoscaler.mk (.cell a.spec.reads (by simp))
    |>.seq (.cell a.status.reads (by simp))
    |>.seq (.cell (reads_u64 _) (by simp))
    |>.decoder (by simp) _

/-! ## Selectors and views -/

/-- Labels are read in their order and filed as they were. -/
theorem Selector.fields_labels (labels : List (String × String)) (filed : OrderedMap String String) :
    Decoder.fields Decoder.text dialect (labels.map fun e => (e.1, .str e.2)) filed =
      .ok (labels.foldl (fun m e => m.insert e.1 e.2) filed) := by
  induction labels generalizing filed with
  | nil => rfl
  | cons e rest ih => exact ih (filed.insert e.1 e.2)

/-- The written form of labels is canonical, because labels are listed by key. -/
theorem Selector.canonical_toJson (s : Selector) : s.toJson.Canonical := by
  refine ⟨?_, Json.canonicalFields_iff.mpr fun field hfield => ?_⟩
  · rw [Ascending, List.pairwise_map]
    exact s.labels.ascending
  · obtain ⟨e, -, rfl⟩ := List.mem_map.mp hfield
    trivial

theorem Selector.reads (s : Selector) : Selector.decoder.Reads dialect s.toJson s := by
  rw [Decoder.Reads, s.canonical_toJson.eq]
  show Selector.mk <$> Decoder.fields Decoder.text dialect _ .empty = _
  rw [fields_labels]
  exact congrArg (fun labels => Except.ok (Selector.mk labels)) (OrderedMap.ofList_entries s.labels)

namespace View

theorem Target.reads (t : Target) : Target.decoder.Reads dialect t.toJson t :=
  Reads.map Target.mk (.cell (reads_text _) (by simp))
    |>.seq (.cell (reads_text _) (by simp))
    |>.seq (.cell (reads_text _) (by simp))
    |>.decoder (by simp) _

theorem Metric.reads (m : Metric) : Metric.decoder.Reads dialect m.toJson m :=
  Reads.map Metric.mk (.cell (reads_text _) (by simp))
    |>.seq (.cell m.selector.reads (by simp))
    |>.seq (.cell (reads_i64 _) (by simp))
    |>.decoder (by simp) _

theorem Policy.reads (p : Policy) : Policy.decoder.Reads dialect p.toJson p :=
  Reads.map Policy.mk (.cell (reads_text _) (by simp))
    |>.seq (.cell (reads_u32 _) (by simp))
    |>.seq (.cell (reads_u32 _) (by simp))
    |>.decoder (by simp) _

theorem Rules.reads (r : Rules) : Rules.decoder.Reads .json r.toJson r :=
  Reads.map Rules.mk (.cell (reads_optional_u32 _) (by simp))
    |>.seq (.cell (reads_text _) (by simp))
    |>.seq (.cell (reads_list _ fun p _ => p.reads) (by simp))
    |>.decoder (by simp) _

theorem Behavior.reads (b : Behavior) : Behavior.decoder.Reads .json b.toJson b :=
  Reads.map Behavior.mk (.cell (reads_option fun r _ => ⟨r.reads, nofun⟩) (by simp))
    |>.seq (.cell (reads_option fun r _ => ⟨r.reads, nofun⟩) (by simp))
    |>.decoder (by simp) _

theorem Spec.reads (s : Spec) : Spec.decoder.Reads .json s.toJson s :=
  Reads.map Spec.mk (.cell s.scaleTargetRef.reads (by simp))
    |>.seq (.cell (reads_optional_u32 _) (by simp))
    |>.seq (.cell (reads_u32 _) (by simp))
    |>.seq (.cell (reads_list _ fun m _ => m.reads) (by simp))
    |>.seq (.cell (reads_option fun b _ => ⟨b.reads, nofun⟩) (by simp))
    |>.decoder (by simp) _

theorem Condition.reads (c : Condition) : Condition.decoder.Reads dialect c.toJson c :=
  Reads.map Condition.mk (.cell (reads_text _) (by simp))
    |>.seq (.cell (reads_text _) (by simp))
    |>.seq (.cell (reads_u64 _) (by simp))
    |>.seq (.cell (reads_text _) (by simp))
    |>.seq (.cell (reads_text _) (by simp))
    |>.decoder (by simp) _

theorem Status.reads (s : Status) : Status.decoder.Reads .json s.toJson s :=
  Reads.map Status.mk (.cell (reads_u32 _) (by simp))
    |>.seq (.cell (reads_u32 _) (by simp))
    |>.seq (.cell (reads_list _ fun c _ => c.reads) (by simp))
    |>.seq (.cell (reads_option fun n _ => ⟨reads_u64 n, nofun⟩) (by simp))
    |>.decoder (by simp) _

end View

theorem View.reads (v : View) : View.decoder.Reads .json v.toJson v :=
  Reads.map View.mk (.cell (reads_text _) (by simp))
    |>.seq (.cell (reads_text _) (by simp))
    |>.seq (.cell (reads_u64 _) (by simp))
    |>.seq (.cell v.spec.reads (by simp))
    |>.seq (.cell v.status.reads (by simp))
    |>.decoder (by simp) _

/-! ## Events -/

theorem EventType.reads (t : EventType) : EventType.decoder.Reads dialect t.toJson t := by
  cases t <;> exact reads_variant rfl

theorem Event.reads (e : Event) : Event.decoder.Reads dialect e.toJson e :=
  Reads.map Event.mk (.cell (reads_text _) (by simp))
    |>.seq (.cell (reads_text _) (by simp))
    |>.seq (.cell (reads_u64 _) (by simp))
    |>.seq (.cell (reads_u64 _) (by simp))
    |>.seq (.cell (reads_u32 _) (by simp))
    |>.seq (.cell e.type.reads (by simp))
    |>.seq (.cell (reads_text _) (by simp))
    |>.decoder (by simp) _

end Autoscaling

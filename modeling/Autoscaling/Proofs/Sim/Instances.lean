import Autoscaling.Ordered.Lemmas
import Autoscaling.Sim.Provider
import Mathlib.Logic.Function.Basic
import Mathlib.Tactic.Common

/-!
# The numbers of instances

All that a simulation ever changes is the time and its numbers of instances.  A simulation that has
come from another one in this way continues it (`Sim.Continues`): it has the same metric and the
same autoscalers, and everybody's number of instances is the one that was set last, or one
(`Sim.latest`).  The clients of a simulation ask and change what is in its place, and nothing else.
-/

namespace Autoscaling

universe u v w

/-! ## Places -/

section Places

variable {σ : Type u} {α : Type v}

/-- What is put into a place is there afterwards, and putting what is there changes nothing. -/
structure Place.Lawful (place : Place σ α) : Prop where
  get_put : ∀ x s, place.get (place.put x s) = x
  put_get : ∀ s, place.put (place.get s) s = s

theorem Place.lawful_whole : (Place.whole : Place α α).Lawful := ⟨fun _ _ => rfl, fun _ => rfl⟩

theorem Place.Lawful.within {γ : Type w} {outer : Place σ α} {inner : Place α γ}
    (hout : outer.Lawful) (hin : inner.Lawful) : (outer.within inner).Lawful where
  get_put x s := by
    show inner.get (outer.get (outer.put _ s)) = x
    rw [hout.get_put, hin.get_put]
  put_get s := by
    show outer.put (inner.put (inner.get _) _) s = s
    rw [hin.put_get, hout.put_get]

end Places

/-! ## Notes -/

section Notes

variable {σ : Type u} {ι : Type v} {α : Type w} (step : σ → ι → σ) (note : σ → ι → List α)

/-- What is noted along a run, in its order. -/
def notes : σ → List ι → List α
  | _, [] => []
  | s, i :: rest => note s i ++ notes (step s i) rest

theorem notes_append (s : σ) (first second : List ι) :
    notes step note s (first ++ second) =
      notes step note s first ++ notes step note (first.foldl step s) second := by
  induction first generalizing s with
  | nil => rfl
  | cons i rest ih => simp [notes, ih, List.append_assoc]

end Notes

namespace Sim

/-- How many instances of everything there are after some scalings: as many as were set last, and
one at the start. -/
def latest (scalings : List (Key × UInt32)) (k : Key) : UInt32 :=
  (scalings.reverse.lookup k).getD 1

theorem latest_concat (scalings : List (Key × UInt32)) (k : Key) (n : UInt32) :
    latest (scalings ++ [(k, n)]) = Function.update (latest scalings) k n := by
  funext k₀
  rw [latest, List.reverse_concat, Function.update_apply]
  by_cases hk : k₀ = k
  · simp [hk]
  · have hne : (k₀ == k) = false := beq_false_of_ne hk
    rw [List.lookup_cons, hne, if_neg hk]
    rfl

/-! ## What is simulated -/

/-- The autoscaler that some settings are for. -/
def TargetConfig.key (t : TargetConfig) : Key := ⟨t.ns, t.name⟩

/-- The settings name an autoscaler. -/
def Config.Simulates (c : Config) (k : Key) : Prop := ∃ t ∈ c.targets, t.key = k

/-- An autoscaler is simulated. -/
def Simulates (s : Sim) (k : Key) : Prop := ∃ t, s.target k = .ok t

theorem target_eq_ok_iff {s : Sim} {k : Key} {t : Target} :
    s.target k = .ok t ↔ s.targets.find? k = some t := by
  rw [target]
  cases s.targets.find? k <;> simp

theorem target_eq_error {s : Sim} {k : Key} (unknown : ¬ s.Simulates k) :
    s.target k = .error (.unknownTarget k) := by
  rw [target]
  cases h : s.targets.find? k with
  | none => rfl
  | some t => exact absurd ⟨t, target_eq_ok_iff.mpr h⟩ unknown

theorem TargetConfig.key_of_check {t : TargetConfig} {k : Key} {target : Target}
    (h : t.check = .ok (k, target)) : t.key = k := by
  unfold check at h
  repeat' split at h
  all_goals cases h
  rfl

theorem find?_fileTargets {ts : List TargetConfig} {filed targets : OrderedMap Key Target}
    (h : fileTargets ts filed = .ok targets) (k : Key) :
    (targets.find? k).isSome ↔ (filed.find? k).isSome ∨ ∃ t ∈ ts, t.key = k := by
  -- later settings of a key replace earlier ones, so only the keys are counted
  induction ts generalizing filed with
  | nil =>
      cases Except.ok.inj h
      simp
  | cons t rest ih =>
      cases hcheck : t.check with
      | error e =>
          rw [fileTargets, hcheck] at h
          exact nomatch h
      | ok checked =>
          rw [fileTargets, hcheck] at h
          have hkey : t.key = checked.1 := TargetConfig.key_of_check hcheck
          rw [ih h, OrderedMap.find?_insert]
          by_cases hk : k = checked.1
          · simp [hk, hkey]
          · simp [hk, hkey, Ne.symm hk]

theorem create_eq_ok_iff {c : Config} {s : Sim} :
    create c = .ok s ↔ c.metricName ≠ "" ∧ c.targets ≠ [] ∧
      ∃ targets, fileTargets c.targets .empty = .ok targets ∧
        ⟨c.metricName, targets, .ofList (targets.keys.map fun k => (k, 1)), 0⟩ = s := by
  rw [create]
  by_cases hname : c.metricName = ""
  · simp [hname]
  by_cases htargets : c.targets = []
  · simp [hname, htargets]
  cases hfiled : fileTargets c.targets .empty <;> simp [hname, htargets, bind, Except.bind]

theorem metricName_create {c : Config} {s : Sim} (h : create c = .ok s) :
    s.metricName = c.metricName := by
  obtain ⟨-, -, targets, -, rfl⟩ := create_eq_ok_iff.mp h
  rfl

/-- What is simulated is what the settings name. -/
theorem simulates_create {c : Config} {s : Sim} (h : create c = .ok s) (k : Key) :
    s.Simulates k ↔ c.Simulates k := by
  obtain ⟨-, -, targets, hfiled, rfl⟩ := create_eq_ok_iff.mp h
  have hfind := find?_fileTargets hfiled k
  simp only [OrderedMap.find?_empty, Option.isSome_none, Bool.false_eq_true, false_or,
    Option.isSome_iff_exists] at hfind
  simp only [Simulates, target_eq_ok_iff]
  exact hfind

/-- The percentage of a greatest load that each of `n` instances bears, cut off to whole percents,
in thousandths. -/
def metricValue (load : Float) (n : UInt32) (maxLoad : Float) : Int64 :=
  truncate (Float.ofNat 100 * (load / Float.ofNat n.toNat) / maxLoad) * 1000

theorem sample_double (load : Float) (n : UInt32) (maxLoad : Float) :
    Arithmetic.double.sample load n.toNat maxLoad = metricValue load n maxLoad := rfl

/-- The values of the metric with so many instances, after so many nanoseconds: none without
instances, otherwise one that is made from the load at that time. -/
def Target.values (t : Target) (n : UInt32) (nanos : Nat) : Except SimError (List Int64) :=
  if n = 0 then .ok []
  else ((t.loadAt nanos).mapError .abort).map fun load => [metricValue load n t.maxLoad]

/-! ## What becomes of a simulation -/

/-- A simulation in which only time has passed and numbers of instances were set, which are these
now. -/
structure Continues (s origin : Sim) (counts : Key → UInt32) : Prop where
  metricName : s.metricName = origin.metricName
  targets : s.targets = origin.targets
  instances : ∀ k, origin.Simulates k → s.instances.find? k = some (counts k)

/-- At the start there is one instance of everything. -/
theorem continues_create {c : Config} {s : Sim} (h : create c = .ok s) :
    s.Continues s fun _ => 1 := by
  obtain ⟨-, -, targets, -, rfl⟩ := create_eq_ok_iff.mp h
  refine ⟨rfl, rfl, fun k ⟨t, ht⟩ => ?_⟩
  have hkey : k ∈ targets.keys := by
    rw [OrderedMap.mem_keys_iff, OrderedMap.contains, Option.isSome_iff_exists]
    exact ⟨t, target_eq_ok_iff.mp ht⟩
  rw [OrderedMap.find?_ofList]
  cases hlast : (targets.keys.map fun k => (k, (1 : UInt32))).reverse.find?
      fun e => decide (k = e.1) with
  | none =>
      have hnone := List.find?_eq_none.mp hlast (k, 1)
      exact absurd (decide_eq_true rfl)
        (hnone (List.mem_reverse.mpr (List.mem_map.mpr ⟨k, hkey, rfl⟩)))
  | some e =>
      obtain ⟨k₀, -, rfl⟩ := List.mem_map.mp (List.mem_reverse.mp (List.mem_of_find?_eq_some hlast))
      rfl

theorem setScale_of_not_simulates {s : Sim} {k : Key} (unknown : ¬ s.Simulates k) (n : UInt32) :
    setScale k n s = (.error (.unknownTarget k), s) := by
  rw [setScale, target_eq_error unknown]

/-- What is asked about one autoscaler does not depend on how another one is scaled. -/
theorem setScale_apart {k k₀ : Key} (hk : k₀ ≠ k) (n : UInt32) (s : Sim) :
    let s' := (setScale k n s).2
    s'.instancesOf k₀ = s.instancesOf k₀ ∧
      (∀ metric, s'.getMetric metric k₀ = s.getMetric metric k₀) ∧
      ∀ n₀, (setScale k₀ n₀ s').1 = (setScale k₀ n₀ s).1 := by
  by_cases known : s.Simulates k
  · obtain ⟨t, ht⟩ := known
    have hinstances : (s.instances.insert k n).find? k₀ = s.instances.find? k₀ := by
      rw [OrderedMap.find?_insert, if_neg hk]
    have htarget : { s with instances := s.instances.insert k n }.target k₀ = s.target k₀ := rfl
    simp only [setScale, ht, instancesOf, getMetric, valuesAt, valuesIn, hinstances, htarget]
    refine ⟨trivial, fun _ => trivial, fun n₀ => ?_⟩
    cases s.target k₀ <;> rfl
  · simp [setScale_of_not_simulates known n]

namespace Continues

variable {s origin : Sim} {counts : Key → UInt32}

theorem simulates (continues : s.Continues origin counts) (k : Key) :
    s.Simulates k ↔ origin.Simulates k := by
  simp only [Simulates, target_eq_ok_iff, continues.targets]

/-- A simulation that continues another one also continues itself. -/
theorem self (continues : s.Continues origin counts) : s.Continues s counts :=
  ⟨rfl, rfl, fun k known => continues.instances k ((continues.simulates k).mp known)⟩

theorem pass (continues : s.Continues origin counts) (nanos : Nat) :
    (s.pass nanos).Continues origin counts :=
  ⟨continues.metricName, continues.targets, continues.instances⟩

theorem setScale (continues : s.Continues origin counts) {k : Key} (known : origin.Simulates k)
    (n : UInt32) :
    ∃ s', Sim.setScale k n s = (.ok (), s') ∧ s'.elapsed = s.elapsed ∧
      s'.Continues origin (Function.update counts k n) := by
  obtain ⟨t, ht⟩ := (continues.simulates k).mpr known
  refine ⟨{ s with instances := s.instances.insert k n }, by simp only [Sim.setScale, ht], rfl,
    continues.metricName, continues.targets, fun k₀ known₀ => ?_⟩
  rw [OrderedMap.find?_insert, continues.instances k₀ known₀, Function.update_apply]
  split <;> rfl

theorem instancesOf (continues : s.Continues origin counts) {k : Key}
    (known : origin.Simulates k) : s.instancesOf k = .ok (counts k) := by
  obtain ⟨t, ht⟩ := (continues.simulates k).mpr known
  rw [Sim.instancesOf, ht, continues.instances k known]
  rfl

theorem getMetric (continues : s.Continues origin counts) {k : Key} {t : Target}
    (filed : origin.target k = .ok t) :
    s.getMetric origin.metricName k = t.values (counts k) s.elapsed := by
  have ht : s.target k = .ok t := by
    rw [target_eq_ok_iff] at filed ⊢
    rw [continues.targets, filed]
  have hname : ¬ origin.metricName ≠ s.metricName := not_not.mpr continues.metricName.symm
  rw [Sim.getMetric, if_neg hname, valuesAt, valuesIn, ht, continues.instancesOf ⟨t, filed⟩]
  show (if counts k = 0 then _ else _) = _
  rw [Target.values]
  split_ifs
  · rfl
  · cases t.loadAt s.elapsed with
    | error a => rfl
    | ok load => exact congrArg (fun v => Except.ok [v]) (sample_double ..)

end Continues

/-! ## Clients -/

section Clients

variable {β : Type}

/-- What is in its place now continues a simulation. -/
def Continued (place : Place β (Option Sim)) (origin : Sim) (counts : Key → UInt32) (b : β) :
    Prop :=
  ∃ s, place.get b = some s ∧ s.Continues origin counts

variable {place : Place β (Option Sim)} (lawful : place.Lawful) {s : Sim} {b : β}
include lawful

/-- To ask a simulation changes nothing. -/
theorem operate_ask {α : Type} (question : Sim → Except SimError α) :
    (place.operate (ask question) b).2 = b := by
  have hput := lawful.put_get b
  unfold Place.operate ask
  cases h : place.get b <;> simpa [h] using hput

theorem operate_ask_of_get {α : Type} (filled : place.get b = some s)
    (question : Sim → Except SimError α) :
    place.operate (ask question) b = (failure (question s), b) := by
  refine Prod.ext ?_ (operate_ask lawful question)
  simp only [Place.operate, ask, filled]

omit lawful in
theorem operate_act_of_get {α : Type} (filled : place.get b = some s)
    (operation : Operation Sim SimError α) :
    place.operate (act operation) b =
      (failure (operation s).1, place.put (some (operation s).2) b) := by
  simp only [Place.operate, act, filled]

variable {origin : Sim} {counts : Key → UInt32} (filled : place.get b = some s)
  (continues : s.Continues origin counts)
include filled

/-- What is not simulated cannot be scaled. -/
theorem scalingClient_setScale_of_not_simulates {k : Key} (unknown : ¬ s.Simulates k)
    (settings : Option Settings) (n : UInt32) :
    (scalingClient place).setScale k settings n b =
      (.error (.ofText (SimError.unknownTarget k).message), b) := by
  show place.operate (act (Sim.setScale k n)) b = _
  rw [operate_act_of_get filled, setScale_of_not_simulates unknown n, ← filled, lawful.put_get]
  rfl

include continues

/-- A simulated autoscaler can be scaled, and the simulation goes on with the new number. -/
theorem scalingClient_setScale {k : Key} (known : origin.Simulates k) (settings : Option Settings)
    (n : UInt32) :
    ∃ b' s', (scalingClient place).setScale k settings n b = (.ok (), b') ∧
      place.get b' = some s' ∧ s'.elapsed = s.elapsed ∧
      s'.Continues origin (Function.update counts k n) := by
  obtain ⟨s', hset, helapsed, continues'⟩ := continues.setScale known n
  refine ⟨_, s', ?_, lawful.get_put _ b, helapsed, continues'⟩
  show place.operate (act (Sim.setScale k n)) b = _
  rw [operate_act_of_get filled, hset]
  rfl

theorem scalingClient_getScale {k : Key} (known : origin.Simulates k) (settings : Option Settings) :
    (scalingClient place).getScale k settings b =
      (.ok ⟨some (counts k), some (counts k)⟩, b) := by
  show place.operate (ask _) b = _
  rw [operate_ask_of_get lawful filled, continues.instancesOf known]
  rfl

theorem metricsClient_getMetric {k : Key} {t : Target} (filed : origin.target k = .ok t)
    (settings : Option Settings) :
    (metricsClient place).getMetric origin.metricName k settings b =
      (failure (t.values (counts k) s.elapsed), b) := by
  show place.operate (ask _) b = _
  rw [operate_ask_of_get lawful filled, continues.getMetric filed]

end Clients

/-! ## A small simulation -/

/-- The settings of an autoscaler whose one instance bears an eighth of its greatest load. -/
def eighth : Config := ⟨"load", [⟨"a", "ns", 8.0, [⟨1000, 1.0⟩]⟩]⟩

/-- The simulation of these settings. -/
def eighthBorne : Sim :=
  ⟨"load", OrderedMap.empty.insert ⟨"ns", "a"⟩ ⟨8.0, [⟨1000, 1.0⟩], 1000⟩,
    OrderedMap.empty.insert ⟨"ns", "a"⟩ 1, 0⟩

theorem create_eighth : create eighth = .ok eighthBorne := by rfl

end Sim

end Autoscaling

import Autoscaling.Proofs.Decimal.Shortest
import Autoscaling.Proofs.Sim.Instances
import Mathlib.Data.Rat.Floor
import Mathlib.Tactic.Ring
import Mathlib.Tactic.Linarith

/-!
# How precise the simulated metric is

The metric is a percentage that is told in thousandths.  The percentage is cut off to whole percents
before it is turned into thousandths, so the last three digits of the value are always zero.  With
the loads taken as the numbers that they stand for and without any rounding
(`Sim.Arithmetic.exact`), the value keeps within a thousand thousandths of the percentage, and it
comes as close as one thousandth only if the percentage is less than a thousandth beyond its whole
percents (`Sim.metric_in_whole_percents`).
-/

namespace Autoscaling

/-- The whole part of a number: the fraction is cut off toward zero. -/
def wholePart (x : ℚ) : ℤ := if x < 0 then ⌈x⌉ else ⌊x⌋

theorem wholePart_of_nonneg {x : ℚ} (h : 0 ≤ x) : wholePart x = ⌊x⌋ := if_neg (not_lt.mpr h)

theorem wholePart_neg (x : ℚ) : wholePart (-x) = -wholePart x := by
  unfold wholePart
  rcases lt_trichotomy x 0 with h | rfl | h
  · rw [if_neg (by linarith), if_pos h, Int.floor_neg]
  · simp
  · rw [if_pos (by linarith), if_neg (by linarith), Int.ceil_neg]

/-- What is cut off has the sign of the number, and less than one is cut off. -/
theorem abs_sub_wholePart (x : ℚ) : |x - wholePart x| = Int.fract |x| := by
  wlog h : 0 ≤ x generalizing x
  · have hneg := this (-x) (by linarith)
    rw [wholePart_neg, abs_neg, Int.cast_neg, neg_sub_neg, abs_sub_comm] at hneg
    exact hneg
  · rw [wholePart_of_nonneg h, abs_of_nonneg h, Int.self_sub_floor, Int.abs_fract]

theorem abs_wholePart_le (x : ℚ) : |(wholePart x : ℚ)| ≤ |x| := by
  wlog h : 0 ≤ x generalizing x
  · have hneg := this (-x) (by linarith)
    rwa [wholePart_neg, abs_neg, Int.cast_neg, abs_neg] at hneg
  · have hfloor : (0 : ℚ) ≤ ⌊x⌋ := by exact_mod_cast Int.floor_nonneg.mpr h
    rw [wholePart_of_nonneg h, abs_of_nonneg h, abs_of_nonneg hfloor]
    exact Int.floor_le x

namespace Magnitude

/-- The number that a size stands for. -/
def toRat (v : Magnitude) : ℚ := v.mantissa * 2 ^ v.exponent

/-- The number that a finite double stands for. -/
def number (x : Float) : ℚ := if isNegative x then -(ofFloat x).toRat else (ofFloat x).toRat

theorem toRat_nonneg (v : Magnitude) : 0 ≤ v.toRat :=
  mul_nonneg (Nat.cast_nonneg _) (two_zpow_pos _).le

theorem floor_toRat (v : Magnitude) : ⌊v.toRat⌋ = (v.whole : ℤ) := by
  have hquotient : v.toRat =
      ((v.mantissa * 2 ^ v.exponent.toNat : Nat) : ℚ) / (2 ^ (-v.exponent).toNat : Nat) := by
    rw [toRat, zpow_eq_div 2 (by norm_num)]
    push_cast
    ring
  rw [hquotient, Rat.floor_natCast_div_natCast]
  rfl

end Magnitude

namespace Sim

/-- The arithmetic of the numbers that doubles stand for, in which nothing is rounded. -/
def Arithmetic.exact : Arithmetic ℚ where
  ofFloat := Magnitude.number
  ofNat n := n
  mul := (· * ·)
  div := (· / ·)
  truncate x := clampInt64 (wholePart x)

/-- Doubles are cut off like the numbers that they stand for. -/
theorem truncate_eq_exact {x : Float} (h : x.isNaN = false) :
    truncate x = Arithmetic.exact.truncate (Magnitude.number x) := by
  have hwhole : wholePart (Magnitude.ofFloat x).toRat = ((Magnitude.ofFloat x).whole : ℤ) := by
    rw [wholePart_of_nonneg (Magnitude.toRat_nonneg _), Magnitude.floor_toRat]
  rw [truncate, h, if_neg Bool.false_ne_true]
  show _ = clampInt64 (wholePart (Magnitude.number x))
  unfold Magnitude.number
  cases Magnitude.isNegative x <;> simp [hwhole, wholePart_neg]

theorem clampInt64_of_mem {n : ℤ} (low : -2 ^ 63 ≤ n) (high : n < 2 ^ 63) :
    clampInt64 n = Int64.ofInt n := by
  rw [clampInt64, min_eq_left (by omega), max_eq_right (by omega)]

/-- The value is a whole number of percents, told in thousandths. -/
theorem toInt_sample_exact {load maxLoad thousandths : ℚ} {n : Nat}
    (h : thousandths = 100000 * load / (n * maxLoad)) (low : -2 ^ 63 ≤ thousandths)
    (high : thousandths ≤ 2 ^ 63 - 1) :
    (Arithmetic.exact.sample load n maxLoad).toInt = 1000 * wholePart (thousandths / 1000) := by
  have hpercent : 100 * (load / n) / maxLoad = thousandths / 1000 := by
    have hload : 100000 * load = 100 * load * 1000 := by ring
    rw [h, hload, mul_div_assoc', div_div, div_div, mul_div_mul_right _ _ (by norm_num)]
  have hsample : Arithmetic.exact.sample load n maxLoad =
      clampInt64 (wholePart (thousandths / 1000)) * 1000 := by
    rw [← hpercent]
    rfl
  set percents := wholePart (thousandths / 1000)
  -- the whole percents are nearer to zero than the percentage, so their thousandths fit, too
  have hbounds : -2 ^ 63 ≤ 1000 * percents ∧ 1000 * percents ≤ 2 ^ 63 := by
    have hle : |(percents : ℚ)| ≤ |thousandths / 1000| := abs_wholePart_le _
    have hsize : |thousandths / 1000| ≤ 2 ^ 63 / 1000 := abs_le.mpr ⟨by linarith, by linarith⟩
    obtain ⟨hlow, hhigh⟩ := abs_le.mp (hle.trans hsize)
    have hlow : (-2 ^ 63 : ℚ) ≤ 1000 * percents := by linarith
    have hhigh : (1000 * percents : ℚ) ≤ 2 ^ 63 := by linarith
    exact ⟨by exact_mod_cast hlow, by exact_mod_cast hhigh⟩
  have hmul : clampInt64 percents * 1000 = Int64.ofInt (1000 * percents) := by
    rw [clampInt64_of_mem (by omega) (by omega), mul_comm 1000 percents, Int64.ofInt_mul]
    rfl
  rw [hsample, hmul, Int64.toInt_ofInt_of_le (by omega) (by omega)]

/-- **The metric is told in whole percents.**  Take the loads as the numbers that they stand for,
and let nothing be rounded.  If there is a load, and the percentage of its greatest load that each
instance bears, in thousandths, fits a signed word of 64 bits, the value of the metric is its whole
percents in thousandths.  This is less than one thousand thousandths off, and it is less than one
thousandth off exactly if the percentage is less than a thousandth beyond its whole percents. -/
theorem metric_in_whole_percents {s : Sim} {k : Key} {t : Target} {n : UInt32}
    (filed : s.target k = .ok t) (counted : s.instancesOf k = .ok n) (hn : n ≠ 0) (nanos : Nat)
    {active : Float} (hactive : t.loadAt nanos = .ok active) :
    let load := Magnitude.number active
    let maxLoad := Magnitude.number t.maxLoad
    let thousandths : ℚ := 100000 * load / (n.toNat * maxLoad)
    (-2 ^ 63 : ℚ) ≤ thousandths → thousandths ≤ 2 ^ 63 - 1 →
      ∃ v, s.valuesIn .exact k nanos = .ok [v] ∧
        v.toInt = 1000 * wholePart (thousandths / 1000) ∧
        |(v.toInt : ℚ) - thousandths| < 1000 ∧
        (|(v.toInt : ℚ) - thousandths| < 1 ↔ Int.fract (|thousandths| / 1000) < 1 / 1000) := by
  intro load maxLoad thousandths low high
  have hvalue : (Arithmetic.exact.sample load n.toNat maxLoad).toInt =
      1000 * wholePart (thousandths / 1000) := toInt_sample_exact rfl low high
  have hoff : |((1000 * wholePart (thousandths / 1000) : ℤ) : ℚ) - thousandths| =
      1000 * Int.fract (|thousandths| / 1000) := by
    have hpos : |(1000 : ℚ)| = 1000 := abs_of_pos (by norm_num)
    have hcut := abs_sub_wholePart (thousandths / 1000)
    rw [abs_div, hpos] at hcut
    rw [← hcut, ← hpos, ← abs_mul, hpos, abs_sub_comm]
    push_cast
    congr 1
    ring
  refine ⟨_, ?_, hvalue, ?_, ?_⟩
  · rw [valuesIn, filed, counted]
    show (if n = 0 then _ else _) = _
    rw [if_neg hn, hactive]
    rfl
  · rw [hvalue, hoff]
    linarith [Int.fract_lt_one (|thousandths| / 1000)]
  · rw [hvalue, hoff, lt_div_iff₀' (by norm_num)]

theorem number_one : Magnitude.number 1.0 = 1 := by
  have hsize : Magnitude.ofFloat 1.0 = ⟨2 ^ 52, -52⟩ := by decide
  have hsign : Magnitude.isNegative 1.0 = false := by decide
  rw [Magnitude.number, hsize, hsign]
  norm_num [Magnitude.toRat]

theorem number_eight : Magnitude.number 8.0 = 8 := by
  have hsize : Magnitude.ofFloat 8.0 = ⟨2 ^ 52, -49⟩ := by decide
  have hsign : Magnitude.isNegative 8.0 = false := by decide
  rw [Magnitude.number, hsize, hsign]
  norm_num [Magnitude.toRat]

theorem wholePart_twelve_and_a_half : wholePart (12500 / 1000) = 12 := by
  rw [wholePart_of_nonneg (by norm_num)]
  norm_num

/-- Twelve and a half percent are told as twelve. -/
theorem metric_in_whole_percents_eighth :
    eighthBorne.target ⟨"ns", "a"⟩ = .ok ⟨8.0, [⟨1000, 1.0⟩], 1000⟩ ∧
      eighthBorne.instancesOf ⟨"ns", "a"⟩ = .ok 1 ∧
      Target.loadAt ⟨8.0, [⟨1000, 1.0⟩], 1000⟩ 0 = .ok 1.0 ∧
      ∃ v, eighthBorne.valuesIn .exact ⟨"ns", "a"⟩ 0 = .ok [v] ∧ v.toInt = 12000 ∧
        |(v.toInt : ℚ) - 12500| < 1000 := by
  have filed : eighthBorne.target ⟨"ns", "a"⟩ = .ok ⟨8.0, [⟨1000, 1.0⟩], 1000⟩ := rfl
  have counted : eighthBorne.instancesOf ⟨"ns", "a"⟩ = .ok 1 := rfl
  have hload : Target.loadAt ⟨8.0, [⟨1000, 1.0⟩], 1000⟩ 0 = .ok 1.0 := rfl
  have hone : ((1 : UInt32).toNat : ℚ) = 1 := Nat.cast_one
  have hexact : 100000 * (1 : ℚ) / (1 * 8) = 12500 := by norm_num
  have told := metric_in_whole_percents filed counted (by decide) 0 hload
  simp only [number_one, number_eight, hone, hexact] at told
  obtain ⟨v, hv, hvalue, hoff, -⟩ := told (by norm_num) (by norm_num)
  rw [wholePart_twelve_and_a_half] at hvalue
  exact ⟨filed, counted, hload, v, hv, hvalue, hoff⟩

/-- The value of the metric can be five hundred thousandths off the percentage, with exact
arithmetic as with doubles. -/
theorem thousandths_lost :
    ∃ s t load v, create eighth = .ok s ∧ s.target ⟨"ns", "a"⟩ = .ok t ∧
      s.instancesOf ⟨"ns", "a"⟩ = .ok 1 ∧ 0 < Magnitude.number t.maxLoad ∧
      t.loadAt 0 = .ok load ∧
      100000 * Magnitude.number load / (1 * Magnitude.number t.maxLoad) = 12500 ∧
      s.valuesIn .exact ⟨"ns", "a"⟩ 0 = .ok [v] ∧ s.valuesAt ⟨"ns", "a"⟩ 0 = .ok [v] ∧
      v.toInt = 12000 ∧ ¬ |(v.toInt : ℚ) - 12500| < 1 := by
  have hpercents : (Arithmetic.exact.sample 1 1 8).toInt = 12000 := by
    have h : (12500 : ℚ) = 100000 * 1 / ((1 : Nat) * 8) := by norm_num
    rw [toInt_sample_exact h (by norm_num) (by norm_num), wholePart_twelve_and_a_half]
    rfl
  have hsample : Arithmetic.exact.sample 1 1 8 = 12000 := Int64.toInt_inj.mp hpercents
  have hvalues : eighthBorne.valuesIn .exact ⟨"ns", "a"⟩ 0 = .ok [12000] := by
    show Except.ok [Arithmetic.exact.sample (Magnitude.number 1.0) 1 (Magnitude.number 8.0)] = _
    rw [number_one, number_eight, hsample]
  have hdouble : Arithmetic.double.sample 1.0 1 8.0 = 12000 := by decide +kernel
  refine ⟨eighthBorne, ⟨8.0, [⟨1000, 1.0⟩], 1000⟩, 1.0, 12000, create_eighth, rfl, rfl, ?_, rfl, ?_,
    hvalues, congrArg (fun v => Except.ok [v]) hdouble, rfl, ?_⟩
  · rw [number_eight]
    norm_num
  · rw [number_one, number_eight]
    norm_num
  · have hvalue : (12000 : Int64).toInt = 12000 := rfl
    rw [hvalue]
    norm_num

end Sim

end Autoscaling

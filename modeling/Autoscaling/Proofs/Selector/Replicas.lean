import Autoscaling.Proofs.Decimal.Numeral
import Autoscaling.Selector.Lemmas
import Mathlib.Tactic.Common

/-!
# Numbers of replicas in selectors

The selector that is made for a number of replicas has the decimal numeral of the number as its
value.  The number is also read from selectors that were not made for it: there may be a plus sign
and zeros in front of the numeral (`Carrier.replicas_read_exactly`).  So reading aborts on some of
the selectors that were not made for a number, and not on all of them
(`Carrier.replicas_read_with_sign`).
-/

namespace Autoscaling

namespace Carrier

/-- A number of replicas is read from its numerals. -/
theorem number?_eq_some_iff {s : String} {n : UInt32} :
    number? s = some n ↔ Digits.IsNumeral s.toList n.toNat := by
  rw [← Digits.parse?_eq_some_iff, number?]
  cases hparse : Digits.parse? s.toList with
  | none => simp
  | some m =>
      simp only [Option.some.injEq]
      split_ifs with hm
      · rw [Option.some.injEq]
        constructor
        · rintro rfl
          exact (UInt32.toNat_ofNat_of_lt' hm).symm
        · rintro rfl
          exact UInt32.ofNat_toNat
      · refine ⟨nofun, fun h => ?_⟩
        have hn := n.toNat_lt
        omega

theorem decodeReplicas_eq (s : Selector) :
    decodeReplicas s = (replicas.decode s).bind fun value =>
      match number? value with
      | some n => .ok n
      | none => .error (.replicasValue s.text) := rfl

theorem decodeReplicas_encode (value : String) :
    decodeReplicas (replicas.encode value) =
      match number? value with
      | some n => .ok n
      | none => .error (.replicasValue (replicas.encode value).text) := by
  rw [decodeReplicas_eq, decode_encode]
  rfl

/-- A number is read from the selectors whose one value is a numeral of it. -/
theorem decodeReplicas_eq_ok_iff {s : Selector} {n : UInt32} :
    decodeReplicas s = .ok n ↔
      ∃ value, s = replicas.encode value ∧ Digits.IsNumeral value.toList n.toNat := by
  simp only [← number?_eq_some_iff]
  constructor
  · intro h
    cases hdecode : replicas.decode s with
    | error e =>
        rw [decodeReplicas_eq, hdecode] at h
        exact nomatch h
    | ok value =>
        obtain rfl := decode_eq_ok_iff.mp hdecode
        refine ⟨value, rfl, ?_⟩
        rw [decodeReplicas_encode] at h
        split at h
        · next m hnumber => exact hnumber.trans (congrArg some (Except.ok.inj h))
        · exact nomatch h
  · rintro ⟨value, rfl, hnumber⟩
    rw [decodeReplicas_encode, hnumber]

theorem decodeReplicas_encodeReplicas (n : UInt32) : decodeReplicas (encodeReplicas n) = .ok n :=
  decodeReplicas_eq_ok_iff.mpr ⟨natText n.toNat, rfl, [], 0, .inl rfl, by simp [natText]⟩

/-- Reading aborts where the carrier does, and on a value that is no numeral below `2 ^ 32`. -/
theorem decodeReplicas_eq_error_iff {s : Selector} {e : Abort} :
    decodeReplicas s = .error e ↔
      (s.size ≠ 1 ∧ e = .selectorFormat s.text) ∨
        (s.size = 1 ∧ s.get? "replicas" = none ∧ e = .selectorLabel "replicas" s.text) ∨
          ∃ value, s = replicas.encode value ∧
            (∀ n : UInt32, ¬ Digits.IsNumeral value.toList n.toNat) ∧ e = .replicasValue s.text := by
  simp only [← number?_eq_some_iff]
  cases hdecode : replicas.decode s with
  | error e₀ =>
      have hmade : ∀ value, s ≠ replicas.encode value := by
        rintro value rfl
        rw [decode_encode] at hdecode
        exact nomatch hdecode
      have hread : decodeReplicas s = .error e ↔ replicas.decode s = .error e := by
        rw [decodeReplicas_eq, hdecode, Except.bind, Except.error.injEq, Except.error.injEq]
      have hkey : replicas.key = "replicas" := rfl
      rw [hread, decode_eq_error_iff, hkey]
      simp [hmade]
  | ok value =>
      obtain rfl := decode_eq_ok_iff.mp hdecode
      have hsize : (replicas.encode value).size = 1 := rfl
      have hget : (replicas.encode value).get? "replicas" = some value :=
        (Selector.eq_encode_iff.mp rfl).2
      have hsame : ∀ value₀, replicas.encode value = replicas.encode value₀ → value₀ = value := by
        intro value₀ h
        have hget₀ := (Selector.eq_encode_iff.mp h).2
        exact Option.some.inj (hget₀.symm.trans hget)
      rw [decodeReplicas_encode]
      constructor
      · intro h
        split at h
        · exact nomatch h
        · next hnumber =>
            refine .inr (.inr ⟨value, rfl, fun n hn => ?_, (Except.error.inj h).symm⟩)
            exact nomatch hnumber.symm.trans hn
      · rintro (⟨h, -⟩ | ⟨-, h, -⟩ | ⟨value₀, hmade, hnone, rfl⟩)
        · exact absurd hsize h
        · exact nomatch hget.symm.trans h
        · obtain rfl := hsame value₀ hmade
          split
          · next m hnumber => exact absurd hnumber (hnone m)
          · rfl

/-- **Numbers of replicas are read from their numerals.**  A selector is read as a number if and
only if its one label is that of the carrier with a numeral of the number: the decimal one, which
`encodeReplicas` writes, or that one behind zeros and behind a plus sign.  Every other selector
aborts, for the number of its labels, for its label, or for its value. -/
theorem replicas_read_exactly (s : Selector) :
    (∀ n : UInt32, decodeReplicas s = .ok n ↔
      ∃ sign zeros, (sign = "" ∨ sign = "+") ∧
        s = replicas.encode
          (sign ++ String.ofList (List.replicate zeros '0') ++ natText n.toNat)) ∧
    (∀ n : UInt32, s = encodeReplicas n → decodeReplicas s = .ok n) ∧
    ∀ e, decodeReplicas s = .error e ↔
      (s.size ≠ 1 ∧ e = .selectorFormat s.text) ∨
        (s.size = 1 ∧ s.get? "replicas" = none ∧ e = .selectorLabel "replicas" s.text) ∨
          ∃ value, s = replicas.encode value ∧
            (∀ n : UInt32, ¬ Digits.IsNumeral value.toList n.toNat) ∧
              e = .replicasValue s.text := by
  have hread : ∀ n : UInt32, decodeReplicas s = .ok n ↔
      ∃ sign zeros, (sign = "" ∨ sign = "+") ∧
        s = replicas.encode
          (sign ++ String.ofList (List.replicate zeros '0') ++ natText n.toNat) := by
    intro n
    rw [decodeReplicas_eq_ok_iff]
    constructor
    · rintro ⟨value, rfl, sign, zeros, hsign, hvalue⟩
      refine ⟨String.ofList sign, zeros, ?_, ?_⟩
      · rcases hsign with rfl | rfl
        · exact .inl rfl
        · exact .inr rfl
      · rw [natText, ← String.ofList_append, ← String.ofList_append, ← hvalue, String.ofList_toList]
    · rintro ⟨sign, zeros, hsign, rfl⟩
      refine ⟨_, rfl, sign.toList, zeros, ?_, by simp [natText]⟩
      rcases hsign with rfl | rfl
      · exact .inl rfl
      · exact .inr rfl
  refine ⟨hread, fun n hmade => (hread n).mpr ⟨"", 0, .inl rfl, ?_⟩,
    fun e => decodeReplicas_eq_error_iff⟩
  rw [hmade, encodeReplicas]
  rfl

/-- A selector that was not made for a number, and is read as one. -/
theorem replicas_read_with_sign :
    decodeReplicas (replicas.encode "+5") = .ok 5 ∧ ∀ n, replicas.encode "+5" ≠ encodeReplicas n := by
  refine ⟨by decide, fun n hmade => ?_⟩
  have hread := (Selector.eq_encode_iff.mp hmade).2
  have htext : natText n.toNat = "+5" := Option.some.inj (hread.symm.trans (by decide))
  have hdigits : (natText n.toNat).toList.all (Digits.isDigit 10) = true := by
    rw [natText, String.toList_ofList]
    exact Digits.all_isDigit_write (by decide) (by decide) _
  rw [htext] at hdigits
  exact absurd hdigits (by decide)

end Carrier

end Autoscaling

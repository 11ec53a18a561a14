import Autoscaling.Ordered.Lemmas
import Autoscaling.Selector.Carrier

/-!
# Carriers and their selectors

A carrier takes a value out of exactly the selectors that it puts one into
(`Carrier.decode_eq_ok_iff`).  Every other selector has the wrong number of labels, or its one label
is not that of the carrier (`Carrier.decode_eq_error_iff`).
-/

namespace Autoscaling

namespace Selector

/-- A selector with one label is known by it. -/
theorem eq_encode_iff {c : Carrier} {s : Selector} {value : String} :
    s = c.encode value ↔ s.size = 1 ∧ s.get? c.key = some value := by
  constructor
  · rintro rfl
    refine ⟨rfl, ?_⟩
    rw [Carrier.encode, withLabel, get?, OrderedMap.find?_insert, if_pos rfl]
  · rintro ⟨hsize, hget⟩
    obtain ⟨label, hlabel⟩ := List.length_eq_one_iff.mp hsize
    have hmem := OrderedMap.mem_entries_iff.mpr hget
    rw [hlabel, List.mem_singleton] at hmem
    rw [← hmem] at hlabel
    cases s
    exact congrArg mk (OrderedMap.ext hlabel)

end Selector

namespace Carrier

theorem decode_eq_ok_iff {c : Carrier} {s : Selector} {value : String} :
    c.decode s = .ok value ↔ s = c.encode value := by
  rw [Selector.eq_encode_iff, decode]
  by_cases hsize : s.size = 1
  · cases s.get? c.key <;> simp [hsize]
  · simp [hsize]

/-- What a carrier puts into a selector it takes out again. -/
theorem decode_encode (c : Carrier) (value : String) : c.decode (c.encode value) = .ok value :=
  decode_eq_ok_iff.mpr rfl

theorem decode_eq_error_iff {c : Carrier} {s : Selector} {e : Abort} :
    c.decode s = .error e ↔
      (s.size ≠ 1 ∧ e = .selectorFormat s.text) ∨
        (s.size = 1 ∧ s.get? c.key = none ∧ e = .selectorLabel c.key s.text) := by
  rw [decode]
  by_cases hsize : s.size = 1
  · cases s.get? c.key <;> simp [hsize, eq_comm]
  · simp [hsize, eq_comm]

end Carrier

end Autoscaling

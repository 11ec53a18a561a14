import Autoscaling.Json.Printer
import Autoscaling.Json.Reader
import Autoscaling.Proofs.Decimal.Layout
import Mathlib.Tactic.Common

/-!
# Strings and numbers in JSON text are read back

Each character of a string is read back on its own, escaped or as it is (`Json.readString_escape`).
A number is read back where no digit, point or exponent goes on after it.  An integer has neither a
point nor an exponent and a double has one of them, so they are told apart (`Json.isNumber_int`,
`Json.isNumber_float`).
-/

namespace Autoscaling

namespace Json

open Digits

/-! ## Strings -/

theorem unit?_padded : ∀ n < 32, padded 16 4 n = ['0', '0', char (n / 16), char (n % 16)] ∧
    unit? (padded 16 4 n) = some n := by
  decide

theorem readString_plain {c : Char} (hquote : c ≠ '"') (hbackslash : c ≠ '\\')
    (hcontrol : ¬ c.toNat < 32) (seen rest : List Char) :
    readString seen (c :: rest) = readString (c :: seen) rest := by
  conv_lhs => unfold readString
  split <;> simp_all

/-- A character of a string is read back, escaped or as it is. -/
theorem readString_escape (c : Char) (seen rest : List Char) :
    readString seen (escape c ++ rest) = readString (c :: seen) rest := by
  unfold escape
  split_ifs with hquote hbackslash hn hr ht hb hf hcontrol
  · rw [hquote]
    rfl
  · rw [hbackslash]
    rfl
  · rw [hn]
    rfl
  · rw [hr]
    rfl
  · rw [ht]
    rfl
  · rw [hb]
    rfl
  · rw [hf]
    rfl
  · obtain ⟨hpadded, hunit⟩ := unit?_padded c.toNat hcontrol
    rw [hpadded] at hunit ⊢
    -- the code of a control character is no half of a pair
    have hhigh : ¬ (0xd800 ≤ c.toNat ∧ c.toNat < 0xdc00) := by omega
    have hlow : ¬ (0xdc00 ≤ c.toNat ∧ c.toNat < 0xe000) := by omega
    simp only [List.cons_append, List.nil_append, readString, hunit, if_neg hhigh, if_neg hlow,
      Char.ofNat_toNat]
  · exact readString_plain hquote hbackslash hcontrol seen rest

theorem readString_flatMap (cs seen rest : List Char) :
    readString seen (cs.flatMap escape ++ '"' :: rest) =
      some (String.ofList (seen.reverse ++ cs), rest) := by
  induction cs generalizing seen with
  | nil => simp [readString]
  | cons c cs ih =>
      rw [List.flatMap_cons, List.append_assoc, readString_escape, ih]
      simp

/-- A string is read back after its opening quote. -/
theorem exists_stringText_eq (s : String) :
    ∃ tail, (stringText s).toList = '"' :: tail ∧
      ∀ rest, readString [] (tail ++ rest) = some (s, rest) := by
  refine ⟨s.toList.flatMap escape ++ ['"'], by simp [stringText], fun rest => ?_⟩
  rw [List.append_assoc, List.singleton_append, readString_flatMap]
  simp

/-! ## Numbers -/

/-- What follows a value in a text: the next part is behind a comma or on a new line. -/
def Stops (rest : List Char) : Prop := ∀ c, rest.head? = some c → c = ',' ∨ c = '\n'

theorem Stops.not_digit {rest : List Char} (h : Stops rest) (c : Char)
    (hc : rest.head? = some c) : isDigit 10 c = false := by
  rcases h c hc with rfl | rfl <;> decide

theorem spanDigits_append {ds rest : List Char} (hds : ds.all (isDigit 10) = true)
    (hrest : ∀ c, rest.head? = some c → isDigit 10 c = false) :
    spanDigits (ds ++ rest) = (ds, rest) := by
  have hnone : rest.takeWhile (isDigit 10) = [] ∧ rest.dropWhile (isDigit 10) = rest := by
    cases rest with
    | nil => exact ⟨rfl, rfl⟩
    | cons c more => simp [hrest c rfl]
  have hall : ∀ c ∈ ds, isDigit 10 c = true := List.all_eq_true.mp hds
  rw [spanDigits, List.span_eq_takeWhile_dropWhile, List.takeWhile_append_of_pos hall,
    List.dropWhile_append_of_pos hall, hnone.1, hnone.2, List.append_nil]

theorem readWhole_append {ds rest : List Char} (hds : IsWhole ds)
    (hrest : ∀ c, rest.head? = some c → isDigit 10 c = false) :
    readWhole (ds ++ rest) = some (ds, rest) := by
  by_cases hzero : ds.head? = some '0'
  · rw [hds.leading hzero]
    rfl
  · unfold readWhole
    split
    · next hcs =>
        rw [← List.head?_append_of_ne_nil _ hds.nonempty, hcs] at hzero
        exact absurd rfl hzero
    · simp [spanDigits_append hds.digits hrest, hds.nonempty]

/-- The digits behind the point end where no digit goes on. -/
theorem readFraction_pointed {fraction rest : List Char}
    (hfraction : fraction.all (isDigit 10) = true)
    (hrest : ∀ c, rest.head? = some c → isDigit 10 c = false ∧ c ≠ '.') :
    readFraction (Layout.pointed fraction ++ rest) = some (fraction, rest) := by
  by_cases hnil : fraction = []
  · rw [hnil]
    show readFraction rest = _
    unfold readFraction
    split
    · exact absurd rfl (hrest '.' rfl).2
    · rfl
  · have hspan := spanDigits_append hfraction fun c hc => (hrest c hc).1
    simp [Layout.pointed, hnil, readFraction, hspan]

theorem readExponent_powered (power : Option Int) {rest : List Char} (hrest : Stops rest) :
    readExponent (Layout.powered power ++ rest) = some (power, rest) := by
  cases power with
  | none =>
      cases rest with
      | nil => rfl
      | cons c more => rcases hrest c rfl with rfl | rfl <;> rfl
  | some power =>
      have hwhole := isWhole_decimal power.natAbs
      have hread : read 10 (decimal power.natAbs) = power.natAbs :=
        read_write (by decide) (by decide) _
      have hspan := spanDigits_append hwhole.digits hrest.not_digit
      by_cases hneg : power < 0
      · simp [Layout.powered, hneg, readExponent, hspan, hwhole.nonempty, hread, abs_of_neg hneg]
      · simp [Layout.powered, hneg, readExponent, hspan, hwhole.nonempty, hread,
          abs_of_nonneg (not_lt.mp hneg)]

/-- A number is read back from its sign and its parts. -/
theorem readNumber_parts (negative : Bool) {cs whole fraction rest : List Char} {power : Option Int}
    (split : cs = whole ++ (Layout.pointed fraction ++ Layout.powered power))
    (hwhole : IsWhole whole) (hfraction : fraction.all (isDigit 10) = true) (hrest : Stops rest) :
    readNumber ((if negative then ['-'] else []) ++ cs ++ rest) =
      (number? negative whole fraction power).map fun value => (value, rest) := by
  obtain ⟨c, more, hcs, hc⟩ := hwhole.exists_head
  have hpower : ∀ c, (Layout.powered power ++ rest).head? = some c →
      isDigit 10 c = false ∧ c ≠ '.' := by
    cases power with
    | none => exact fun c hc => by rcases hrest c hc with rfl | rfl <;> decide
    | some power =>
        rintro c ⟨⟩
        decide
  have hpoint : ∀ c, (Layout.pointed fraction ++ (Layout.powered power ++ rest)).head? = some c →
      isDigit 10 c = false := by
    by_cases hnil : fraction = []
    · rw [hnil]
      exact fun c hc => (hpower c hc).1
    · rintro c hc
      simp only [Layout.pointed, List.isEmpty_iff, hnil, if_false] at hc
      cases hc
      decide
  have hsign : readSign ((if negative then ['-'] else []) ++ cs ++ rest) =
      (negative, whole ++ (Layout.pointed fraction ++ (Layout.powered power ++ rest))) := by
    have hne : c ≠ '-' := by
      rintro rfl
      exact absurd hc (by decide)
    rw [split]
    cases negative with
    | true => simp [readSign]
    | false => simp [readSign, hcs, hne]
  rw [readNumber, hsign]
  simp only [readWhole_append hwhole hpoint, readFraction_pointed hfraction hpower,
    readExponent_powered power hrest, Option.bind_eq_bind, Option.bind_some]
  cases number? negative whole fraction power <;> rfl

/-- The text of a number, which is read back where a value may end. -/
structure IsNumber (text : List Char) (value : Json) : Prop where
  head : ∃ c more, text = c :: more ∧ (isDigit 10 c = true ∨ c = '-')
  reads : ∀ rest, Stops rest → readNumber (text ++ rest) = some (value, rest)

theorem isNumber_parts {negative : Bool} {cs whole fraction : List Char} {power : Option Int}
    {value : Json} (split : cs = whole ++ (Layout.pointed fraction ++ Layout.powered power))
    (hwhole : IsWhole whole) (hfraction : fraction.all (isDigit 10) = true)
    (hvalue : number? negative whole fraction power = some value) :
    IsNumber ((if negative then ['-'] else []) ++ cs) value := by
  refine ⟨?_, fun rest hrest => ?_⟩
  · obtain ⟨c, more, hcs, hc⟩ := hwhole.exists_head
    cases negative with
    | true => exact ⟨'-', cs, rfl, .inr rfl⟩
    | false => exact ⟨c, _, by rw [split, hcs]; rfl, .inl hc⟩
  · rw [readNumber_parts negative split hwhole hfraction hrest, hvalue]
    rfl

/-- An integer is a whole number, and there is no negative zero among them. -/
theorem isNumber_int (n : JsonInt) : IsNumber (intText n.val).toList (.int n) := by
  have hread : read 10 (decimal n.val.natAbs) = n.val.natAbs :=
    read_write (by decide) (by decide) _
  have htext : (intText n.val).toList =
      (if decide (n.val < 0) then ['-'] else []) ++ decimal n.val.natAbs := by
    rw [intText, natText]
    by_cases hneg : n.val < 0 <;> simp [hneg]
  have hvalue : (if decide (n.val < 0) then -(n.val.natAbs : Int) else n.val.natAbs) = n.val := by
    by_cases hneg : n.val < 0
    · rw [if_pos (decide_eq_true hneg)]
      omega
    · rw [if_neg (by simpa using hneg)]
      omega
  have hzero : (decide (n.val < 0) && decide (n.val.natAbs = 0)) = false := by
    simp only [Bool.and_eq_false_iff, decide_eq_false_iff_not]
    omega
  have hint : JsonInt.ofInt? n.val = some n := dif_pos ⟨n.lower, n.upper⟩
  have hsplit : decimal n.val.natAbs =
      decimal n.val.natAbs ++ (Layout.pointed [] ++ Layout.powered none) :=
    (List.append_nil _).symm
  rw [htext]
  refine isNumber_parts hsplit (isWhole_decimal _) rfl ?_
  rw [number?]
  simp only [List.append_nil, hread, hvalue, hzero, hint]
  rfl

/-- A double has a fraction or an exponent. -/
theorem isNumber_float (x : FiniteFloat) :
    IsNumber (Layout.json.write x.val).toList (.float x) := by
  obtain ⟨whole, fraction, power, cs, h, hwrite, hnearest⟩ := Layout.write_json x.finite
  have hplain : (fraction.isEmpty && power.isNone) = false := by
    rcases h.notAlone with hne | hne
    · simp [hne]
    · cases power with
      | none => exact absurd rfl hne
      | some power => simp
  have hfloat : FiniteFloat.ofFloat? x.val = some x := dif_pos x.finite
  rw [hwrite]
  refine isNumber_parts h.split h.whole h.digits ?_
  rw [number?]
  simp only [hplain, hnearest, hfloat]
  rfl

end Json

end Autoscaling

import Autoscaling.Proofs.Decimal.Layout
import Autoscaling.Toml.Printer

/-!
# Numbers are read back

An integer and a finite double are read back where a value may end (`Toml.isNumber_int`,
`Toml.isNumber_float`).  They begin like a date or a time of day, but neither a minus sign nor a
colon follows their digits, so they are not taken for one (`Toml.readMoment_eq_none`).
-/

namespace Autoscaling

namespace Toml

open Digits

/-! ## Where a value ends -/

/-- The characters that follow a value. -/
def stops : List Char := ['\n', ',', ' ', ']']

/-- The text goes on with a character that follows a value, or ends. -/
def Stops (rest : List Char) : Prop := ∀ c, rest.head? = some c → c ∈ stops

theorem Stops.head_ne {rest : List Char} (h : Stops rest) {c : Char} (hc : c ∉ stops) :
    rest.head? ≠ some c :=
  fun hhead => hc (h c hhead)

theorem Stops.head {rest : List Char} (h : Stops rest) {p : Char → Bool}
    (hp : ∀ c ∈ stops, p c = false) (c : Char) (hc : rest.head? = some c) : p c = false :=
  hp c (h c hc)

theorem isDigit_stops : ∀ c ∈ stops, isDigit 10 c = false := by
  simp [stops, isDigit, value?]

/-! ## Digits -/

section Runs

variable {base : Nat} {ds rest : List Char}

theorem isDigit_ne {c d : Char} (hc : isDigit base c = true) (hd : isDigit base d = false) :
    c ≠ d := by
  rintro rfl
  rw [hc] at hd
  exact absurd hd (by decide)

theorem isDigit_underscore (base : Nat) : isDigit base '_' = false := by
  simp [isDigit, value?]

/-- A run of digits ends where no digit and no underscore follows. -/
theorem moreDigits_append (hds : ds.all (isDigit base) = true)
    (hrest : ∀ c, rest.head? = some c → isDigit base c = false)
    (hmark : rest.head? ≠ some '_') : moreDigits base (ds ++ rest) = (ds, rest) := by
  induction ds with
  | nil =>
      cases rest with
      | nil => rfl
      | cons c more =>
          have hc : isDigit base c = false := hrest c rfl
          have hne : c ≠ '_' := by simpa using hmark
          cases more <;> simp [moreDigits, hc, hne]
  | cons c ds ih =>
      simp only [List.all_cons, Bool.and_eq_true] at hds
      have hne : c ≠ '_' := isDigit_ne hds.1 (isDigit_underscore base)
      have ih := ih hds.2
      cases hmore : ds ++ rest with
      | nil =>
          obtain ⟨rfl, rfl⟩ := List.append_eq_nil_iff.mp hmore
          simp [moreDigits, hds.1]
      | cons d more =>
          rw [hmore] at ih
          simp [hmore, moreDigits, hds.1, hne, ih]

theorem digits?_append (hds : ds.all (isDigit base) = true) (hne : ds ≠ [])
    (hrest : ∀ c, rest.head? = some c → isDigit base c = false)
    (hmark : rest.head? ≠ some '_') : digits? base (ds ++ rest) = some (ds, rest) := by
  cases ds with
  | nil => exact absurd rfl hne
  | cons d ds =>
      simp only [List.all_cons, Bool.and_eq_true] at hds
      simp [digits?, hds.1, moreDigits_append hds.2 hrest hmark]

theorem whole?_append (hds : IsWhole ds) (hrest : ∀ c, rest.head? = some c → isDigit 10 c = false)
    (hmark : rest.head? ≠ some '_') : whole? (ds ++ rest) = some (ds, rest) := by
  by_cases hzero : ds.head? = some '0'
  · rw [hds.leading hzero]
    rfl
  · have hdigits := digits?_append hds.digits hds.nonempty hrest hmark
    cases hcs : ds with
    | nil => exact absurd hcs hds.nonempty
    | cons d more =>
        have hd : d ≠ '0' := by simpa [hcs] using hzero
        rw [hcs] at hdigits
        unfold whole?
        split
        · simp_all
        · exact hdigits

end Runs

/-! ## No points of time -/

section Moments

variable {w rest : List Char}

/-- Digits with a point among them, perhaps. -/
def IsNumeral (w : List Char) : Prop := ∀ c ∈ w, isDigit 10 c = true ∨ c = '.'

theorem fixed?_numeral (hw : IsNumeral w) (hrest : Stops rest) {width n : Nat} {cs : List Char}
    (h : fixed? width (w ++ rest) = some (n, cs)) : ∃ w', IsNumeral w' ∧ cs = w' ++ rest := by
  simp only [fixed?] at h
  split_ifs at h with hdigits
  simp only [Bool.and_eq_true, decide_eq_true_eq] at hdigits
  obtain ⟨-, rfl⟩ : _ ∧ (w ++ rest).drop width = cs := by simpa using h
  have hwidth : width ≤ w.length := by
    by_contra hgt
    -- the digits would reach into what follows
    cases hcs : rest with
    | nil =>
        rw [hcs, List.append_nil, List.length_take] at hdigits
        omega
    | cons c more =>
        obtain ⟨k, hk⟩ : ∃ k, width - w.length = k + 1 := ⟨width - w.length - 1, by omega⟩
        have hmem : c ∈ (w ++ rest).take width := by
          rw [List.take_append, hcs, hk]
          simp
        have hdigit := List.all_eq_true.mp hdigits.2 c hmem
        have hstop := hrest.head isDigit_stops c (by rw [hcs]; rfl)
        rw [hdigit] at hstop
        exact absurd hstop (by decide)
  refine ⟨w.drop width, fun c hc => hw c (List.mem_of_mem_drop hc), ?_⟩
  exact List.drop_append_of_le_length hwidth

theorem within?_numeral (hw : IsNumeral w) (hrest : Stops rest) {width least greatest n : Nat}
    {cs : List Char} (h : within? width least greatest (w ++ rest) = some (n, cs)) :
    ∃ w', IsNumeral w' ∧ cs = w' ++ rest := by
  cases hfixed : fixed? width (w ++ rest) with
  | none => simp [within?, hfixed] at h
  | some read =>
      obtain ⟨w', hw', hcs⟩ := fixed?_numeral hw hrest hfixed
      simp only [within?, hfixed, Option.bind_eq_bind, Option.bind_some] at h
      split_ifs at h
      exact ⟨w', hw', by simpa [← hcs] using (congrArg (Option.map Prod.snd) h).symm⟩

theorem mark?_numeral (hw : IsNumeral w) (hrest : Stops rest) {c : Char}
    (hc : isDigit 10 c = false) (hpoint : c ≠ '.') (hstop : c ∉ stops) :
    mark? c (w ++ rest) = none := by
  cases w with
  | nil =>
      cases rest with
      | nil => rfl
      | cons d rest =>
          have hd : d ≠ c := fun h => hstop (h ▸ hrest d rfl)
          simp [mark?, hd]
  | cons d w =>
      have hd : d ≠ c := by
        rcases hw d (by simp) with hdigit | rfl
        · exact isDigit_ne hdigit hc
        · exact Ne.symm hpoint
      simp [mark?, hd]

theorem fixed?_of_not_digit {c : Char} (hc : isDigit 10 c = false) (width : Nat) (cs : List Char) :
    fixed? (width + 1) (c :: cs) = none := by
  simp [fixed?, hc]

/-- A number is not taken for a point of time. -/
theorem readMoment_eq_none (hw : IsNumeral w) (hrest : Stops rest) (negative : Bool) :
    readMoment ((if negative then ['-'] else []) ++ w ++ rest) = none := by
  cases negative with
  | true =>
      have hfixed (width : Nat) (cs : List Char) : fixed? (width + 1) ('-' :: cs) = none :=
        fixed?_of_not_digit (by decide) width cs
      simp [readMoment, date?, time?, within?, hfixed]
  | false =>
      have hdate : date? (w ++ rest) = none := by
        cases hyear : fixed? 4 (w ++ rest) with
        | none => simp [date?, hyear]
        | some read =>
            obtain ⟨w', hw', hcs⟩ := fixed?_numeral hw hrest hyear
            have hmark := mark?_numeral (c := '-') hw' hrest (by decide) (by decide) (by decide)
            simp [date?, hyear, hcs, hmark]
      have htime : time? (w ++ rest) = none := by
        cases hhour : within? 2 0 23 (w ++ rest) with
        | none => simp [time?, hhour]
        | some read =>
            obtain ⟨w', hw', hcs⟩ := within?_numeral hw hrest hhour
            have hmark := mark?_numeral (c := ':') hw' hrest (by decide) (by decide) (by decide)
            simp [time?, hhour, hcs, hmark]
      simp [readMoment, hdate, htime]

end Moments

/-! ## Numbers -/

section Numbers

variable {ds rest : List Char}

/-- A sign and what it stands before. -/
def signed (negative : Bool) (cs : List Char) : List Char :=
  (if negative then ['-'] else []) ++ cs

theorem sign_signed (negative : Bool) {c : Char} (cs : List Char) (hc : isDigit 10 c = true) :
    sign (signed negative (c :: cs)) = (negative, c :: cs) := by
  cases negative with
  | true => rfl
  | false =>
      have hplus : c ≠ '+' := isDigit_ne hc (by decide)
      have hminus : c ≠ '-' := isDigit_ne hc (by decide)
      show sign (c :: cs) = _
      unfold sign
      split <;> simp_all

/-- What begins with a digit and goes on as a number is read as a decimal number. -/
theorem readNumber_signed (negative : Bool) {c : Char} {cs : List Char}
    (hc : isDigit 10 c = true) (hx : cs.head? ≠ some 'x') (ho : cs.head? ≠ some 'o')
    (hb : cs.head? ≠ some 'b') :
    readNumber (signed negative (c :: cs)) = readDecimal negative (c :: cs) := by
  have hi : c ≠ 'i' := isDigit_ne hc (by decide)
  have hn : c ≠ 'n' := isDigit_ne hc (by decide)
  have hsign := sign_signed negative cs hc
  have hbased (d : Char) (more : List Char) (hd : cs.head? ≠ some d) :
      signed negative (c :: cs) ≠ '0' :: d :: more := by
    intro h
    cases negative with
    | true => simp [signed] at h
    | false =>
        simp only [signed, Bool.false_eq_true, if_false, List.nil_append, List.cons.injEq] at h
        rw [h.2] at hd
        exact hd rfl
  unfold readNumber
  split
  · exact absurd ‹_› (hbased 'x' _ hx)
  · exact absurd ‹_› (hbased 'o' _ ho)
  · exact absurd ‹_› (hbased 'b' _ hb)
  · simp only [hsign]
    split
    · simp_all
    · simp_all
    · rfl

theorem exponent?_stops (hrest : Stops rest) : exponent? rest = some (none, rest) := by
  cases rest with
  | nil => rfl
  | cons c rest =>
      have he : c ≠ 'e' := by simpa using hrest.head_ne (c := 'e') (by decide)
      have hE : c ≠ 'E' := by simpa using hrest.head_ne (c := 'E') (by decide)
      simp [exponent?, he, hE]

/-- An integer has no fraction. -/
theorem readDecimal_int {n : Int64} {negative : Bool} (hds : IsWhole ds) (hrest : Stops rest)
    (hn : (if negative then -(read 10 ds : Int) else read 10 ds) = n.toInt) :
    readDecimal negative (ds ++ rest) = some (.int n, rest) := by
  have hwhole := whole?_append hds (hrest.head isDigit_stops) (hrest.head_ne (by decide))
  have hfraction : fraction? rest = some (none, rest) := by
    unfold fraction?
    split
    · exact absurd rfl (hrest.head_ne (c := '.') (by decide))
    · rfl
  have hinteger : integer? n.toInt = some (.int n) := by
    have hrange : -9223372036854775808 ≤ n.toInt ∧ n.toInt < 9223372036854775808 :=
      ⟨n.le_toInt, n.toInt_lt⟩
    rw [integer?, if_pos hrange, Int64.ofInt_toInt]
  simp only [readDecimal, hwhole, hfraction, exponent?_stops hrest, Option.bind_eq_bind,
    Option.bind_some, Option.isNone_none, Bool.and_self, if_true, hn, hinteger]

/-- A double in full has a fraction. -/
theorem readDecimal_float {x : Float} (hfinite : x.isInf = false) {negative : Bool}
    {cs whole fraction : List Char} (h : Layout.InFull cs whole fraction) (hrest : Stops rest)
    (hx : nearest negative (read 10 (whole ++ fraction)) (-(fraction.length : Int)) = x) :
    readDecimal negative (cs ++ rest) = some (.float x, rest) := by
  have hwhole : whole? (whole ++ '.' :: (fraction ++ rest)) =
      some (whole, '.' :: (fraction ++ rest)) :=
    whole?_append h.whole (by simp [isDigit, value?]) (by simp)
  have hfraction : fraction? ('.' :: (fraction ++ rest)) = some (some fraction, rest) := by
    have hdigits := digits?_append h.digits h.nonempty (hrest.head isDigit_stops)
      (hrest.head_ne (by decide))
    simp [fraction?, hdigits]
  rw [h.split, List.append_assoc, List.cons_append]
  simp [readDecimal, hwhole, hfraction, exponent?_stops hrest, hx, hfinite]

theorem isNumeral_of_digits (h : ds.all (isDigit 10) = true) : IsNumeral ds :=
  fun c hc => .inl (List.all_eq_true.mp h c hc)

/-- The text of a number: not that of a point of time, and read back where a value may end. -/
structure IsNumber (text : List Char) (v : Toml) : Prop where
  head : ∃ c more, text = c :: more ∧ (isDigit 10 c = true ∨ c = '-')
  noMoment : ∀ rest, Stops rest → readMoment (text ++ rest) = none
  reads : ∀ rest, Stops rest → readNumber (text ++ rest) = some (v, rest)

theorem isNumber_signed (negative : Bool) {w : List Char} {v : Toml} (hw : IsNumeral w)
    (hhead : ∃ c more, w = c :: more ∧ isDigit 10 c = true)
    (hreads : ∀ rest, Stops rest → readDecimal negative (w ++ rest) = some (v, rest)) :
    IsNumber (signed negative w) v := by
  obtain ⟨c, more, rfl, hc⟩ := hhead
  refine ⟨?_, fun rest hrest => readMoment_eq_none hw hrest negative, fun rest hrest => ?_⟩
  · cases negative with
    | true => exact ⟨'-', c :: more, rfl, .inr rfl⟩
    | false => exact ⟨c, more, rfl, .inl hc⟩
  · have hne {d : Char} (hd : isDigit 10 d = false) (hpoint : d ≠ '.') (hstop : d ∉ stops) :
        (more ++ rest).head? ≠ some d := by
      cases more with
      | nil => exact hrest.head_ne hstop
      | cons e more =>
          have he : e ≠ d := by
            rcases hw e (by simp) with hdigit | rfl
            · exact isDigit_ne hdigit hd
            · exact Ne.symm hpoint
          simpa using he
    have hsigned : signed negative (c :: more) ++ rest = signed negative (c :: (more ++ rest)) :=
      List.append_assoc ..
    rw [hsigned, readNumber_signed negative hc (hne (by decide) (by decide) (by decide))
      (hne (by decide) (by decide) (by decide)) (hne (by decide) (by decide) (by decide))]
    exact hreads rest hrest

theorem isNumber_int (n : Int64) : IsNumber (intText n.toInt).toList (.int n) := by
  have hwhole := isWhole_decimal n.toInt.natAbs
  have hread : read 10 (decimal n.toInt.natAbs) = n.toInt.natAbs :=
    read_write (by decide) (by decide) _
  have htext : (intText n.toInt).toList =
      signed (decide (n.toInt < 0)) (decimal n.toInt.natAbs) := by
    rw [intText, natText, signed]
    by_cases hneg : n.toInt < 0 <;> simp [hneg]
  rw [htext]
  refine isNumber_signed _ (isNumeral_of_digits hwhole.digits) hwhole.exists_head
    fun rest hrest => readDecimal_int hwhole hrest ?_
  rw [hread]
  by_cases hneg : n.toInt < 0
  · rw [decide_eq_true hneg, if_pos rfl]
    omega
  · rw [decide_eq_false hneg, if_neg Bool.false_ne_true]
    omega

theorem isNumber_float {x : Float} (finite : x.isFinite = true) :
    IsNumber (Layout.file.write x).toList (.float x) := by
  obtain ⟨whole, fraction, w, h, hwrite, hnearest⟩ := Layout.write_file finite
  obtain ⟨c, more, hwhole, hc⟩ := h.whole.exists_head
  have hnumeral : IsNumeral w := by
    intro d hd
    rw [h.split, List.mem_append, List.mem_cons] at hd
    rcases hd with hd | rfl | hd
    · exact isNumeral_of_digits h.whole.digits d hd
    · exact .inr rfl
    · exact isNumeral_of_digits h.digits d hd
  rw [hwrite]
  refine isNumber_signed _ hnumeral ⟨c, more ++ '.' :: fraction, by rw [h.split, hwhole]; rfl, hc⟩
    fun rest hrest => ?_
  exact readDecimal_float (Layout.isInf_of_isFinite finite) h hrest hnearest

end Numbers

end Toml

end Autoscaling

import Autoscaling.Toml.Printer
import Mathlib.Data.List.TakeDrop
import Mathlib.Tactic.Common

/-!
# Texts and keys are read back

A text is written between the first quotes that it can stand between, and whichever those are, the
reader finds the text again (`Toml.readText_writeText`).  Between three quotes the one thing that
takes care is where the text ends: up to two quotes in a row may stand inside it, also directly in
front of the closing ones.  So what remains of a text either has quotes only, and then it ends here,
or it has another character after at most two quotes, and then it does not.
-/

namespace Autoscaling

namespace Toml

/-! ## Pieces -/

theorem isPlain_or_eq_of_not_isControl {c : Char} (h : isControl c = false) :
    isPlain c = true ∨ c = '\n' := by
  simp only [isControl, Bool.and_eq_false_iff, Bool.not_eq_false', bne_eq_false_iff_eq] at h
  exact h

/-- A character that is given by its code point. -/
theorem codePoint?_append {digits : List Char} {c : Char} {width : Nat}
    (hlength : digits.length = width) (hdigits : digits.all (Digits.isDigit 16) = true)
    (hread : Digits.read 16 digits = c.toNat) (rest : List Char) :
    codePoint? width (digits ++ rest) = some ([c], rest) := by
  have htake : (digits ++ rest).take width = digits := List.take_left' hlength
  have hdrop : (digits ++ rest).drop width = rest := List.drop_left' hlength
  have hvalid : c.toNat.isValidChar := c.valid
  simp only [codePoint?, htake, hdrop, hlength, hdigits, hread, hvalid, Char.ofNat_toNat]
  simp

theorem padded_upper : ∀ n < 128,
    let digits := (Digits.padded 16 4 n).map Char.toUpper
    digits.length = 4 ∧ digits.all (Digits.isDigit 16) = true ∧ Digits.read 16 digits = n := by
  decide

/-- Whether a character has an escape. -/
def HasEscape (c : Char) : Prop := c = '"' ∨ c = '\\' ∨ c = '\t' ∨ c = '\n' ∨ isControl c = true

/-- An escape stands for its character and does not leave out the end of a line. -/
theorem escape?_escapeOf {c : Char} (h : HasEscape c) (rest : List Char) :
    ∃ tail, escapeOf c = '\\' :: tail ∧ escape? (tail ++ rest) = some ([c], rest) ∧
      lineEnd? (dropBlanks (tail ++ rest)) = none := by
  unfold escapeOf
  split_ifs with hb ht hn hf hr hq hs
  · exact ⟨['b'], rfl, by rw [hb]; rfl, rfl⟩
  · exact ⟨['t'], rfl, by rw [ht]; rfl, rfl⟩
  · exact ⟨['n'], rfl, by rw [hn]; rfl, rfl⟩
  · exact ⟨['f'], rfl, by rw [hf]; rfl, rfl⟩
  · exact ⟨['r'], rfl, by rw [hr]; rfl, rfl⟩
  · exact ⟨['"'], rfl, by rw [hq]; rfl, rfl⟩
  · exact ⟨['\\'], rfl, by rw [hs]; rfl, rfl⟩
  · have hcontrol : isControl c = true := by simpa [HasEscape, hq, hs, ht, hn] using h
    have hsmall : c.toNat < 128 := by
      simp only [isControl, isPlain] at hcontrol
      simp at hcontrol
      omega
    obtain ⟨hlength, hdigits, hread⟩ := padded_upper c.toNat hsmall
    refine ⟨_, rfl, ?_, rfl⟩
    exact codePoint?_append hlength hdigits hread rest

namespace Quotes

variable {q : Quotes}

theorem piece?_plain {c : Char} (h : isPlain c = true) (raw : c ≠ '\\' ∨ q.escapes = false)
    (rest : List Char) : q.piece? (c :: rest) = some ([c], rest) := by
  have hescape : (c = '\\' && q.escapes) = false := by
    rcases raw with raw | raw <;> simp [raw]
  simp only [piece?]
  rw [if_neg (by simpa using hescape), if_pos h]

theorem piece?_newline (multi : q.multi = true) (rest : List Char) :
    q.piece? ('\n' :: rest) = some (['\n'], rest) := by
  simp [piece?, multi, isPlain, lineEnd?]

theorem piece?_escape (escapes : q.escapes = true) {c : Char} (h : HasEscape c)
    (rest : List Char) : q.piece? (escapeOf c ++ rest) = some ([c], rest) := by
  obtain ⟨tail, htail, hescape, hline⟩ := escape?_escapeOf h rest
  simp [htail, piece?, escapes, hescape, hline]

/-! ## Where a text ends -/

/-- How many quotes in a row may stand in a text. -/
def inside (q : Quotes) : Nat := if q.multi then 2 else 0

@[simp] theorem inside_line (quote : Char) : inside ⟨quote, false⟩ = 0 := rfl

@[simp] theorem inside_lines (quote : Char) : inside ⟨quote, true⟩ = 2 := rfl

theorem takeWhile_quotes {k : Nat} {rest : List Char} (h : rest.head? ≠ some q.quote) :
    (List.replicate k q.quote ++ rest).takeWhile (· == q.quote) = List.replicate k q.quote := by
  have hrest : rest.takeWhile (· == q.quote) = [] := by
    cases rest with
    | nil => rfl
    | cons c rest => exact List.takeWhile_cons_of_neg (by simpa using h)
  rw [List.takeWhile_append_of_pos (by simp), hrest, List.append_nil]

/-- Quotes in front of the closing ones belong to the text, as many as may stand in it. -/
theorem closing?_eq_some {k : Nat} (hk : k ≤ q.inside) {rest : List Char}
    (h : rest.head? ≠ some q.quote) :
    q.closing? (List.replicate k q.quote ++ (List.replicate (q.inside + 1) q.quote ++ rest)) =
      some (List.replicate k q.quote, rest) := by
  rw [← List.append_assoc, List.replicate_append_replicate]
  cases multi : q.multi with
  | true =>
      have hinside : q.inside = 2 := by simp [inside, multi]
      have hkept : min (k + 3 - 3) 2 = k := by omega
      simp only [closing?, multi, takeWhile_quotes h, List.length_replicate, hinside, hkept]
      rw [List.drop_left' (by simp)]
      simp
  | false =>
      obtain rfl : k = 0 := by simpa [inside, multi] using hk
      simp [closing?, multi, inside]

/-- A text does not end at quotes that may stand in it. -/
theorem closing?_eq_none {k : Nat} (hk : k ≤ q.inside) {c : Char} (hc : c ≠ q.quote)
    (rest : List Char) : q.closing? (List.replicate k q.quote ++ c :: rest) = none := by
  have hrun : (c :: rest).head? ≠ some q.quote := by simpa using hc
  simp only [closing?, takeWhile_quotes hrun, List.length_replicate]
  cases multi : q.multi with
  | true =>
      have hinside : q.inside = 2 := by simp [inside, multi]
      simp
      omega
  | false =>
      obtain rfl : k = 0 := by simpa [inside, multi] using hk
      simp

/-! ## Spellings -/

/-- How a text can be spelled between quotes: each character in a piece of its own, and no more
quotes in a row than may stand in a text; `run` quotes stand in front. -/
inductive Spells (q : Quotes) : Nat → List Char → List Char → Prop
  | nil {run : Nat} : Spells q run [] []
  | quote {run : Nat} {cs spelling : List Char} (room : run < q.inside)
      (reads : ∀ rest, q.piece? (q.quote :: rest) = some ([q.quote], rest)) :
      Spells q (run + 1) cs spelling → Spells q run (q.quote :: cs) (q.quote :: spelling)
  | piece {run : Nat} {c first : Char} {more cs spelling : List Char} (apart : first ≠ q.quote)
      (reads : ∀ rest, q.piece? (first :: more ++ rest) = some ([c], rest)) :
      Spells q 0 cs spelling → Spells q run (c :: cs) (first :: more ++ spelling)

theorem readRest_piece {cs rest : List Char} {c : Char} (hopen : q.closing? cs = none)
    (h : q.piece? cs = some ([c], rest)) (fuel : Nat) (seen : List Char) :
    q.readRest (fuel + 1) seen cs = q.readRest fuel (c :: seen) rest := by
  simp [readRest, hopen, h]

namespace Spells

variable {run : Nat} {cs spelling : List Char}

/-- A text that has quotes only, or something else after some quotes. -/
theorem ends_or_continues (h : q.Spells run cs spelling) (hrun : run ≤ q.inside) :
    (∃ k, run + k ≤ q.inside ∧ cs = List.replicate k q.quote ∧
      spelling = List.replicate k q.quote) ∨
    ∃ k c rest, run + k ≤ q.inside ∧ c ≠ q.quote ∧
      spelling = List.replicate k q.quote ++ c :: rest := by
  induction h with
  | nil => exact .inl ⟨0, hrun, rfl, rfl⟩
  | quote room _ _ ih =>
      obtain ⟨k, hk, rfl, rfl⟩ | ⟨k, c, rest, hk, hc, rfl⟩ := ih room
      · exact .inl ⟨k + 1, by omega, rfl, rfl⟩
      · exact .inr ⟨k + 1, c, rest, by omega, hc, rfl⟩
  | piece apart _ _ _ => exact .inr ⟨0, _, _, hrun, apart, rfl⟩

theorem length_le (h : q.Spells run cs spelling) : cs.length ≤ spelling.length := by
  induction h with
  | nil => exact Nat.le_refl 0
  | quote _ _ _ ih => simpa using ih
  | piece _ _ _ ih =>
      simp only [List.length_cons, List.length_append]
      omega

/-- A spelled text is read up to the closing quotes. -/
theorem readRest_eq (h : q.Spells run cs spelling) (hrun : run ≤ q.inside) {rest : List Char}
    (hrest : rest.head? ≠ some q.quote) {fuel : Nat} (enough : cs.length < fuel)
    (seen : List Char) :
    q.readRest fuel seen (spelling ++ (List.replicate (q.inside + 1) q.quote ++ rest)) =
      some (String.ofList (seen.reverse ++ cs), rest) := by
  induction h generalizing fuel seen with
  | nil =>
      obtain ⟨fuel, rfl⟩ := Nat.exists_eq_add_one_of_ne_zero (Nat.ne_zero_of_lt enough)
      have hclose := closing?_eq_some (Nat.zero_le q.inside) hrest
      rw [List.replicate_zero, List.nil_append] at hclose
      simp [readRest, hclose]
  | quote room reads hspells ih =>
      obtain ⟨fuel, rfl⟩ := Nat.exists_eq_add_one_of_ne_zero (Nat.ne_zero_of_lt enough)
      obtain ⟨k, hk, rfl, rfl⟩ | ⟨k, c, others, hk, hc, rfl⟩ := hspells.ends_or_continues room
      · have hclose := closing?_eq_some (k := k + 1) (by omega) hrest
        rw [← List.replicate_succ]
        simp [readRest, hclose]
      · -- the quote does not end the text, for something else comes soon enough
        have hopen := closing?_eq_none (k := k + 1) (by omega) hc
          (others ++ (List.replicate (q.inside + 1) q.quote ++ rest))
        rw [List.cons_append, readRest_piece (by simpa [List.replicate_succ] using hopen)
          (reads _), ih room (by simpa using enough)]
        simp
  | @piece run c first more cs spelling apart reads _ ih =>
      obtain ⟨fuel, rfl⟩ := Nat.exists_eq_add_one_of_ne_zero (Nat.ne_zero_of_lt enough)
      have hopen := closing?_eq_none (Nat.zero_le q.inside) apart
        (more ++ (spelling ++ (List.replicate (q.inside + 1) q.quote ++ rest)))
      rw [List.append_assoc, readRest_piece (by simpa using hopen) (reads _),
        ih (Nat.zero_le _) (by simpa using enough)]
      simp

end Spells

/-! ## The spellings in use -/

/-- Between double quotes everything can be spelled. -/
theorem spells_escaped (multi : Bool) (cs : List Char) (run : Nat) :
    Spells ⟨'"', multi⟩ run cs (escaped multi run cs) := by
  induction cs generalizing run with
  | nil => exact .nil
  | cons c cs ih =>
      have hescape (h : HasEscape c) :
          Spells ⟨'"', multi⟩ run (c :: cs) (escapeOf c ++ escaped multi 0 cs) := by
        have reads := piece?_escape (q := ⟨'"', multi⟩) rfl h
        obtain ⟨tail, htail, -⟩ := escape?_escapeOf h []
        have apart : '\\' ≠ '"' := by decide
        rw [htail] at reads ⊢
        exact .piece apart reads (ih 0)
      rw [escaped]
      split_ifs with hquote hroom hspecial
      · obtain ⟨hmulti, hrun⟩ : multi = true ∧ run < 2 := by simpa using hroom
        have room : run < Quotes.inside ⟨'"', multi⟩ := by simpa [inside, hmulti] using hrun
        have reads := piece?_plain (q := ⟨'"', multi⟩) (c := '"') (by decide) (.inl (by decide))
        subst hquote
        exact .quote room reads (ih _)
      · exact hescape (.inl hquote)
      · refine hescape ?_
        simp only [Bool.or_eq_true, Bool.and_eq_true, decide_eq_true_eq] at hspecial
        unfold HasEscape
        tauto
      · simp only [Bool.or_eq_true, Bool.and_eq_true, decide_eq_true_eq, not_or, not_and,
          Bool.not_eq_true, Bool.not_eq_true'] at hspecial
        obtain ⟨⟨⟨hslash, -⟩, hcontrol⟩, hnewline⟩ := hspecial
        have reads : ∀ rest, Quotes.piece? ⟨'"', multi⟩ ([c] ++ rest) = some ([c], rest) := by
          intro rest
          rcases isPlain_or_eq_of_not_isControl hcontrol with hplain | rfl
          · exact piece?_plain hplain (.inl hslash) rest
          · exact piece?_newline (by simpa using hnewline rfl) rest
        exact .piece hquote reads (ih 0)

theorem le_longestRun (c : Char) (run : Nat) (cs : List Char) : run ≤ longestRun c run cs := by
  induction cs generalizing run with
  | nil => exact Nat.le_refl run
  | cons d cs ih =>
      rw [longestRun]
      split_ifs
      · exact Nat.le_trans (Nat.le_succ run) (ih (run + 1))
      · exact Nat.le_max_left _ _

/-- Between single quotes a text stands as it is, if it can stand there. -/
theorem spells_literal (multi : Bool) {cs : List Char} {run : Nat}
    (hcontrol : cs.any isControl = false) (hlines : multi = true ∨ cs.contains '\n' = false)
    (hrun : longestRun '\'' run cs ≤ Quotes.inside ⟨'\'', multi⟩) :
    Spells ⟨'\'', multi⟩ run cs cs := by
  induction cs generalizing run with
  | nil => exact .nil
  | cons c cs ih =>
      simp only [List.any_cons, Bool.or_eq_false_iff] at hcontrol
      have hlines' : multi = true ∨ cs.contains '\n' = false :=
        hlines.imp_right fun h => by
          simp only [List.contains_cons, Bool.or_eq_false_iff] at h
          exact h.2
      have reads : ∀ rest, Quotes.piece? ⟨'\'', multi⟩ ([c] ++ rest) = some ([c], rest) := by
        intro rest
        rcases isPlain_or_eq_of_not_isControl hcontrol.1 with hplain | rfl
        · exact piece?_plain hplain (.inr rfl) rest
        · exact piece?_newline (by simpa using hlines) rest
      rw [longestRun] at hrun
      split_ifs at hrun with hquote
      · subst hquote
        have hroom := Nat.le_trans (le_longestRun '\'' (run + 1) cs) hrun
        exact .quote hroom reads (ih hcontrol.2 hlines' hrun)
      · exact .piece hquote reads (ih hcontrol.2 hlines' (Nat.le_trans (Nat.le_max_right _ _) hrun))

/-- A text without line ends does not begin with one when it is spelled. -/
theorem Spells.lineEnd?_eq_none {q : Quotes} {cs spelling : List Char} {run : Nat}
    (h : q.Spells run cs spelling) (hlines : '\n' ∉ cs) (hquote : isPlain q.quote = true)
    (rest : List Char) : lineEnd? (spelling ++ q.quote :: rest) = none := by
  have hquoted (rest : List Char) : lineEnd? (q.quote :: rest) = none := by
    unfold lineEnd?
    split
    · simp_all [isPlain]
    · simp_all [isPlain]
    · rfl
  cases h with
  | nil => exact hquoted rest
  | quote => exact hquoted _
  | @piece _ c first more cs spelling apart reads _ =>
      -- a line end would be the first piece, and the text would begin with one
      have hread := reads (spelling ++ q.quote :: rest)
      rw [← List.append_assoc] at hread
      cases hend : lineEnd? (first :: more ++ spelling ++ q.quote :: rest) with
      | none => rfl
      | some next =>
          have hfirst : first = '\n' ∨ first = '\r' := by
            unfold lineEnd? at hend
            split at hend <;> simp_all
          have hpiece : q.piece? (first :: more ++ spelling ++ q.quote :: rest) =
              if q.multi then some (['\n'], next) else none := by
            simp only [List.cons_append, List.append_assoc] at hend ⊢
            rcases hfirst with rfl | rfl <;> simp [piece?, isPlain, hend]
          rw [hpiece] at hread
          split_ifs at hread
          have hc : c = '\n' := by simpa using congrArg (Option.map Prod.fst) hread.symm
          simp [hc] at hlines

end Quotes

open Quotes

/-! ## Texts -/

/-- A text between single quotes of either kind is not taken for one between three quotes. -/
theorem readText_eq_readLineText {q : Quotes} {cs spelling : List Char}
    (h : q.Spells 0 cs spelling) (single : q.multi = false) {rest : List Char}
    (hrest : rest.head? ≠ some q.quote) (fuel : Nat) :
    readText fuel (q.quote :: (spelling ++ q.quote :: rest)) =
      readLineText fuel (q.quote :: (spelling ++ q.quote :: rest)) := by
  have hinside : q.inside = 0 := by simp [inside, single]
  obtain ⟨k, hk, -, rfl⟩ | ⟨k, c, more, hk, hc, rfl⟩ := h.ends_or_continues (Nat.zero_le _)
  · obtain rfl : k = 0 := by omega
    unfold readText
    split <;> simp_all
  · obtain rfl : k = 0 := by omega
    unfold readText
    split <;> simp_all

theorem readLineText_basicText (s : List Char) {fuel : Nat} (enough : s.length < fuel)
    {rest : List Char} (hrest : rest.head? ≠ some '"') :
    readLineText fuel (basicText s ++ rest) = some (String.ofList s, rest) := by
  have hread := (spells_escaped false s 0).readRest_eq (Nat.zero_le _) hrest enough []
  simpa [readLineText, basicText] using hread

theorem readLineText_literalText {s : List Char} (hcontrol : s.any isControl = false)
    (hline : s.contains '\n' = false) (hquotes : longestRun '\'' 0 s = 0) {fuel : Nat}
    (enough : s.length < fuel) {rest : List Char} (hrest : rest.head? ≠ some '\'') :
    readLineText fuel (literalText s ++ rest) = some (String.ofList s, rest) := by
  have hread := (spells_literal false hcontrol (.inr hline) (Nat.le_of_eq hquotes)).readRest_eq
    (Nat.zero_le _) hrest enough []
  simpa [readLineText, literalText] using hread

theorem readText_basicText (s : List Char) {fuel : Nat} (enough : s.length < fuel)
    {rest : List Char} (hrest : rest.head? ≠ some '"') :
    readText fuel (basicText s ++ rest) = some (String.ofList s, rest) := by
  have hline := readText_eq_readLineText (spells_escaped false s 0) rfl hrest fuel
  have hread := readLineText_basicText s enough hrest
  simp only [basicText, List.cons_append, List.append_assoc, List.nil_append] at hread ⊢
  rw [hline, hread]

theorem readText_literalText {s : List Char} (hcontrol : s.any isControl = false)
    (hline : s.contains '\n' = false) (hquotes : longestRun '\'' 0 s = 0) {fuel : Nat}
    (enough : s.length < fuel) {rest : List Char} (hrest : rest.head? ≠ some '\'') :
    readText fuel (literalText s ++ rest) = some (String.ofList s, rest) := by
  have hspells := spells_literal false hcontrol (.inr hline) (Nat.le_of_eq hquotes)
  have hshort := readText_eq_readLineText hspells rfl hrest fuel
  have hread := readLineText_literalText hcontrol hline hquotes enough hrest
  simp only [literalText, List.cons_append, List.append_assoc, List.nil_append] at hread ⊢
  rw [hshort, hread]

/-- The line end after the opening quotes is left out, and no other one is. -/
theorem lineEnd?_opening {q : Quotes} {cs spelling : List Char} (h : q.Spells 0 cs spelling)
    (hquote : isPlain q.quote = true) (rest : List Char) :
    (lineEnd? (opening cs ++ (spelling ++ q.quote :: rest))).getD
      (opening cs ++ (spelling ++ q.quote :: rest)) = spelling ++ q.quote :: rest := by
  unfold opening
  split_ifs with hlines
  · rfl
  · rw [List.nil_append, h.lineEnd?_eq_none (by simpa using hlines) hquote, Option.getD_none]

theorem readText_basicLines (s : List Char) {fuel : Nat} (enough : s.length < fuel)
    {rest : List Char} (hrest : rest.head? ≠ some '"') :
    readText fuel (basicLines s ++ rest) = some (String.ofList s, rest) := by
  have hspells := spells_escaped true s 0
  have hread := hspells.readRest_eq (Nat.zero_le _) hrest enough []
  have hopening := lineEnd?_opening hspells (by decide) ('"' :: '"' :: rest)
  simp only [basicLines, List.append_assoc]
  change Quotes.readRest ⟨'"', true⟩ fuel [] ((lineEnd? _).getD _) = _
  exact (congrArg _ hopening).trans hread

theorem readText_literalLines {s : List Char} (hcontrol : s.any isControl = false)
    (hquotes : longestRun '\'' 0 s ≤ 2) {fuel : Nat} (enough : s.length < fuel)
    {rest : List Char} (hrest : rest.head? ≠ some '\'') :
    readText fuel (literalLines s ++ rest) = some (String.ofList s, rest) := by
  have hspells := spells_literal true hcontrol (.inl rfl) hquotes
  have hread := hspells.readRest_eq (Nat.zero_le _) hrest enough []
  have hopening := lineEnd?_opening hspells (by decide) ('\'' :: '\'' :: rest)
  simp only [literalLines, List.append_assoc]
  change Quotes.readRest ⟨'\'', true⟩ fuel [] ((lineEnd? _).getD _) = _
  exact (congrArg _ hopening).trans hread

/-- A text is read back, whichever quotes it is written between. -/
theorem readText_writeText (s : String) (fuel : Nat) (enough : s.toList.length < fuel)
    {rest : List Char} (hdouble : rest.head? ≠ some '"') (hsingle : rest.head? ≠ some '\'') :
    readText fuel (writeText s ++ rest) = some (s, rest) := by
  have hs : String.ofList s.toList = s := String.ofList_toList
  rw [writeText]
  split_ifs with h₁ h₂ h₃ h₄ h₅
  · rw [readText_basicText _ enough hdouble, hs]
  · simp only [Bool.and_eq_true, Bool.not_eq_true', decide_eq_true_eq] at h₂
    rw [readText_literalText h₂.1.1 h₂.2 h₂.1.2 enough hsingle, hs]
  · rw [readText_basicLines _ enough hdouble, hs]
  · simp only [Bool.and_eq_true, Bool.not_eq_true', decide_eq_true_eq] at h₄
    rw [readText_literalLines h₄.1 h₄.2 enough hsingle, hs]
  · rw [readText_basicLines _ enough hdouble, hs]
  · rw [readText_basicText _ enough hdouble, hs]

/-- A text takes no more characters than its written form has between the quotes. -/
theorem length_lt_writeText (s : String) : s.toList.length + 1 < (writeText s).length := by
  have hbasic := (spells_escaped false s.toList 0).length_le
  have hlines := (spells_escaped true s.toList 0).length_le
  rw [writeText]
  split_ifs <;> simp only [basicText, literalText, basicLines, literalLines, List.length_append,
    List.length_cons, List.length_nil, List.length_replicate] <;> omega

theorem writeText_eq_cons (s : String) :
    ∃ c more, writeText s = c :: more ∧ (c = '"' ∨ c = '\'') := by
  rw [writeText]
  split_ifs
  · exact ⟨_, _, rfl, .inl rfl⟩
  · exact ⟨_, _, rfl, .inr rfl⟩
  · exact ⟨_, _, rfl, .inl rfl⟩
  · exact ⟨_, _, rfl, .inr rfl⟩
  · exact ⟨_, _, rfl, .inl rfl⟩
  · exact ⟨_, _, rfl, .inl rfl⟩

/-! ## Keys -/

theorem longestRun_eq_zero {c : Char} {s : List Char} (h : c ∉ s) : longestRun c 0 s = 0 := by
  induction s with
  | nil => rfl
  | cons d s ih =>
      simp only [List.mem_cons, not_or] at h
      rw [longestRun, if_neg (Ne.symm h.1), ih h.2, Nat.max_self]

theorem isBareKeyChar_quote : isBareKeyChar '"' = false ∧ isBareKeyChar '\'' = false := by decide

/-- A key is read back. -/
theorem readName_writeKey (s : String) (fuel : Nat) (enough : s.toList.length < fuel)
    (rest : List Char) (hbare : ∀ c ∈ rest.head?, isBareKeyChar c = false)
    (hdouble : rest.head? ≠ some '"') (hsingle : rest.head? ≠ some '\'') :
    readName fuel (writeKey s ++ rest) = some (s, rest) := by
  have hs : String.ofList s.toList = s := String.ofList_toList
  have hquoted : readName fuel (basicText s.toList ++ rest) = some (s, rest) := by
    have hread := readLineText_basicText s.toList enough hdouble
    rw [hs] at hread
    simpa [readName, basicText, isBareKeyChar_quote] using hread
  rw [writeKey]
  split_ifs with h₁ h₂ h₃
  · simp only [Bool.and_eq_true, Bool.not_eq_true'] at h₁
    have hspan : (s.toList ++ rest).span isBareKeyChar = (s.toList, rest) := by
      rw [List.span_eq_takeWhile_dropWhile, List.takeWhile_append_of_pos (List.all_eq_true.mp h₁.2),
        List.dropWhile_append_of_pos (List.all_eq_true.mp h₁.2)]
      cases rest with
      | nil => simp
      | cons c rest =>
          have hc : isBareKeyChar c = false := hbare c rfl
          simp [hc]
    cases hcs : s.toList with
    | nil => simp [hcs] at h₁
    | cons c cs =>
        have hc : isBareKeyChar c = true := List.all_eq_true.mp h₁.2 c (by simp [hcs])
        rw [hcs] at hspan
        rw [hcs] at hs
        simp only [List.cons_append] at hspan ⊢
        simp only [readName, hc, hspan, hs, if_true]
  · exact hquoted
  · simp only [Bool.and_eq_true, Bool.not_eq_true'] at h₃
    have hread := readLineText_literalText h₃.1.1 h₃.1.2
      (longestRun_eq_zero (by simpa using h₃.2)) enough hsingle
    rw [hs] at hread
    simpa [readName, literalText, isBareKeyChar_quote] using hread
  · exact hquoted

theorem length_le_writeKey (s : String) : s.toList.length ≤ (writeKey s).length := by
  have hbasic := (spells_escaped false s.toList 0).length_le
  rw [writeKey]
  split_ifs
  · exact Nat.le_refl _
  all_goals simp only [basicText, literalText, List.length_append, List.length_cons]; omega

/-- A key begins with a character of its name or a quote. -/
theorem writeKey_eq_cons (s : String) :
    ∃ c rest, writeKey s = c :: rest ∧ (isBareKeyChar c = true ∨ c = '"' ∨ c = '\'') := by
  rw [writeKey]
  split_ifs with h
  · simp only [Bool.and_eq_true, Bool.not_eq_true'] at h
    cases hcs : s.toList with
    | nil => simp [hcs] at h
    | cons c cs => exact ⟨c, cs, rfl, .inl (List.all_eq_true.mp h.2 c (by simp [hcs]))⟩
  · exact ⟨'"', _, rfl, .inr (.inl rfl)⟩
  · exact ⟨'\'', _, rfl, .inr (.inr rfl)⟩
  · exact ⟨'"', _, rfl, .inr (.inl rfl)⟩

end Toml

end Autoscaling

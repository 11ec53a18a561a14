import Autoscaling.Ordered.Lemmas
import Autoscaling.Selector.Basic
import Mathlib.Data.List.Basic
import Mathlib.Data.List.TakeWhile
import Mathlib.Tactic.Common

/-!
# Selectors and their texts

A text is read part by part, from comma to comma.  A part stands for a label if it has exactly one
equals sign and a key in front of it; the first part that stands for none is quoted in the refusal.
Of several labels with one key the last one counts.

Not every selector is read back from its text form: a comma or an equals sign inside of a label
cannot be told from one that ends it, and a label without a key is refused.  `Selector.Legible` are
the selectors without such labels.  They are exactly those that reading gives
(`Selector.parse_text_iff`, `Selector.legible_of_parse`), so that what was read once is printed and
read again without a change.
-/

namespace Autoscaling

namespace Selector

/-! ## Parts -/

/-- A part stands for a label. -/
structure IsLabel (part : List Char) : Prop where
  /-- it has exactly one equals sign -/
  single : part.count '=' = 1
  /-- there is something in front of it -/
  keyed : part.takeWhile (· != '=') ≠ []

/-- A part stands for the label with this key and this value. -/
structure Spells (part : List Char) (key value : String) : Prop where
  written : part = key.toList ++ '=' :: value.toList
  key_ne : key ≠ ""
  key_plain : '=' ∉ key.toList
  value_plain : '=' ∉ value.toList

theorem takeWhile_key {key : List Char} (h : '=' ∉ key) (value : List Char) :
    (key ++ '=' :: value).takeWhile (· != '=') = key := by
  have hkey : ∀ c ∈ key, (c != '=') = true := fun c hc =>
    bne_iff_ne.mpr fun heq => h (heq ▸ hc)
  rw [List.takeWhile_append_of_pos hkey]
  simp

/-- The first equals sign of a part ends the key. -/
theorem label?_append {key : List Char} (h : '=' ∉ key) (value : List Char) :
    label? (key ++ '=' :: value) =
      if key = [] ∨ '=' ∈ value then none else some (String.ofList key, String.ofList value) := by
  simp [label?, takeWhile_key h, List.isEmpty_iff]

theorem label?_of_not_mem {part : List Char} (h : '=' ∉ part) : label? part = none := by
  have hall : part.takeWhile (· != '=') = part :=
    List.takeWhile_eq_self_iff.mpr fun c hc => bne_iff_ne.mpr fun heq => h (heq ▸ hc)
  simp [label?, hall]

theorem label?_eq_some_iff {part : List Char} {key value : String} :
    label? part = some (key, value) ↔ Spells part key value := by
  constructor
  · intro h
    by_cases hmem : '=' ∈ part
    · obtain ⟨ks, vs, rfl, hks⟩ := List.eq_append_cons_of_mem hmem
      rw [label?_append hks] at h
      split_ifs at h with hbad
      obtain ⟨rfl, rfl⟩ := Prod.mk.inj (Option.some.inj h)
      obtain ⟨hne, hvs⟩ := not_or.mp hbad
      exact ⟨by simp, mt String.ofList_eq_empty_iff.mp hne, by simpa, by simpa⟩
    · rw [label?_of_not_mem hmem] at h
      exact nomatch h
  · rintro ⟨rfl, hne, hkey, hvalue⟩
    have hkeyed : key.toList ≠ [] := mt String.toList_eq_nil_iff.mp hne
    rw [label?_append hkey, if_neg (not_or.mpr ⟨hkeyed, hvalue⟩)]
    simp

theorem isLabel_iff {part : List Char} : IsLabel part ↔ ∃ key value, Spells part key value := by
  constructor
  · rintro ⟨hsingle, hkeyed⟩
    have hmem : '=' ∈ part := List.count_pos_iff.mp (hsingle ▸ Nat.one_pos)
    obtain ⟨ks, vs, rfl, hks⟩ := List.eq_append_cons_of_mem hmem
    rw [takeWhile_key hks] at hkeyed
    have hvs : '=' ∉ vs := by
      rw [List.count_append, List.count_cons_self] at hsingle
      exact List.count_eq_zero.mp (by omega)
    exact ⟨String.ofList ks, String.ofList vs, by simp, mt String.ofList_eq_empty_iff.mp hkeyed,
      by simpa, by simpa⟩
  · rintro ⟨key, value, rfl, hne, hkey, hvalue⟩
    refine ⟨?_, ?_⟩
    · rw [List.count_append, List.count_cons_self, List.count_eq_zero.mpr hkey,
        List.count_eq_zero.mpr hvalue]
    · rw [takeWhile_key hkey]
      exact mt String.toList_eq_nil_iff.mp hne

/-- A part stands for a label, or it stands for none. -/
theorem isLabel_iff_label? {part : List Char} : IsLabel part ↔ (label? part).isSome = true := by
  rw [isLabel_iff, Option.isSome_iff_exists]
  simp only [Prod.exists, label?_eq_some_iff]

/-! ## Reading -/

theorem parts_eq_splitOn (cs : List Char) : parts cs = cs.splitOn ',' := by
  induction cs with
  | nil => rfl
  | cons c rest ih =>
      rw [parts, ih, List.splitOn_cons_eq_if_modifyHead]
      by_cases hc : c = ','
      · simp [hc]
      · have hne := List.splitOn_ne_nil ',' rest
        cases hrest : rest.splitOn ',' with
        | nil => exact absurd hrest hne
        | cons part others => simp [hc]

/-- The parts of a text have no commas. -/
theorem comma_not_mem_of_mem_splitOn {cs part : List Char} (h : part ∈ cs.splitOn ',') :
    ',' ∉ part := by
  induction cs generalizing part with
  | nil => simp_all
  | cons c rest ih =>
      rw [List.splitOn_cons_eq_if_modifyHead] at h
      split_ifs at h with hc
      · rcases List.mem_cons.mp h with rfl | h
        · exact List.not_mem_nil
        · exact ih h
      · obtain ⟨first, others, hrest⟩ := List.exists_cons_of_ne_nil (List.splitOn_ne_nil ',' rest)
        rw [hrest] at h ih
        rcases List.mem_cons.mp h with rfl | h
        · have hne : ',' ≠ c := fun heq => hc (beq_iff_eq.mpr heq.symm)
          simpa [hne] using ih List.mem_cons_self
        · exact ih (List.mem_cons_of_mem _ h)

/-- The refusal of a part that stands for no label. -/
def unreadable (part : List Char) : StateError :=
  .invalid ("invalid selector expression: " ++ String.ofList part)

/-- Add labels one after the other. -/
def withLabels (s : Selector) (labels : List (String × String)) : Selector :=
  labels.foldl (fun s label => s.withLabel label.1 label.2) s

theorem labels_withLabels (s : Selector) (labels : List (String × String)) :
    (s.withLabels labels).labels = labels.foldl (fun m e => m.insert e.1 e.2) s.labels := by
  induction labels generalizing s with
  | nil => rfl
  | cons label rest ih => exact ih (s.withLabel label.1 label.2)

theorem ofParts_eq_ok_iff {s s' : Selector} {ps : List (List Char)} :
    ofParts s ps = .ok s' ↔
      (∀ part ∈ ps, IsLabel part) ∧ s' = s.withLabels (ps.filterMap label?) := by
  induction ps generalizing s with
  | nil => simp [ofParts, withLabels, eq_comm]
  | cons part rest ih =>
      rw [ofParts, List.forall_mem_cons, isLabel_iff_label?]
      cases hlabel : label? part with
      | none => simp
      | some label => simp [ih, withLabels, hlabel]

theorem ofParts_eq_error_iff {s : Selector} {ps : List (List Char)} {e : StateError} :
    ofParts s ps = .error e ↔
      ∃ bad, ps.find? (fun part => (label? part).isNone) = some bad ∧ e = unreadable bad := by
  induction ps generalizing s with
  | nil => simp [ofParts]
  | cons part rest ih =>
      rw [ofParts]
      cases hlabel : label? part with
      | none => simp [hlabel, unreadable, eq_comm]
      | some label => simp [ih, hlabel]

/-- The labels that the parts of a text stand for, in their order. -/
def labelsOf (s : String) : List (String × String) := (s.toList.splitOn ',').filterMap label?

theorem parse_eq_ok_iff {s : String} {S : Selector} :
    parse s = .ok S ↔
      (s = "" ∨ ∀ part ∈ s.toList.splitOn ',', IsLabel part) ∧ S = empty.withLabels (labelsOf s) := by
  rw [parse]
  by_cases hs : s = ""
  · -- the one part of the empty text stands for no label
    subst hs
    have hnone : labelsOf "" = [] := rfl
    rw [if_pos (String.isEmpty_iff.mpr rfl), hnone, Except.ok.injEq]
    exact ⟨fun h => ⟨.inl rfl, h.symm⟩, fun h => h.2.symm⟩
  · rw [if_neg (mt String.isEmpty_iff.mp hs), ofParts_eq_ok_iff, parts_eq_splitOn]
    simp [hs, labelsOf]

/-- The first part that stands for no label is refused. -/
theorem parse_eq_error_iff {s : String} {e : StateError} :
    parse s = .error e ↔
      s ≠ "" ∧ ∃ before bad after, s.toList.splitOn ',' = before ++ bad :: after ∧
        (∀ part ∈ before, IsLabel part) ∧ ¬ IsLabel bad ∧ e = unreadable bad := by
  rw [parse]
  by_cases hs : s = ""
  · simp [hs]
  · rw [if_neg (mt String.isEmpty_iff.mp hs), ofParts_eq_error_iff, parts_eq_splitOn]
    simp only [List.find?_eq_some_iff_append, isLabel_iff_label?, ne_eq, hs, not_false_eq_true,
      true_and]
    constructor
    · rintro ⟨bad, ⟨hbad, before, after, hparts, hbefore⟩, he⟩
      exact ⟨before, bad, after, hparts, by simpa using hbefore, by simpa using hbad, he⟩
    · rintro ⟨before, bad, after, hparts, hbefore, hbad, he⟩
      exact ⟨bad, ⟨by simpa using hbad, before, after, hparts, by simpa using hbefore⟩, he⟩

/-- Under every key stands the value of the last part with that key. -/
theorem get?_labelsOf_eq_some_iff {s key value : String} :
    (empty.withLabels (labelsOf s)).get? key = some value ↔
      ∃ before part after, s.toList.splitOn ',' = before ++ part :: after ∧
        Spells part key value ∧ ∀ later ∈ after, ∀ value₀, ¬ Spells later key value₀ := by
  -- a part decides about the key if it stands for a label with that key
  let decides (part : List Char) : Bool := (label? part).any fun e => decide (key = e.1)
  have hfalse (part : List Char) : decides part = false ↔ ∀ value₀, ¬ Spells part key value₀ := by
    simp only [decides, ← label?_eq_some_iff]
    cases label? part with
    | none => simp
    | some label =>
        obtain ⟨key₀, value₀⟩ := label
        simp [eq_comm]
  have hlast : (empty.withLabels (labelsOf s)).get? key =
      (((s.toList.splitOn ',').reverse.find? decides).bind label?).map Prod.snd := by
    rw [get?, labels_withLabels]
    show (OrderedMap.ofList (labelsOf s)).find? key = _
    rw [OrderedMap.find?_ofList, labelsOf, ← List.filterMap_reverse, List.find?_filterMap]
  rw [hlast]
  constructor
  · intro h
    obtain ⟨⟨key₀, value₀⟩, hlabel, rfl⟩ := Option.map_eq_some_iff.mp h
    obtain ⟨part, hfind, hpart⟩ := Option.bind_eq_some_iff.mp hlabel
    obtain ⟨hdecides, as, bs, hparts, hnot⟩ := List.find?_eq_some_iff_append.mp hfind
    obtain rfl : key = key₀ := by simpa [decides, hpart] using hdecides
    refine ⟨bs.reverse, part, as.reverse, ?_, label?_eq_some_iff.mp hpart, ?_⟩
    · rw [← List.reverse_reverse (s.toList.splitOn ','), hparts]
      simp
    · intro later hlater
      exact (hfalse later).mp (by simpa using hnot later (List.mem_reverse.mp hlater))
  · rintro ⟨before, part, after, hparts, hspells, hlater⟩
    have hpart := label?_eq_some_iff.mpr hspells
    have hfind : (s.toList.splitOn ',').reverse.find? decides = some part := by
      refine List.find?_eq_some_iff_append.mpr ⟨by simp [decides, hpart],
        after.reverse, before.reverse, by simp [hparts], fun later h => ?_⟩
      simpa using (hfalse later).mpr (hlater later (List.mem_reverse.mp h))
    rw [hfind, Option.bind_some, hpart]
    rfl

/-! ## Writing -/

/-- A selector of which every label can be told from the text form. -/
def Legible (S : Selector) : Prop :=
  ∀ key value, S.get? key = some value →
    key ≠ "" ∧ ',' ∉ key.toList ∧ '=' ∉ key.toList ∧ ',' ∉ value.toList ∧ '=' ∉ value.toList

/-- The text form of a label. -/
def labelText (label : String × String) : List Char := label.1.toList ++ '=' :: label.2.toList

theorem labelsText_eq (labels : List (String × String)) :
    labelsText labels = [','].intercalate (labels.map labelText) := by
  fun_induction labelsText labels with
  | case1 => rfl
  | case2 key value => simp [labelText]
  | case3 key value rest hrest ih =>
      cases rest with
      | nil => exact absurd rfl hrest
      | cons label more => simp [ih, labelText]

/-- What is read is legible. -/
theorem legible_of_parse {s : String} {S : Selector} (h : parse s = .ok S) : S.Legible := by
  obtain ⟨-, rfl⟩ := parse_eq_ok_iff.mp h
  intro key value hget
  obtain ⟨before, part, after, hparts, hspells, -⟩ := get?_labelsOf_eq_some_iff.mp hget
  have hpart : part ∈ s.toList.splitOn ',' := by simp [hparts]
  have hcomma := comma_not_mem_of_mem_splitOn hpart
  rw [hspells.written, List.mem_append, List.mem_cons, not_or, not_or] at hcomma
  exact ⟨hspells.key_ne, hcomma.1, hspells.key_plain, hcomma.2.2, hspells.value_plain⟩

/-- What is legible is read back from its text form. -/
theorem Legible.parse_text {S : Selector} (legible : S.Legible) : parse S.text = .ok S := by
  have hentry : ∀ e ∈ S.labels.entries, Spells (labelText e) e.1 e.2 ∧ ',' ∉ labelText e := by
    intro e he
    obtain ⟨hne, hkc, hke, hvc, hve⟩ := legible e.1 e.2 (OrderedMap.mem_entries_iff.mp he)
    exact ⟨⟨rfl, hne, hke, hve⟩, by simp [labelText, hkc, hvc]⟩
  have hlabels : (S.labels.entries.map labelText).filterMap label? = S.labels.entries := by
    rw [List.filterMap_map]
    refine (List.filterMap_congr fun e he => ?_).trans List.filterMap_some
    exact label?_eq_some_iff.mpr (hentry e he).1
  have hS : S = empty.withLabels S.labels.entries := by
    have h : (empty.withLabels S.labels.entries).labels = S.labels :=
      (labels_withLabels ..).trans S.labels.ofList_entries
    cases S
    exact congrArg mk h.symm
  have htext : S.text.toList = [','].intercalate (S.labels.entries.map labelText) := by
    rw [text, String.toList_ofList, labelsText_eq]
  rw [parse_eq_ok_iff, labelsOf, htext]
  cases hnil : S.labels.entries with
  | nil =>
      rw [hnil] at hS htext
      exact ⟨.inl (String.toList_eq_nil_iff.mp htext), hS⟩
  | cons e rest =>
      have hsplit : ([','].intercalate (S.labels.entries.map labelText)).splitOn ',' =
          S.labels.entries.map labelText := by
        refine List.splitOn_intercalate ',' ?_ (by simp [hnil])
        intro part hpart
        obtain ⟨e, he, rfl⟩ := List.mem_map.mp hpart
        exact (hentry e he).2
      rw [← hnil, hsplit, hlabels]
      refine ⟨.inr fun part hpart => ?_, hS⟩
      obtain ⟨e, he, rfl⟩ := List.mem_map.mp hpart
      exact isLabel_iff.mpr ⟨e.1, e.2, (hentry e he).1⟩

theorem parse_text_iff {S : Selector} : parse S.text = .ok S ↔ S.Legible :=
  ⟨legible_of_parse, Legible.parse_text⟩

/-- **Texts and selectors.**  A text is read exactly if it is empty or each of its parts between
commas stands for a label; otherwise the first part that does not is quoted in the refusal.  Every key
has the value of the last part with that key, and no other keys are there.  A selector, with whatever
labels it was made, is read back from its text form exactly if none of its keys is empty and no key
or value has a comma or an equals sign in it.  What was read from a text is such a selector: it is
printed and read without a change, and printed again it gives the same text. -/
theorem text_form :
    (∀ s : String,
      ((∃ S, parse s = .ok S) ↔ s = "" ∨ ∀ part ∈ s.toList.splitOn ',', IsLabel part) ∧
      (∀ e, parse s = .error e ↔
        s ≠ "" ∧ ∃ before bad after, s.toList.splitOn ',' = before ++ bad :: after ∧
          (∀ part ∈ before, IsLabel part) ∧ ¬ IsLabel bad ∧
          e = .invalid ("invalid selector expression: " ++ String.ofList bad)) ∧
      ∀ S, parse s = .ok S →
        (∀ key value, S.get? key = some value ↔
          ∃ before part after, s.toList.splitOn ',' = before ++ part :: after ∧
            Spells part key value ∧ ∀ later ∈ after, ∀ value₀, ¬ Spells later key value₀) ∧
        parse S.text = .ok S ∧ (parse S.text).map text = .ok S.text) ∧
    ∀ labels : List (String × String),
      let S := labels.foldl (fun S label => S.withLabel label.1 label.2) empty
      parse S.text = .ok S ↔ ∀ key value, S.get? key = some value →
        key ≠ "" ∧ ',' ∉ key.toList ∧ '=' ∉ key.toList ∧ ',' ∉ value.toList ∧ '=' ∉ value.toList := by
  refine ⟨fun s => ⟨?_, fun e => parse_eq_error_iff, fun S h => ?_⟩, fun labels => parse_text_iff⟩
  · simp only [parse_eq_ok_iff, exists_and_left, exists_eq, and_true]
  · have again : parse S.text = .ok S := (legible_of_parse h).parse_text
    refine ⟨fun key value => ?_, again, by rw [again]; rfl⟩
    obtain ⟨-, rfl⟩ := parse_eq_ok_iff.mp h
    exact get?_labelsOf_eq_some_iff

/-- At a text with a key that stands in two parts. -/
theorem text_form_repeated_key :
    ∃ S, parse "b=2,a=1,b=3" = .ok S ∧ S.get? "b" = some "3" ∧ parse S.text = .ok S ∧
      S.text = "a=1,b=3" := by
  obtain ⟨S, hS⟩ : ∃ S, parse "b=2,a=1,b=3" = .ok S := ⟨_, rfl⟩
  obtain ⟨hget, again, -⟩ := (text_form.1 "b=2,a=1,b=3").2.2 S hS
  have hspells : Spells ['b', '=', '3'] "b" "3" := ⟨rfl, by decide, by decide, by decide⟩
  refine ⟨S, hS, (hget "b" "3").mpr ⟨[['b', '=', '2'], ['a', '=', '1']], _, [], rfl, hspells, nofun⟩,
    again, ?_⟩
  cases hS
  rfl

end Selector

end Autoscaling

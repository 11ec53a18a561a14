import Autoscaling.Proofs.Json.Scalar

/-!
# Indented JSON text is read back

A value on indented lines is read back, with the items of its lists and the fields of its objects in
their order, if its lists and objects are not nested beyond the limit of the reader
(`Json.readsBack`).  Each part stands on a line of its own and begins with a character that is not
dropped.  The whole text is read as the value in canonical form (`Json.parse?_pretty`).
-/

namespace Autoscaling

namespace Json

open Digits

/-! ## Nesting -/

mutual

/-- How many lists and objects are within one another. -/
def depth : Json → Nat
  | .arr items => depthItems items + 1
  | .obj fields => depthFields fields + 1
  | _ => 0

def depthItems : List Json → Nat
  | [] => 0
  | item :: rest => max (depth item) (depthItems rest)

def depthFields : List (String × Json) → Nat
  | [] => 0
  | (_, value) :: rest => max (depth value) (depthFields rest)

end

/-! ## What is dropped between values -/

/-- What is dropped in front of a value, or ends a list or an object. -/
def separators : List Char := [' ', '\t', '\n', '\r', ']', '\x7d']

/-- A text that begins with none of the separators. -/
def Begins (cs : List Char) : Prop := ∃ c more, cs = c :: more ∧ c ∉ separators

namespace Begins

variable {cs : List Char} (h : Begins cs)
include h

theorem append (rest : List Char) : Begins (cs ++ rest) := by
  obtain ⟨c, more, rfl, hc⟩ := h
  exact ⟨c, more ++ rest, rfl, hc⟩

theorem dropBlanks_eq : dropBlanks cs = cs := by
  obtain ⟨c, more, rfl, hc⟩ := h
  simp only [separators, List.mem_cons, List.not_mem_nil, or_false, not_or] at hc
  simp [dropBlanks, hc]

theorem head_ne {c : Char} (hc : c ∈ separators) (rest : List Char) : cs ≠ c :: rest := by
  obtain ⟨d, more, rfl, hd⟩ := h
  rintro ⟨⟩
  exact hd hc

theorem length_pos : 0 < cs.length := by
  obtain ⟨c, more, rfl, -⟩ := h
  exact Nat.succ_pos _

end Begins

theorem toList_newLine (level : Nat) :
    (newLine level).toList = '\n' :: List.replicate (2 * level) ' ' := by
  simp [newLine]

theorem dropBlanks_newLine (level : Nat) (cs : List Char) :
    dropBlanks ((newLine level).toList ++ cs) = dropBlanks cs := by
  have hblanks : ∀ c ∈ (newLine level).toList,
      (c = ' ' || c = '\t' || c = '\n' || c = '\r') = true := by
    rw [toList_newLine]
    intro c hc
    rcases List.mem_cons.mp hc with rfl | hc
    · rfl
    · rw [List.eq_of_mem_replicate hc]
      rfl
  exact List.dropWhile_append_of_pos hblanks

/-- What stands on a line of its own is found behind the blanks. -/
theorem Begins.dropBlanks_line {cs : List Char} (h : Begins cs) (level : Nat) (rest : List Char) :
    dropBlanks ((newLine level).toList ++ (cs ++ rest)) = cs ++ rest := by
  rw [dropBlanks_newLine, (h.append rest).dropBlanks_eq]

theorem stops_newLine (level : Nat) (cs : List Char) : Stops ((newLine level).toList ++ cs) := by
  rw [toList_newLine]
  rintro c ⟨⟩
  exact .inr rfl

theorem stops_comma (cs : List Char) : Stops (',' :: cs) := by
  rintro c ⟨⟩
  exact .inl rfl

/-! ## Scalars -/

/-- The value is read back from its text at a level, where it may end. -/
def ReadsBack (level : Nat) (v : Json) : Prop :=
  ∀ nesting fuel rest, v.depth ≤ nesting → (prettyAt level v).toList.length ≤ fuel → Stops rest →
    readValue nesting fuel ((prettyAt level v).toList ++ rest) = some (v, rest)

theorem IsNumber.begins {text : List Char} {value : Json} (h : IsNumber text value) :
    Begins text := by
  obtain ⟨c, more, rfl, hc⟩ := h.head
  refine ⟨c, more, rfl, fun hmem => ?_⟩
  have hnone : ∀ c ∈ separators, ¬ (isDigit 10 c = true ∨ c = '-') := by
    simp [separators, isDigit, value?]
  exact hnone c hmem hc

theorem begins_stringText (s : String) : Begins (stringText s).toList := by
  obtain ⟨tail, htail, -⟩ := exists_stringText_eq s
  exact ⟨'"', tail, htail, by decide⟩

/-- Every value begins with a character that is not dropped. -/
theorem begins_prettyAt (level : Nat) (v : Json) : Begins (prettyAt level v).toList := by
  cases v with
  | null => exact ⟨'n', _, by rw [prettyAt]; rfl, by decide⟩
  | bool b =>
      cases b with
      | true => exact ⟨'t', _, by rw [prettyAt]; rfl, by decide⟩
      | false => exact ⟨'f', _, by rw [prettyAt]; rfl, by decide⟩
  | int n =>
      rw [prettyAt]
      exact (isNumber_int n).begins
  | float x =>
      rw [prettyAt]
      exact (isNumber_float x).begins
  | str s =>
      rw [prettyAt]
      exact begins_stringText s
  | arr items =>
      cases items with
      | nil => exact ⟨'[', _, by rw [prettyAt]; rfl, by decide⟩
      | cons item rest => exact ⟨'[', _, by simp [prettyAt]; rfl, by decide⟩
  | obj fields =>
      cases fields with
      | nil => exact ⟨'\x7b', _, by rw [prettyAt]; rfl, by decide⟩
      | cons field rest => exact ⟨'\x7b', _, by simp [prettyAt]; rfl, by decide⟩

/-- A value has a character, so that reading it takes a step. -/
theorem readsBack_of_succ {level : Nat} {v : Json}
    (h : ∀ nesting fuel rest, v.depth ≤ nesting →
      (prettyAt level v).toList.length ≤ fuel + 1 → Stops rest →
      readValue nesting (fuel + 1) ((prettyAt level v).toList ++ rest) = some (v, rest)) :
    ReadsBack level v := by
  intro nesting fuel rest shallow enough hrest
  have hpos := (begins_prettyAt level v).length_pos
  obtain ⟨fuel, rfl⟩ : ∃ n, fuel = n + 1 := ⟨fuel - 1, by omega⟩
  exact h nesting fuel rest shallow enough hrest

theorem readValue_number {text : List Char} {v : Json} (h : IsNumber text v) {rest : List Char}
    (hrest : Stops rest) (nesting fuel : Nat) :
    readValue nesting (fuel + 1) (text ++ rest) = some (v, rest) := by
  have hread := h.reads rest hrest
  obtain ⟨c, more, rfl, hc⟩ := h.head
  have hnone : ∀ d ∈ ['"', '[', '\x7b', 'n', 't', 'f'], ¬ (isDigit 10 d = true ∨ d = '-') := by
    simp [isDigit, value?]
  have hne {d : Char} (hd : d ∈ ['"', '[', '\x7b', 'n', 't', 'f']) : c ≠ d :=
    fun h => hnone d hd (h ▸ hc)
  rw [List.cons_append] at hread ⊢
  unfold readValue
  split
  · exact absurd (List.cons.inj ‹_ = '"' :: _›).1 (hne (by decide))
  · exact absurd (List.cons.inj ‹_ = '[' :: _›).1 (hne (by decide))
  · exact absurd (List.cons.inj ‹_ = '\x7b' :: _›).1 (hne (by decide))
  · exact absurd (List.cons.inj ‹_ = 'n' :: _›).1 (hne (by decide))
  · exact absurd (List.cons.inj ‹_ = 't' :: _›).1 (hne (by decide))
  · exact absurd (List.cons.inj ‹_ = 'f' :: _›).1 (hne (by decide))
  · exact hread

theorem readsBack_number {level : Nat} {v : Json} (h : IsNumber (prettyAt level v).toList v) :
    ReadsBack level v :=
  readsBack_of_succ fun nesting fuel _ _ _ hrest => readValue_number h hrest nesting fuel

theorem readsBack_str (level : Nat) (s : String) : ReadsBack level (.str s) := by
  refine readsBack_of_succ fun nesting fuel rest _ _ _ => ?_
  obtain ⟨tail, htail, hread⟩ := exists_stringText_eq s
  rw [prettyAt, htail, List.cons_append, readValue]
  simp only [hread, Option.bind_eq_bind, Option.bind_some]

/-! ## Lists -/

theorem toList_prettyItems_singleton (level : Nat) (item : Json) :
    (prettyItems level [item]).toList =
      (newLine level).toList ++ (prettyAt level item).toList := by
  simp [prettyItems]

theorem toList_prettyItems_cons (level : Nat) (item next : Json) (items : List Json) :
    (prettyItems level (item :: next :: items)).toList =
      (newLine level).toList ++ ((prettyAt level item).toList ++
        ',' :: (prettyItems level (next :: items)).toList) := by
  simp [prettyItems]

theorem begins_prettyItems (level : Nat) (item : Json) (items : List Json) (rest : List Char) :
    Begins (dropBlanks ((prettyItems level (item :: items)).toList ++ rest)) := by
  have hbegins := begins_prettyAt level item
  cases items with
  | nil =>
      rw [toList_prettyItems_singleton, List.append_assoc, hbegins.dropBlanks_line]
      exact hbegins.append _
  | cons next items =>
      rw [toList_prettyItems_cons, List.append_assoc, List.append_assoc, hbegins.dropBlanks_line]
      exact hbegins.append _

/-- The items of a list, each on a line of its own, and the bracket on the last line. -/
theorem readItems_prettyItems {level : Nat} (closing : Nat) (item : Json) (items : List Json)
    (h : ∀ v ∈ item :: items, ReadsBack level v) {nesting : Nat} (fuel : Nat) (rest : List Char)
    (shallow : depthItems (item :: items) ≤ nesting)
    (enough : (prettyItems level (item :: items)).toList.length ≤ fuel) :
    readItems nesting fuel (dropBlanks ((prettyItems level (item :: items)).toList ++
      ((newLine closing).toList ++ ']' :: rest))) = some (item :: items, rest) := by
  have hblank : 1 ≤ (newLine level).toList.length := by
    rw [toList_newLine]
    exact Nat.succ_pos _
  induction items generalizing item fuel with
  | nil =>
      have hread := h item (by simp)
      have hbegins := begins_prettyAt level item
      rw [toList_prettyItems_singleton, List.length_append] at enough
      obtain ⟨fuel, rfl⟩ : ∃ n, fuel = n + 1 := ⟨fuel - 1, by omega⟩
      have hvalue := hread nesting fuel _ (le_trans (le_max_left ..) shallow) (by omega)
        (stops_newLine closing (']' :: rest))
      have hclose : dropBlanks ((newLine closing).toList ++ ']' :: rest) = ']' :: rest :=
        dropBlanks_newLine ..
      rw [toList_prettyItems_singleton, List.append_assoc, hbegins.dropBlanks_line, readItems]
      simp only [hvalue, hclose, Option.bind_eq_bind, Option.bind_some]
  | cons next items ih =>
      have hread := h item (by simp)
      have hbegins := begins_prettyAt level item
      rw [toList_prettyItems_cons, List.length_append, List.length_append, List.length_cons]
        at enough
      obtain ⟨fuel, rfl⟩ : ∃ n, fuel = n + 1 := ⟨fuel - 1, by omega⟩
      have hvalue := hread nesting fuel _ (le_trans (le_max_left ..) shallow) (by omega)
        (stops_comma ((prettyItems level (next :: items)).toList ++
          ((newLine closing).toList ++ ']' :: rest)))
      have hothers := ih next (fun v hv => h v (List.mem_cons_of_mem _ hv)) fuel
        (le_trans (le_max_right ..) shallow) (by omega)
      have hcomma (cs : List Char) : dropBlanks (',' :: cs) = ',' :: cs := rfl
      rw [toList_prettyItems_cons, List.append_assoc, List.append_assoc, List.cons_append,
        hbegins.dropBlanks_line, readItems]
      simp only [hvalue, hcomma, hothers, Option.bind_eq_bind, Option.bind_some]

theorem readValue_list {nesting fuel : Nat} {cs rest : List Char} {items : List Json}
    (hbegins : Begins (dropBlanks cs))
    (hread : readItems nesting fuel (dropBlanks cs) = some (items, rest)) :
    readValue (nesting + 1) (fuel + 1) ('[' :: cs) = some (.arr items, rest) := by
  simp only [readValue, inner?, Option.bind_eq_bind, Option.bind_some]
  split
  · exact absurd ‹_› (hbegins.head_ne (by decide) _)
  · rw [hread, Option.bind_some]

theorem readsBack_list {level : Nat} {items : List Json}
    (h : ∀ v ∈ items, ReadsBack (level + 1) v) : ReadsBack level (.arr items) := by
  refine readsBack_of_succ fun nesting fuel rest shallow enough _ => ?_
  obtain ⟨nesting, rfl⟩ : ∃ n, nesting = n + 1 := ⟨nesting - 1, by rw [depth] at shallow; omega⟩
  cases items with
  | nil => simp [prettyAt, readValue, inner?, dropBlanks]
  | cons item items =>
      have htext : (prettyAt level (.arr (item :: items))).toList =
          '[' :: ((prettyItems (level + 1) (item :: items)).toList ++
            ((newLine level).toList ++ [']'])) := by
        simp [prettyAt]
      rw [htext] at enough ⊢
      simp only [List.length_cons, List.length_append] at enough
      have hread := readItems_prettyItems level item items h fuel rest
        (Nat.le_of_succ_le_succ shallow) (by omega)
      have hbegins := begins_prettyItems (level + 1) item items
        ((newLine level).toList ++ ']' :: rest)
      simpa using readValue_list hbegins hread

/-! ## Objects -/

/-- A field of an object: its name, a colon and its value. -/
def pairText (level : Nat) (field : String × Json) : List Char :=
  (stringText field.1).toList ++ ':' :: ' ' :: (prettyAt level field.2).toList

theorem begins_pairText (level : Nat) (field : String × Json) : Begins (pairText level field) :=
  (begins_stringText field.1).append _

theorem exists_pairText_append_eq (level : Nat) (name : String) (value : Json) :
    ∃ tail, (∀ rest, pairText level (name, value) ++ rest =
        '"' :: (tail ++ ':' :: ' ' :: ((prettyAt level value).toList ++ rest))) ∧
      ∀ rest, readString [] (tail ++ rest) = some (name, rest) := by
  obtain ⟨tail, htail, hname⟩ := exists_stringText_eq name
  refine ⟨tail, fun rest => ?_, hname⟩
  rw [pairText, htail]
  simp

theorem length_le_pairText (level : Nat) (name : String) (value : Json) :
    (prettyAt level value).toList.length ≤ (pairText level (name, value)).length := by
  simp only [pairText, List.length_append, List.length_cons]
  omega

theorem dropBlanks_value (level : Nat) (value : Json) (rest : List Char) :
    dropBlanks (' ' :: ((prettyAt level value).toList ++ rest)) =
      (prettyAt level value).toList ++ rest :=
  ((begins_prettyAt level value).append rest).dropBlanks_eq

theorem toList_prettyFields_singleton (level : Nat) (field : String × Json) :
    (prettyFields level [field]).toList = (newLine level).toList ++ pairText level field := by
  simp [prettyFields, pairText]

theorem toList_prettyFields_cons (level : Nat) (field next : String × Json)
    (fields : List (String × Json)) :
    (prettyFields level (field :: next :: fields)).toList =
      (newLine level).toList ++ (pairText level field ++
        ',' :: (prettyFields level (next :: fields)).toList) := by
  simp [prettyFields, pairText]

theorem begins_prettyFields (level : Nat) (field : String × Json) (fields : List (String × Json))
    (rest : List Char) :
    Begins (dropBlanks ((prettyFields level (field :: fields)).toList ++ rest)) := by
  have hbegins := begins_pairText level field
  cases fields with
  | nil =>
      rw [toList_prettyFields_singleton, List.append_assoc, hbegins.dropBlanks_line]
      exact hbegins.append _
  | cons next fields =>
      rw [toList_prettyFields_cons, List.append_assoc, List.append_assoc, hbegins.dropBlanks_line]
      exact hbegins.append _

/-- The fields of an object, each on a line of its own, and the brace on the last line. -/
theorem readFields_prettyFields {level : Nat} (closing : Nat) (field : String × Json)
    (fields : List (String × Json)) (h : ∀ e ∈ field :: fields, ReadsBack level e.2)
    {nesting : Nat} (fuel : Nat) (rest : List Char)
    (shallow : depthFields (field :: fields) ≤ nesting)
    (enough : (prettyFields level (field :: fields)).toList.length ≤ fuel) :
    readFields nesting fuel (dropBlanks ((prettyFields level (field :: fields)).toList ++
      ((newLine closing).toList ++ '\x7d' :: rest))) = some (field :: fields, rest) := by
  have hblank : 1 ≤ (newLine level).toList.length := by
    rw [toList_newLine]
    exact Nat.succ_pos _
  have hcolon (cs : List Char) : dropBlanks (':' :: cs) = ':' :: cs := rfl
  induction fields generalizing field fuel with
  | nil =>
      obtain ⟨name, value⟩ := field
      have hread : ReadsBack level value := h (name, value) (by simp)
      have hbegins := begins_pairText level (name, value)
      obtain ⟨tail, htail, hname⟩ := exists_pairText_append_eq level name value
      have hlength := length_le_pairText level name value
      rw [toList_prettyFields_singleton, List.length_append] at enough
      obtain ⟨fuel, rfl⟩ : ∃ n, fuel = n + 1 := ⟨fuel - 1, by omega⟩
      have hvalue := hread nesting fuel _ (le_trans (le_max_left ..) shallow) (by omega)
        (stops_newLine closing ('\x7d' :: rest))
      have hclose : dropBlanks ((newLine closing).toList ++ '\x7d' :: rest) = '\x7d' :: rest :=
        dropBlanks_newLine ..
      rw [toList_prettyFields_singleton, List.append_assoc, hbegins.dropBlanks_line, htail,
        readFields]
      simp only [hname, hcolon, dropBlanks_value, hvalue, hclose, Option.bind_eq_bind,
        Option.bind_some]
  | cons next fields ih =>
      obtain ⟨name, value⟩ := field
      have hread : ReadsBack level value := h (name, value) (by simp)
      let others := (prettyFields level (next :: fields)).toList ++
        ((newLine closing).toList ++ '\x7d' :: rest)
      have hbegins := begins_pairText level (name, value)
      obtain ⟨tail, htail, hname⟩ := exists_pairText_append_eq level name value
      have hlength := length_le_pairText level name value
      rw [toList_prettyFields_cons, List.length_append, List.length_append, List.length_cons]
        at enough
      obtain ⟨fuel, rfl⟩ : ∃ n, fuel = n + 1 := ⟨fuel - 1, by omega⟩
      have hvalue := hread nesting fuel (',' :: others) (le_trans (le_max_left ..) shallow)
        (by omega) (stops_comma others)
      have hothers : readFields nesting fuel (dropBlanks others) = some (next :: fields, rest) :=
        ih next (fun e he => h e (List.mem_cons_of_mem _ he)) fuel
          (le_trans (le_max_right ..) shallow) (by omega)
      have hcomma : dropBlanks (',' :: others) = ',' :: others := rfl
      have htext : (prettyFields level ((name, value) :: next :: fields)).toList ++
          ((newLine closing).toList ++ '\x7d' :: rest) =
            (newLine level).toList ++ (pairText level (name, value) ++ ',' :: others) := by
        rw [toList_prettyFields_cons, List.append_assoc, List.append_assoc, List.cons_append]
      rw [htext, hbegins.dropBlanks_line, htail, readFields]
      simp only [hname, hcolon, dropBlanks_value, hvalue, hcomma, hothers, Option.bind_eq_bind,
        Option.bind_some]

theorem readValue_object {nesting fuel : Nat} {cs rest : List Char} {fields : List (String × Json)}
    (hbegins : Begins (dropBlanks cs))
    (hread : readFields nesting fuel (dropBlanks cs) = some (fields, rest)) :
    readValue (nesting + 1) (fuel + 1) ('\x7b' :: cs) = some (.obj fields, rest) := by
  simp only [readValue, inner?, Option.bind_eq_bind, Option.bind_some]
  split
  · exact absurd ‹_› (hbegins.head_ne (by decide) _)
  · rw [hread, Option.bind_some]

theorem readsBack_object {level : Nat} {fields : List (String × Json)}
    (h : ∀ e ∈ fields, ReadsBack (level + 1) e.2) : ReadsBack level (.obj fields) := by
  refine readsBack_of_succ fun nesting fuel rest shallow enough _ => ?_
  obtain ⟨nesting, rfl⟩ : ∃ n, nesting = n + 1 := ⟨nesting - 1, by rw [depth] at shallow; omega⟩
  cases fields with
  | nil => simp [prettyAt, readValue, inner?, dropBlanks]
  | cons field fields =>
      have htext : (prettyAt level (.obj (field :: fields))).toList =
          '\x7b' :: ((prettyFields (level + 1) (field :: fields)).toList ++
            ((newLine level).toList ++ ['\x7d'])) := by
        simp [prettyAt]
      rw [htext] at enough ⊢
      simp only [List.length_cons, List.length_append] at enough
      have hread := readFields_prettyFields level field fields h fuel rest
        (Nat.le_of_succ_le_succ shallow) (by omega)
      have hbegins := begins_prettyFields (level + 1) field fields
        ((newLine level).toList ++ '\x7d' :: rest)
      simpa using readValue_object hbegins hread

/-! ## Texts -/

mutual

/-- Every value is read back from its text on indented lines. -/
theorem readsBack (level : Nat) : (v : Json) → ReadsBack level v
  | .null => readsBack_of_succ fun nesting fuel rest _ _ _ => by
      simp [prettyAt, readValue, readWord]
  | .bool true => readsBack_of_succ fun nesting fuel rest _ _ _ => by
      simp [prettyAt, readValue, readWord]
  | .bool false => readsBack_of_succ fun nesting fuel rest _ _ _ => by
      simp [prettyAt, readValue, readWord]
  | .int n => readsBack_number (by rw [prettyAt]; exact isNumber_int n)
  | .float x => readsBack_number (by rw [prettyAt]; exact isNumber_float x)
  | .str s => readsBack_str level s
  | .arr items => readsBack_list (readsBack_of_mem (level + 1) items)
  | .obj fields => readsBack_object (readsBack_of_mem_fields (level + 1) fields)

theorem readsBack_of_mem (level : Nat) : (items : List Json) → ∀ v ∈ items, ReadsBack level v
  | [] => List.forall_mem_nil _
  | item :: rest =>
      List.forall_mem_cons.mpr ⟨readsBack level item, readsBack_of_mem level rest⟩

theorem readsBack_of_mem_fields (level : Nat) :
    (fields : List (String × Json)) → ∀ e ∈ fields, ReadsBack level e.2
  | [] => List.forall_mem_nil _
  | (_, value) :: rest =>
      List.forall_mem_cons.mpr ⟨readsBack level value, readsBack_of_mem_fields level rest⟩

end

/-- **Indented text is read back.**  The text of a value on indented lines, with or without the end
of a line after it, is read as the value in canonical form, if its lists and objects are not nested
beyond the limit of the reader. -/
theorem parse?_pretty (v : Json) (shallow : v.depth ≤ nestingLimit) {ending : String}
    (hending : ending = "" ∨ ending = "\n") :
    parse? (v.pretty ++ ending) = some v.canonical := by
  have hrest : Stops ending.toList ∧ dropBlanks ending.toList = [] := by
    rcases hending with rfl | rfl
    · exact ⟨nofun, rfl⟩
    · exact ⟨stops_newLine 0 [], rfl⟩
  have hdrop : dropBlanks (v.pretty ++ ending).toList = (prettyAt 0 v).toList ++ ending.toList := by
    rw [String.toList_append]
    exact ((begins_prettyAt 0 v).append _).dropBlanks_eq
  have hread := readsBack 0 v nestingLimit
    (2 * ((prettyAt 0 v).toList ++ ending.toList).length + 1) ending.toList shallow
    (by rw [List.length_append]; omega) hrest.1
  simp only [parse?, hdrop, hread, hrest.2, List.isEmpty_nil, if_true]

end Json

end Autoscaling

import Autoscaling.Proofs.Toml.Draft

/-!
# Documents are read back

A written document is read line by line, and its lines are put together to a table with the same
fields (`Toml.parse?_text`): the plain values of every table that stands under a header come first,
in their order, and then its tables.
-/

namespace Autoscaling

namespace Toml

/-! ## Lines -/

/-- The text has whole lines, and they hold these statements. -/
def Holds (cs : List Char) (statements : List Statement) : Prop :=
  ∃ lines ≤ cs.length, ∀ bound fuel rest, cs.length + 2 ≤ bound →
    readLines .unbounded bound (fuel + lines) (cs ++ rest) =
      (readLines .unbounded bound fuel rest).map (statements ++ ·)

theorem Holds.nil : Holds [] [] :=
  ⟨0, Nat.le_refl 0, fun _ _ _ _ => Option.map_id'.symm ▸ rfl⟩

theorem Holds.append {cs cs' : List Char} {statements statements' : List Statement}
    (h : Holds cs statements) (h' : Holds cs' statements') :
    Holds (cs ++ cs') (statements ++ statements') := by
  obtain ⟨lines, hlines, hread⟩ := h
  obtain ⟨lines', hlines', hread'⟩ := h'
  refine ⟨lines' + lines, by rw [List.length_append]; omega, fun bound fuel rest enough => ?_⟩
  rw [List.length_append] at enough
  rw [List.append_assoc, ← Nat.add_assoc, hread _ _ _ (by omega), hread' _ _ _ (by omega),
    Option.map_map]
  refine congrArg (Option.map · _) (funext fun more => ?_)
  exact (List.append_assoc ..).symm

/-- A line that is read as a whole. -/
theorem holds_line {cs : List Char} (statement : Option Statement) (hne : cs ≠ [])
    (h : ∀ bound rest, cs.length + 2 ≤ bound →
      readLine .unbounded bound (cs ++ rest) = some (statement, rest)) :
    Holds cs statement.toList := by
  refine ⟨1, List.length_pos_iff.mpr hne, fun bound fuel rest enough => ?_⟩
  have hread := h bound rest enough
  cases cs with
  | nil => exact absurd rfl hne
  | cons c cs =>
      rw [List.cons_append] at hread ⊢
      simp only [readLines, hread, Option.bind_eq_bind, Option.bind_some]
      exact (Option.map_eq_bind ..).symm

theorem readTrailing_newline (rest : List Char) : readTrailing ('\n' :: rest) = some rest := rfl

theorem holds_blank : Holds ['\n'] [] :=
  holds_line none (by simp) fun _ _ _ => rfl

/-- What a line holds in front of its end. -/
theorem readLine_of_readStatement {cs rest : List Char} {bound : Nat} {statement : Statement}
    (hbegins : Begins cs)
    (h : readStatement .unbounded bound (cs ++ '\n' :: rest) = some (statement, '\n' :: rest)) :
    readLine .unbounded bound (cs ++ '\n' :: rest) = some (some statement, rest) := by
  have hdrop := (hbegins.append ('\n' :: rest)).dropBlanks_eq
  have hover : isLineOver (cs ++ '\n' :: rest) = false := by
    obtain ⟨c, more, rfl, hc⟩ := hbegins
    simp only [separators, List.mem_cons, List.not_mem_nil, or_false, not_or] at hc
    simp [isLineOver, hc]
  simp [readLine, hdrop, hover, h, readTrailing_newline]

theorem writePath_begins (path : List String) (name : String) :
    ∃ c more, writePath (path ++ [name]) = c :: more ∧
      (isBareKeyChar c = true ∨ c = '"' ∨ c = '\'') := by
  cases path with
  | nil => exact writeKey_eq_cons name
  | cons first path =>
      obtain ⟨c, more, hwrite, hc⟩ := writeKey_eq_cons first
      exact ⟨c, _, by rw [List.cons_append, writePath_cons, hwrite, List.cons_append], hc⟩

theorem holds_pair (name : String) {v : Toml} (h : Regular v) :
    Holds (writePair name v ++ ['\n']) [.pair ⟨[], name, v⟩] := by
  refine holds_line (some _) (by simp) fun bound rest enough => ?_
  rw [List.length_append] at enough
  rw [List.append_assoc, List.singleton_append]
  refine readLine_of_readStatement (((begins_writeKey name).append _).append _) ?_
  have hpair := readPair_writePair name (readsBack v h) bound ('\n' :: rest) (by omega)
    (stops_cons (by decide) rest)
  obtain ⟨c, more, hwrite, hc⟩ := writeKey_eq_cons name
  have hlist : c ≠ '[' := by rintro rfl; exact absurd hc (by decide)
  simp only [writePair, hwrite, List.cons_append] at hpair ⊢
  unfold readStatement
  split
  · simp_all
  · simp_all
  · rw [hpair, Option.map_some]

theorem endsKey_close (rest : List Char) : EndsKey (']' :: rest) :=
  ⟨by simp, by simp [dropBlanks, isBlank]⟩

theorem readKey_writePath (path : List String) (name : String) (bound : Nat) (rest : List Char)
    (enough : (writePath (path ++ [name])).length + 2 ≤ bound) :
    readKey .unbounded bound (writePath (path ++ [name]) ++ ']' :: rest) =
      some ((path, name), ']' :: rest) := by
  have hdrop : dropBlanks (']' :: rest) = ']' :: rest := rfl
  simp [readKey, readNames_writePath path name bound _ enough (endsKey_close rest), hdrop]

/-- A line between brackets. -/
theorem holds_bracketed {cs : List Char} (statement : Statement)
    (h : ∀ bound rest, cs.length + 2 ≤ bound →
      readStatement .unbounded bound ('[' :: (cs ++ '\n' :: rest)) =
        some (statement, '\n' :: rest)) :
    Holds ('[' :: (cs ++ ['\n'])) [statement] := by
  refine holds_line (some statement) (by simp) fun bound rest enough => ?_
  simp only [List.length_cons, List.length_append, List.length_nil] at enough
  have hbegins : Begins ('[' :: cs) := ⟨'[', cs, rfl, by decide⟩
  have hline := readLine_of_readStatement hbegins (h bound rest (by omega))
  simpa using hline

theorem holds_header (path : List String) (name : String) :
    Holds (writeHeader (path ++ [name])) [.table path name] := by
  have hline : Holds ('[' :: (writePath (path ++ [name]) ++ [']'] ++ ['\n'])) [.table path name] := by
    refine holds_bracketed _ fun bound rest enough => ?_
    rw [List.length_append, List.length_singleton] at enough
    have hkey := readKey_writePath path name bound ('\n' :: rest) (by omega)
    obtain ⟨c, more, hwrite, hc⟩ := writePath_begins path name
    have hlist : c ≠ '[' := by rintro rfl; exact absurd hc (by decide)
    rw [List.append_assoc, List.singleton_append]
    rw [hwrite, List.cons_append] at hkey ⊢
    unfold readStatement
    split
    · simp_all
    · simp_all [readTableHeader]
    · simp_all
  have hheader := holds_blank.append hline
  simpa [writeHeader] using hheader

theorem holds_elementHeader (path : List String) (name : String) :
    Holds (writeElementHeader (path ++ [name])) [.element path name] := by
  have hline : Holds ('[' :: ('[' :: writePath (path ++ [name]) ++ [']', ']'] ++ ['\n']))
      [.element path name] := by
    refine holds_bracketed _ fun bound rest enough => ?_
    rw [List.length_append, List.length_cons] at enough
    have hkey := readKey_writePath path name bound (']' :: '\n' :: rest) (by omega)
    simp only [List.append_assoc, List.cons_append, List.nil_append, readStatement,
      readElementHeader, hkey, Option.bind_eq_bind, Option.bind_some]
  have hheader := holds_blank.append hline
  simpa [writeElementHeader] using hheader

/-! ## Sections -/

theorem holds_pairs (fields : List (String × Toml)) (h : ∀ field ∈ fields, Regular field.2) :
    Holds (fields.flatMap fun field => writePair field.1 field.2 ++ ['\n'])
      ((pairsOf fields).map .pair) := by
  induction fields with
  | nil => exact Holds.nil
  | cons field fields ih =>
      rw [List.flatMap_cons]
      exact (holds_pair field.1 (h field (by simp))).append
        (ih fun f hf => h f (List.mem_cons_of_mem _ hf))

theorem holds_body {fields : List (String × Toml)} (h : RegularFields fields) :
    Holds (writeBody fields) (bodyStatements fields) :=
  holds_pairs (plainFields fields) fun field hfield =>
    regularFields_iff.mp h field (List.mem_of_mem_filter hfield)

mutual

theorem holds_field : (v : Toml) → Regular v →
    ∀ path name, Holds (writeSection (path ++ [name]) v) (fieldStatements path name v)
  | .table fields, h, path, name => by
      rw [Regular] at h
      have hsections := holds_sections fields h.2 (path ++ [name])
      rw [writeSection, fieldStatements]
      refine Holds.append ?_ hsections
      rw [hasHeader]
      split_ifs
      · exact (holds_header path name).append (holds_body h.2)
      · exact Holds.nil
  | .array items, h, path, name => by
      rw [Regular] at h
      rw [writeSection, fieldStatements]
      split_ifs
      · exact holds_elements items h path name
      · exact Holds.nil
  | .str _, _, _, _ => by simpa [writeSection, fieldStatements] using Holds.nil
  | .int _, _, _, _ => by simpa [writeSection, fieldStatements] using Holds.nil
  | .float _, _, _, _ => by simpa [writeSection, fieldStatements] using Holds.nil
  | .bool _, _, _, _ => by simpa [writeSection, fieldStatements] using Holds.nil
  | .moment _, _, _, _ => by simpa [writeSection, fieldStatements] using Holds.nil

theorem holds_sections : (fields : List (String × Toml)) → RegularFields fields →
    ∀ path, Holds (writeSections path fields) (sectionStatements path fields)
  | [], _, _ => by
      rw [writeSections, sectionStatements]
      exact Holds.nil
  | (name, v) :: rest, h, path => by
      rw [RegularFields] at h
      rw [writeSections, sectionStatements]
      exact (holds_field v h.1 path name).append (holds_sections rest h.2 path)

theorem holds_elements : (items : List Toml) → RegularItems items →
    ∀ path name, Holds (writeElements (path ++ [name]) items) (elementStatements path name items)
  | [], _, _, _ => by
      rw [writeElements, elementStatements]
      exact Holds.nil
  | .table fields :: rest, h, path, name => by
      rw [RegularItems, Regular] at h
      rw [writeElements, elementStatements]
      exact (((holds_elementHeader path name).append (holds_body h.1.2)).append
        (holds_sections fields h.1.2 (path ++ [name]))).append (holds_elements rest h.2 path name)
  | .array _ :: rest, h, path, name => by
      rw [RegularItems] at h
      simpa [writeElements, elementStatements] using holds_elements rest h.2 path name
  | .str _ :: rest, h, path, name => by
      rw [RegularItems] at h
      simpa [writeElements, elementStatements] using holds_elements rest h.2 path name
  | .int _ :: rest, h, path, name => by
      rw [RegularItems] at h
      simpa [writeElements, elementStatements] using holds_elements rest h.2 path name
  | .float _ :: rest, h, path, name => by
      rw [RegularItems] at h
      simpa [writeElements, elementStatements] using holds_elements rest h.2 path name
  | .bool _ :: rest, h, path, name => by
      rw [RegularItems] at h
      simpa [writeElements, elementStatements] using holds_elements rest h.2 path name
  | .moment _ :: rest, h, path, name => by
      rw [RegularItems] at h
      simpa [writeElements, elementStatements] using holds_elements rest h.2 path name

end

theorem holds_document {fields : List (String × Toml)} (h : RegularFields fields) :
    Holds (writeBody fields ++ writeSections [] fields) (statementsOf fields) :=
  (holds_body h).append (holds_sections fields h [])

/-! ## Documents -/

/-- Lines are read with bounds that are great enough. -/
theorem Holds.readLines_eq {cs : List Char} {statements : List Statement} (h : Holds cs statements)
    (bound fuel : Nat) (hbound : cs.length + 2 ≤ bound) (hfuel : cs.length ≤ fuel) :
    readLines .unbounded bound fuel cs = some statements := by
  obtain ⟨lines, hlines, hread⟩ := h
  obtain ⟨fuel, rfl⟩ : ∃ n, fuel = n + lines := ⟨fuel - lines, by omega⟩
  have hread := hread bound fuel [] hbound
  rw [List.append_nil] at hread
  simp [hread, readLines]

/-- The fields of a document as they are read: the plain values of every table before its tables. -/
def arranged (fields : List (String × Toml)) : List (String × Toml) :=
  Node.fieldsToToml (nodesOf fields)

/-- A line does not begin with a mark of the order of bytes. -/
theorem readLines_orderMark (bound fuel : Nat) (cs : List Char) :
    readLines .unbounded bound fuel (orderMark :: cs) = none := by
  have hmark : isBareKeyChar orderMark = false := by decide
  have hname (fuel : Nat) : readName fuel (orderMark :: cs) = none := by
    rw [readName, hmark]
    rfl
  have hdrop : dropBlanks (orderMark :: cs) = orderMark :: cs := rfl
  have hnames (fuel : Nat) : readNames fuel (orderMark :: cs) = none := by
    cases fuel <;> simp [readNames, hdrop, hname]
  have hpair : readPair .unbounded bound (orderMark :: cs) = none := by
    cases bound <;> simp [readPair, readKey, hnames]
  have hstatement : readStatement .unbounded bound (orderMark :: cs) = none := by
    have hmap : readStatement .unbounded bound (orderMark :: cs) =
        (readPair .unbounded bound (orderMark :: cs)).map fun r => (.pair r.1, r.2) := rfl
    rw [hmap, hpair, Option.map_none]
  have hover : isLineOver (orderMark :: cs) = false := rfl
  cases fuel with
  | zero => rfl
  | succ fuel => simp [readLines, readLine, hdrop, hover, hstatement]

/-- What is read line by line is the text of a document. -/
theorem parse?_ofList {cs : List Char} {statements : List Statement}
    (h : readLines .unbounded (2 * cs.length + 4) (2 * cs.length + 4) cs = some statements) :
    parse? .unbounded (String.ofList cs) = ofStatements statements := by
  have hchars : documentChars (String.ofList cs) = cs := by
    rw [documentChars, String.toList_ofList]
    cases cs with
    | nil => rfl
    | cons c cs =>
        have hmark : c ≠ orderMark := by
          rintro rfl
          rw [readLines_orderMark] at h
          cases h
        simp [hmark]
  rw [parse?, hchars, h]
  rfl

/-- A written document is read back. -/
theorem parse?_text {fields : List (String × Toml)} (hnodup : (fields.map Prod.fst).Nodup)
    (h : RegularFields fields) : parse? .unbounded (text fields) = some (arranged fields) := by
  have hholds := holds_document h
  have hstatements := ofStatements_statementsOf hnodup h
  rw [text]
  generalize writeBody fields ++ writeSections [] fields = cs at hholds ⊢
  split
  · rename_i rest
    -- the blank line in front of the first header is left out
    have hread := hholds.readLines_eq (2 * rest.length + 4) (2 * rest.length + 5)
      (by rw [List.length_cons]; omega) (by rw [List.length_cons]; omega)
    have hline : readLine .unbounded (2 * rest.length + 4) ('\n' :: rest) = some (none, rest) := rfl
    have hrest : readLines .unbounded (2 * rest.length + 4) (2 * rest.length + 4) rest =
        some (statementsOf fields) := by
      simpa [readLines, hline] using hread
    rw [parse?_ofList hrest, hstatements]
    rfl
  · rw [parse?_ofList (hholds.readLines_eq _ _ (by omega) (by omega)), hstatements]
    rfl

end Toml

end Autoscaling

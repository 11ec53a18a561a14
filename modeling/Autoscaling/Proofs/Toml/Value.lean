import Autoscaling.Proofs.Toml.Number
import Autoscaling.Proofs.Toml.Text

/-!
# Values are read back

A value on the right of an equals sign is read back, with the items of its lists and the fields of
its tables in their order (`Toml.readsBack`).  Lists may go over several lines, and a table stands
on one; what separates their parts is dropped, and every value begins with a character that is not.
-/

namespace Autoscaling

namespace Toml

/-! ## Regular values -/

mutual

/-- A value such as JSON has it: its doubles are finite, there is no point of time in it, and no two
fields of a table have the same name. -/
def Regular : Toml → Prop
  | .float x => x.isFinite = true
  | .moment _ => False
  | .array items => RegularItems items
  | .table fields => (fields.map Prod.fst).Nodup ∧ RegularFields fields
  | _ => True

def RegularItems : List Toml → Prop
  | [] => True
  | item :: rest => Regular item ∧ RegularItems rest

def RegularFields : List (String × Toml) → Prop
  | [] => True
  | (_, value) :: rest => Regular value ∧ RegularFields rest

end

theorem regularFields_iff {fields : List (String × Toml)} :
    RegularFields fields ↔ ∀ field ∈ fields, Regular field.2 := by
  induction fields with
  | nil => simp [RegularFields]
  | cons field rest ih => simp [RegularFields, ih]

/-! ## What is dropped between values -/

/-- What is dropped in front of a value or a key, begins a comment, or ends a list or a table. -/
def separators : List Char := ['\n', '\r', ' ', '\t', '#', ']', '\x7d']

section Separators

variable {c : Char} (cs : List Char)

theorem dropSpace_newline : dropSpace false ('\n' :: cs) = dropSpace false cs := by
  cases cs <;> simp [dropSpace]

theorem dropSpace_blank : dropSpace false (' ' :: cs) = dropSpace false cs := by
  cases cs <;> simp [dropSpace, isBlank]

theorem dropSpace_blanks (n : Nat) :
    dropSpace false (List.replicate n ' ' ++ cs) = dropSpace false cs := by
  induction n with
  | zero => rfl
  | succ n ih => rw [List.replicate_succ, List.cons_append, dropSpace_blank, ih]

theorem dropSpace_of_not_space (hc : c ∉ ['\n', '\r', ' ', '\t', '#']) :
    dropSpace false (c :: cs) = c :: cs := by
  simp only [List.mem_cons, List.not_mem_nil, or_false, not_or] at hc
  cases cs <;> simp [dropSpace, isBlank, hc]

theorem dropBlanks_of_not_blank (hc : isBlank c = false) : dropBlanks (c :: cs) = c :: cs := by
  simp [dropBlanks, hc]

theorem dropBlanks_blank : dropBlanks (' ' :: cs) = dropBlanks cs := rfl

end Separators

/-- A text that begins with none of the separators, so that nothing in front of it is dropped. -/
def Begins (cs : List Char) : Prop := ∃ c more, cs = c :: more ∧ c ∉ separators

theorem begins_of_head {cs : List Char} {p : Char → Prop} (h : ∃ c more, cs = c :: more ∧ p c)
    (apart : ∀ c ∈ separators, ¬ p c) : Begins cs := by
  obtain ⟨c, more, hcs, hc⟩ := h
  exact ⟨c, more, hcs, fun hmem => apart c hmem hc⟩

namespace Begins

variable {cs : List Char} (h : Begins cs) (rest : List Char)

include h

theorem append : Begins (cs ++ rest) := by
  obtain ⟨c, more, rfl, hc⟩ := h
  exact ⟨c, more ++ rest, rfl, hc⟩

theorem dropSpace_eq : dropSpace false cs = cs := by
  obtain ⟨c, more, rfl, hc⟩ := h
  refine dropSpace_of_not_space more fun hmem => hc ?_
  simp only [separators, List.mem_cons, List.not_mem_nil, or_false] at hmem ⊢
  tauto

theorem dropBlanks_eq : dropBlanks cs = cs := by
  obtain ⟨c, more, rfl, hc⟩ := h
  refine dropBlanks_of_not_blank more ?_
  simp only [separators, List.mem_cons, List.not_mem_nil, or_false, not_or] at hc
  simp [isBlank, hc]

theorem head_ne {c : Char} (hc : c ∈ separators) : cs ≠ c :: rest := by
  obtain ⟨d, more, rfl, hd⟩ := h
  rintro ⟨⟩
  exact hd hc

theorem length_pos : 0 < cs.length := by
  obtain ⟨c, more, rfl, -⟩ := h
  exact Nat.succ_pos _

end Begins

theorem begins_writeKey (name : String) : Begins (writeKey name) :=
  begins_of_head (writeKey_eq_cons name) (by simp [separators, isBareKeyChar])

namespace Limits

@[simp] theorem allowsNames_unbounded (count : Nat) : unbounded.allowsNames count = true := rfl

@[simp] theorem inner?_unbounded : unbounded.inner? = some unbounded := rfl

end Limits

/-! ## Keys -/

/-- What follows the last name of a key: a blank and an equals sign, or a closing bracket. -/
structure EndsKey (rest : List Char) : Prop where
  head : ∀ c, rest.head? = some c → c = ' ' ∨ c = ']'
  noPoint : ∀ more, dropBlanks rest ≠ '.' :: more

theorem EndsKey.head_ne {rest : List Char} (h : EndsKey rest) {c : Char} (hblank : c ≠ ' ')
    (hclose : c ≠ ']') : rest.head? ≠ some c :=
  fun hc => (h.head c hc).elim hblank hclose

theorem writePath_cons (first : String) (path : List String) (name : String) :
    writePath (first :: (path ++ [name])) = writeKey first ++ '.' :: writePath (path ++ [name]) := by
  cases path <;> rfl

/-- The path and the name of a key are read back. -/
theorem readNames_writePath (path : List String) (name : String) (fuel : Nat) (rest : List Char)
    (enough : (writePath (path ++ [name])).length + 2 ≤ fuel) (hrest : EndsKey rest) :
    readNames fuel (writePath (path ++ [name]) ++ rest) =
      some ((path, name), dropBlanks rest) := by
  obtain ⟨fuel, rfl⟩ : ∃ n, fuel = n + 1 := ⟨fuel - 1, by omega⟩
  induction path generalizing fuel with
  | nil =>
      have hlength := length_le_writeKey name
      have hbare : ∀ c ∈ rest.head?, isBareKeyChar c = false := by
        intro c hc
        rcases hrest.head c hc with rfl | rfl <;> decide
      have hname := readName_writeKey name fuel
        (by simp only [List.nil_append, writePath] at enough; omega) rest
        hbare (hrest.head_ne (by decide) (by decide)) (hrest.head_ne (by decide) (by decide))
      have hdrop := ((begins_writeKey name).append rest).dropBlanks_eq
      simp only [List.nil_append, writePath, readNames, hdrop, hname, Option.bind_eq_bind,
        Option.bind_some]
      split
      · exact absurd ‹_› (hrest.noPoint _)
      · rfl
  | cons first path ih =>
      let more := writePath (path ++ [name]) ++ rest
      have hlength := length_le_writeKey first
      have hpos := (begins_writeKey first).length_pos
      rw [List.cons_append, writePath_cons, List.length_append, List.length_cons] at enough
      obtain ⟨fuel, rfl⟩ : ∃ n, fuel = n + 1 := ⟨fuel - 1, by omega⟩
      have hname := readName_writeKey first (fuel + 1) (by omega) ('.' :: more)
        (by simp [isBareKeyChar]) (by simp) (by simp)
      have hdrop := ((begins_writeKey first).append ('.' :: more)).dropBlanks_eq
      have hpoint : dropBlanks ('.' :: more) = '.' :: more := dropBlanks_of_not_blank _ (by decide)
      rw [List.cons_append, writePath_cons, List.append_assoc, List.cons_append, readNames]
      simp only [more] at hname hdrop hpoint
      simp only [hdrop, hname, hpoint, Option.bind_eq_bind, Option.bind_some]
      rw [ih fuel (by omega)]
      rfl

/-! ## Values -/

/-- The value is read back where it may end. -/
def ReadsBack (v : Toml) : Prop :=
  Begins (writeValue v) ∧ ∀ fuel rest, (writeValue v).length ≤ fuel → Stops rest →
    readValue .unbounded fuel (writeValue v ++ rest) = some (v, rest)

/-- A value has a character, so that reading it takes a step. -/
theorem readsBack_of_succ {v : Toml} (hbegins : Begins (writeValue v))
    (h : ∀ fuel rest, (writeValue v).length ≤ fuel + 1 → Stops rest →
      readValue .unbounded (fuel + 1) (writeValue v ++ rest) = some (v, rest)) : ReadsBack v := by
  refine ⟨hbegins, fun fuel rest enough hrest => ?_⟩
  have hpos := hbegins.length_pos
  obtain ⟨fuel, rfl⟩ : ∃ n, fuel = n + 1 := ⟨fuel - 1, by omega⟩
  exact h fuel rest enough hrest

theorem readValue_number {text : List Char} {v : Toml} (h : IsNumber text v) {rest : List Char}
    (hrest : Stops rest) (fuel : Nat) :
    readValue .unbounded (fuel + 1) (text ++ rest) = some (v, rest) := by
  have hnone := h.noMoment rest hrest
  have hread := h.reads rest hrest
  obtain ⟨c, more, rfl, hc⟩ := h.head
  have hne {d : Char} (hd : Digits.isDigit 10 d = false) (hminus : d ≠ '-') : c ≠ d := by
    rcases hc with hdigit | rfl
    · exact isDigit_ne hdigit hd
    · exact Ne.symm hminus
  have hlist : c ≠ '[' := hne (by decide) (by decide)
  have htable : c ≠ '\x7b' := hne (by decide) (by decide)
  have ht : c ≠ 't' := hne (by decide) (by decide)
  have hf : c ≠ 'f' := hne (by decide) (by decide)
  have hdouble : c ≠ '"' := hne (by decide) (by decide)
  have hsingle : c ≠ '\'' := hne (by decide) (by decide)
  rw [List.cons_append] at hnone hread ⊢
  unfold readValue
  split
  · simp_all
  · simp_all
  · simp_all
  · simp_all
  · simp_all
  · simp_all

theorem readsBack_number {text : List Char} {v : Toml} (hwrite : writeValue v = text)
    (h : IsNumber text v) : ReadsBack v := by
  have hbegins : Begins text :=
    begins_of_head h.head (by simp [separators, Digits.isDigit, Digits.value?])
  refine readsBack_of_succ (hwrite ▸ hbegins) fun fuel rest _ hrest => ?_
  rw [hwrite]
  exact readValue_number h hrest fuel

theorem readsBack_str (s : String) : ReadsBack (.str s) := by
  have hhead := writeText_eq_cons s
  have hbegins : Begins (writeValue (.str s)) := begins_of_head hhead (by simp [separators])
  refine readsBack_of_succ hbegins fun fuel rest enough hrest => ?_
  obtain ⟨c, more, hwrite, hc⟩ := hhead
  have hlength := length_lt_writeText s
  rw [writeValue] at enough ⊢
  have hread := readText_writeText s fuel (by omega) (hrest.head_ne (by decide))
    (hrest.head_ne (by decide))
  rw [hwrite, List.cons_append] at hread ⊢
  rcases hc with rfl | rfl <;> simp [readValue, hread]

theorem readsBack_bool (b : Bool) : ReadsBack (.bool b) := by
  cases b with
  | true =>
      refine readsBack_of_succ ⟨'t', _, rfl, by decide⟩ fun fuel rest _ _ => ?_
      simp [writeValue, readValue, readWord]
  | false =>
      refine readsBack_of_succ ⟨'f', _, rfl, by decide⟩ fun fuel rest _ _ => ?_
      simp [writeValue, readValue, readWord]

/-! ## Lists -/

theorem stops_cons {c : Char} (hc : c ∈ stops) (rest : List Char) : Stops (c :: rest) :=
  fun _ hd => Option.some.inj hd ▸ hc

theorem dropSpace_writeItems {item : Toml} (h : Begins (writeValue item)) (items : List Toml)
    (rest : List Char) :
    dropSpace false (writeItems (item :: items) ++ rest) =
      writeValue item ++ ',' :: (writeItems items ++ rest) := by
  have hbegins := h.append (',' :: (writeItems items ++ rest))
  simp only [writeItems, List.cons_append, List.append_assoc]
  rw [dropSpace_newline, dropSpace_blanks, hbegins.dropSpace_eq]

/-- The items of a list, each on a line of its own, and the bracket on the last line. -/
theorem readItems_writeItems (item : Toml) (items : List Toml)
    (h : ∀ v ∈ item :: items, ReadsBack v) (fuel : Nat) (rest : List Char)
    (enough : (writeItems (item :: items)).length ≤ fuel) :
    readItems .unbounded fuel (writeValue item ++ ',' :: (writeItems items ++ '\n' :: ']' :: rest)) =
      some (item :: items, rest) := by
  obtain ⟨fuel, rfl⟩ : ∃ n, fuel = n + 1 := ⟨fuel - 1, by simp [writeItems] at enough; omega⟩
  have hcomma (cs : List Char) : dropSpace false (',' :: cs) = ',' :: cs :=
    dropSpace_of_not_space cs (by decide)
  induction items generalizing item fuel with
  | nil =>
      obtain ⟨-, hread⟩ := h item (by simp)
      have hvalue := hread fuel (',' :: (writeItems [] ++ '\n' :: ']' :: rest))
        (by simp only [writeItems, List.length_append, List.length_cons] at enough; omega)
        (stops_cons (by decide) _)
      have hclose : dropSpace false (writeItems [] ++ '\n' :: ']' :: rest) = ']' :: rest := by
        rw [writeItems, List.nil_append, dropSpace_newline, dropSpace_of_not_space rest (by decide)]
      simp [readItems, hvalue, hcomma, hclose]
  | cons next items ih =>
      obtain ⟨-, hread⟩ := h item (by simp)
      have hnext := (h next (by simp)).1
      have hvalue := hread fuel (',' :: (writeItems (next :: items) ++ '\n' :: ']' :: rest))
        (by simp only [writeItems, List.length_append, List.length_cons] at enough; omega)
        (stops_cons (by decide) _)
      have hrest := dropSpace_writeItems hnext items ('\n' :: ']' :: rest)
      obtain ⟨fuel, rfl⟩ : ∃ n, fuel = n + 1 :=
        ⟨fuel - 1, by simp only [writeItems, List.length_append, List.length_cons] at enough; omega⟩
      have hothers := ih next (fun v hv => h v (List.mem_cons_of_mem _ hv)) fuel
        (by rw [writeItems] at enough; simp only [List.length_append, List.length_cons] at enough; omega)
      rw [readItems]
      simp only [hvalue, hcomma, hrest, Option.bind_eq_bind, Option.bind_some]
      split
      · exact absurd ‹_› ((hnext.append _).head_ne _ (by decide))
      · rw [hothers, Option.bind_some]

theorem readValue_list {fuel : Nat} {cs inner rest : List Char} {items : List Toml}
    (hdrop : dropSpace false cs = inner) (hbegins : Begins inner)
    (hread : readItems .unbounded fuel inner = some (items, rest)) :
    readValue .unbounded (fuel + 1) ('[' :: cs) = some (.array items, rest) := by
  simp only [readValue, Limits.inner?_unbounded, hdrop, Option.bind_eq_bind, Option.bind_some]
  split
  · exact absurd rfl (hbegins.head_ne _ (by decide))
  · rw [hread, Option.bind_some]

theorem readsBack_nil : ReadsBack (.array []) := by
  refine readsBack_of_succ ⟨'[', _, rfl, by decide⟩ fun fuel rest _ _ => ?_
  have hclose := dropSpace_of_not_space (c := ']') rest (by decide)
  simp [writeValue, readValue, hclose]

theorem readsBack_singleton {item : Toml} (h : ReadsBack item) : ReadsBack (.array [item]) := by
  refine readsBack_of_succ ⟨'[', _, rfl, by decide⟩ fun fuel rest enough _ => ?_
  obtain ⟨hbegins, hread⟩ := h
  have hpos := hbegins.length_pos
  rw [writeValue, List.length_append, List.length_cons, List.length_singleton] at enough
  obtain ⟨fuel, rfl⟩ : ∃ n, fuel = n + 1 := ⟨fuel - 1, by omega⟩
  have hvalue := hread fuel (']' :: rest) (by omega) (stops_cons (by decide) rest)
  have hclose := dropSpace_of_not_space (c := ']') rest (by decide)
  have hitems : readItems .unbounded (fuel + 1) (writeValue item ++ ']' :: rest) =
      some ([item], rest) := by
    simp [readItems, hvalue, hclose]
  have hlist := readValue_list (hbegins.append _).dropSpace_eq (hbegins.append _) hitems
  simpa [writeValue] using hlist

theorem readsBack_items {item next : Toml} {items : List Toml}
    (h : ∀ v ∈ item :: next :: items, ReadsBack v) : ReadsBack (.array (item :: next :: items)) := by
  refine readsBack_of_succ ⟨'[', _, rfl, by decide⟩ fun fuel rest enough _ => ?_
  have hbegins := (h item (by simp)).1
  rw [writeValue, List.length_append, List.length_cons] at enough
  · have hitems := readItems_writeItems item (next :: items) h fuel rest (by omega)
    have hlist := readValue_list (dropSpace_writeItems hbegins (next :: items) ('\n' :: ']' :: rest))
      (hbegins.append _) hitems
    simpa [writeValue] using hlist
  · simp
  · simp

/-! ## Tables -/

/-- A key, an equals sign and a value. -/
def writePair (name : String) (v : Toml) : List Char :=
  writeKey name ++ [' ', '=', ' '] ++ writeValue v

theorem readPair_writePair (name : String) {v : Toml} (h : ReadsBack v) (fuel : Nat)
    (rest : List Char) (enough : (writePair name v).length ≤ fuel) (hrest : Stops rest) :
    readPair .unbounded fuel (writePair name v ++ rest) = some (⟨[], name, v⟩, rest) := by
  obtain ⟨hbegins, hread⟩ := h
  have hpos := hbegins.length_pos
  simp only [writePair, List.length_append, List.length_cons, List.length_nil] at enough
  obtain ⟨fuel, rfl⟩ : ∃ n, fuel = n + 1 := ⟨fuel - 1, by omega⟩
  let after := [' ', '=', ' '] ++ (writeValue v ++ rest)
  have hequals : dropBlanks after = '=' :: ' ' :: (writeValue v ++ rest) := rfl
  have hnames := readNames_writePath [] name fuel after
    (by simp only [List.nil_append, writePath]; omega)
    ⟨by simp [after], by simp [hequals]⟩
  have hvalue := hread fuel rest (by omega) hrest
  have hdrop := (hbegins.append rest).dropBlanks_eq
  rw [List.nil_append, hequals] at hnames
  simp only [writePath] at hnames
  simp only [writePair, List.append_assoc, readPair, readKey]
  simp only [after, List.cons_append, List.nil_append] at hnames
  simp [hnames, dropBlanks_blank, hdrop, hvalue]

theorem writeFields_cons (name : String) (v : Toml) (next : String × Toml)
    (fields : List (String × Toml)) :
    writeFields ((name, v) :: next :: fields) =
      writePair name v ++ ([',', ' '] ++ writeFields (next :: fields)) := by
  simp [writeFields, writePair]

/-- The pairs of fields. -/
def pairsOf (fields : List (String × Toml)) : List Pair :=
  fields.map fun field => ⟨[], field.1, field.2⟩

theorem pairsOf_cons (name : String) (v : Toml) (fields : List (String × Toml)) :
    pairsOf ((name, v) :: fields) = ⟨[], name, v⟩ :: pairsOf fields := rfl

theorem begins_writeFields (field : String × Toml) (fields : List (String × Toml)) :
    Begins (writeFields (field :: fields)) := by
  obtain ⟨name, v⟩ := field
  cases fields with
  | nil => exact ((begins_writeKey name).append _).append _
  | cons next fields =>
      rw [writeFields_cons]
      exact (((begins_writeKey name).append _).append _).append _

theorem readPairs_blank (fuel : Nat) (cs : List Char) :
    readPairs .unbounded fuel (' ' :: cs) = readPairs .unbounded fuel cs := by
  have hnames (fuel : Nat) : readNames fuel (' ' :: cs) = readNames fuel cs := by
    cases fuel <;> simp [readNames, dropBlanks_blank]
  have hpair (fuel : Nat) : readPair .unbounded fuel (' ' :: cs) = readPair .unbounded fuel cs := by
    cases fuel <;> simp [readPair, readKey, hnames]
  cases fuel <;> simp [readPairs, hpair]

/-- Fields on one line, the blank after them and the closing brace. -/
theorem readPairs_writeFields (field : String × Toml) (fields : List (String × Toml))
    (h : ∀ f ∈ field :: fields, ReadsBack f.2) (fuel : Nat) (rest : List Char)
    (enough : (writeFields (field :: fields)).length + 1 ≤ fuel) :
    readPairs .unbounded fuel (writeFields (field :: fields) ++ ' ' :: '\x7d' :: rest) =
      some (pairsOf (field :: fields), rest) := by
  obtain ⟨fuel, rfl⟩ : ∃ n, fuel = n + 1 := ⟨fuel - 1, by omega⟩
  induction fields generalizing field fuel with
  | nil =>
      obtain ⟨name, v⟩ := field
      have hpair := readPair_writePair name (h (name, v) (by simp)) fuel (' ' :: '\x7d' :: rest)
        (by simp only [writeFields] at enough; simp only [writePair]; omega)
        (stops_cons (by decide) _)
      have hclose : dropBlanks (' ' :: '\x7d' :: rest) = '\x7d' :: rest := rfl
      have hwrite : writeFields [(name, v)] = writePair name v := by
        simp [writeFields, writePair]
      simp [readPairs, hwrite, hpair, hclose, pairsOf]
  | cons next fields ih =>
      obtain ⟨name, v⟩ := field
      rw [writeFields_cons] at enough ⊢
      simp only [List.length_append, List.length_cons, List.length_nil] at enough
      obtain ⟨fuel, rfl⟩ : ∃ n, fuel = n + 1 := ⟨fuel - 1, by omega⟩
      have hpair := readPair_writePair name (h (name, v) (by simp)) (fuel + 1)
        (',' :: ' ' :: (writeFields (next :: fields) ++ ' ' :: '\x7d' :: rest))
        (by simp only; omega) (stops_cons (by decide) _)
      have hcomma (cs : List Char) : dropBlanks (',' :: cs) = ',' :: cs := rfl
      have hothers := ih next (fun f hf => h f (List.mem_cons_of_mem _ hf)) fuel
        (by omega)
      rw [readPairs]
      simp [hpair, hcomma, readPairs_blank, hothers, pairsOf]

/-- Fields in their place, as values. -/
def valuesOf (fields : List (String × Toml)) : List (String × Node) :=
  fields.map fun field => (field.1, .value field.2)

theorem valuesOf_cons (name : String) (v : Toml) (fields : List (String × Toml)) :
    valuesOf ((name, v) :: fields) = (name, .value v) :: valuesOf fields := rfl

theorem put_value {name : String} {fields : List (String × Node)}
    (h : name ∉ fields.map Prod.fst) (v : Toml) :
    Node.put [] name v fields = some (fields ++ [(name, .value v)]) := by
  have hlookup : fields.lookup name = none := by
    rw [List.lookup_eq_none_iff]
    intro field hfield
    exact bne_iff_ne.mpr fun hname => h (hname ▸ List.mem_map_of_mem hfield)
  simp [Node.put, Node.change, hlookup]

/-- Pairs of different names are put into a table in their order. -/
theorem putAll_pairsOf (fields : List (String × Toml)) (placed : List (String × Node))
    (h : (placed.map Prod.fst ++ fields.map Prod.fst).Nodup) :
    putAll (pairsOf fields) placed = some (placed ++ valuesOf fields) := by
  induction fields generalizing placed with
  | nil => simp [pairsOf, putAll, valuesOf]
  | cons field fields ih =>
      obtain ⟨name, v⟩ := field
      have hname : name ∉ placed.map Prod.fst := by
        rw [List.map_cons] at h
        exact fun hmem => (List.disjoint_of_nodup_append h) hmem List.mem_cons_self
      have hothers := ih (placed ++ [(name, .value v)]) (by simpa using h)
      rw [pairsOf_cons, valuesOf_cons, putAll]
      simpa [put_value hname] using hothers

theorem fieldsToToml_valuesOf (fields : List (String × Toml)) :
    Node.fieldsToToml (valuesOf fields) = fields := by
  induction fields with
  | nil => rfl
  | cons field fields ih =>
      rw [valuesOf] at ih ⊢
      rw [List.map_cons, Node.fieldsToToml, Node.toToml, ih]

theorem readsBack_table {fields : List (String × Toml)} (h : ∀ f ∈ fields, ReadsBack f.2)
    (hnodup : (fields.map Prod.fst).Nodup) : ReadsBack (.table fields) := by
  cases fields with
  | nil =>
      refine readsBack_of_succ ⟨'\x7b', _, rfl, by decide⟩ fun fuel rest _ _ => ?_
      have hclose : dropBlanks ('\x7d' :: rest) = '\x7d' :: rest := rfl
      simp [writeValue, readValue, hclose]
  | cons field fields =>
      refine readsBack_of_succ ⟨'\x7b', _, rfl, by decide⟩ fun fuel rest enough _ => ?_
      simp only [writeValue, List.length_append, List.length_cons, List.length_nil] at enough
      have hpairs := readPairs_writeFields field fields h fuel rest (by omega)
      have hbegins := (begins_writeFields field fields).append (' ' :: '\x7d' :: rest)
      have htable : ofPairs (pairsOf (field :: fields)) = some (.table (field :: fields)) := by
        rw [ofPairs, putAll_pairsOf _ _ (by simpa using hnodup)]
        simp [fieldsToToml_valuesOf]
      simp only [writeValue, List.cons_append, List.append_assoc, List.nil_append, readValue,
        Limits.inner?_unbounded, Option.bind_eq_bind, Option.bind_some, dropBlanks_blank,
        hbegins.dropBlanks_eq]
      split
      · exact absurd ‹_› (hbegins.head_ne _ (by decide))
      · rw [hpairs, Option.bind_some, htable, Option.bind_some]

/-! ## All values -/

mutual

/-- Every regular value is read back. -/
theorem readsBack : (v : Toml) → Regular v → ReadsBack v
  | .str s, _ => readsBack_str s
  | .int n, _ => readsBack_number (by rw [writeValue]) (isNumber_int n)
  | .float _, h => readsBack_number (by rw [writeValue]) (isNumber_float (by rwa [Regular] at h))
  | .bool b, _ => readsBack_bool b
  | .moment _, h => by
      rw [Regular] at h
      exact h.elim
  | .array [], _ => readsBack_nil
  | .array [item], h => by
      rw [Regular, RegularItems] at h
      exact readsBack_singleton (readsBack item h.1)
  | .array (item :: next :: items), h => by
      rw [Regular] at h
      exact readsBack_items (readsBack_of_mem (item :: next :: items) h)
  | .table fields, h => by
      rw [Regular] at h
      exact readsBack_table (readsBack_of_mem_fields fields h.2) h.1

theorem readsBack_of_mem : (items : List Toml) → RegularItems items → ∀ v ∈ items, ReadsBack v
  | [], _ => by simp
  | item :: rest, h => by
      rw [RegularItems] at h
      exact List.forall_mem_cons.mpr ⟨readsBack item h.1, readsBack_of_mem rest h.2⟩

theorem readsBack_of_mem_fields :
    (fields : List (String × Toml)) → RegularFields fields → ∀ f ∈ fields, ReadsBack f.2
  | [], _ => by simp
  | (_, value) :: rest, h => by
      rw [RegularFields] at h
      exact List.forall_mem_cons.mpr ⟨readsBack value h.1, readsBack_of_mem_fields rest h.2⟩

end

end Toml

end Autoscaling

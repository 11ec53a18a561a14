import Autoscaling.Config.File
import Autoscaling.Proofs.Decode.Written
import Autoscaling.Proofs.Toml.Arranged
import Autoscaling.Proofs.Toml.Json

/-!
# Configuration files are read back

A configuration has a text unless something in it has no place in a file: a `null` inside a payload,
or an integer beyond the signed words of 64 bits.  The text is read as the same configuration,
payloads and all, and a valid one is accepted (`Config.render_spec`).

The fields of the document are found one by one, as in the JSON form of a configuration.  The
tolerance is kept out of that form and put in its place afterwards.
-/

namespace Autoscaling

open Toml

/-! ## What is written -/

namespace Settings

/-- The table of settings stands for their JSON form. -/
theorem toToml_spec {s : Settings} {v : Toml} (h : s.toToml = .ok v) :
    Regular v ∧ Toml.toJson v = s.toJson := by
  rw [toToml] at h
  cases hnull : s.payload.isNull with
  | true =>
      rw [hnull, if_pos rfl] at h
      cases h
      refine ⟨by simp [Regular, RegularFields], ?_⟩
      simp [Toml.toJson, fieldsToJson, toJson, hnull]
  | false =>
      rw [hnull, if_neg Bool.false_ne_true] at h
      obtain ⟨payload, hpayload, h⟩ := bind_eq_ok_iff.mp h
      cases h
      have hregular := regular_ofJson _ s.payload.canonical payload hpayload
      refine ⟨by simp [Regular, RegularFields, hregular], ?_⟩
      simp [Toml.toJson, fieldsToJson, toJson, hnull, toJson_ofJson _ payload hpayload]

end Settings

theorem Overflow.toJson_toToml (o : Overflow) : Toml.toJson o.toToml = o.toJson := by
  cases o <;> rfl

theorem toJson_ofWord {n : UInt64} {v : Toml} (h : Toml.ofInt n.toNat = .ok v) :
    Regular v ∧ Toml.toJson v = .ofUInt64 n := by
  obtain ⟨word, hword, hval⟩ : ∃ word : JsonInt, Json.ofUInt64 n = .int word ∧ word.val = n.toNat :=
    ⟨_, rfl, rfl⟩
  rw [← hval] at h
  exact ⟨regular_ofInt h, hword ▸ toJson_ofInt h⟩

theorem Tuning.toToml_spec {t : Tuning} {v : Toml} (h : t.toToml = .ok v) :
    Regular v ∧ Toml.toJson v = t.toJson := by
  rw [toToml] at h
  obtain ⟨capacity, hcapacity, h⟩ := bind_eq_ok_iff.mp h
  cases h
  obtain ⟨hregular, hjson⟩ := toJson_ofWord hcapacity
  have hoverflow : Regular t.watchOverflow.toToml := by
    cases t.watchOverflow <;> simp [Overflow.toToml, Regular]
  refine ⟨by simp [Regular, RegularFields, hregular, hoverflow], ?_⟩
  simp [Toml.toJson, fieldsToJson, toJson, hjson, Overflow.toJson_toToml]

/-! ## What is read -/

namespace Config

/-- The fields of a document without the tolerance. -/
def others (fields : List (String × Toml)) : List (String × Toml) :=
  fields.filter fun field => field.1 != "tolerance"

section Others

variable {fields : List (String × Toml)}

theorem names_others (fields : List (String × Toml)) :
    (fieldsToJson (others (arranged fields))).map Prod.fst =
      (others (arranged fields)).map Prod.fst := by
  rw [fieldsToJson_eq_map, List.map_map]
  rfl

theorem nodup_others (hnodup : (fields.map Prod.fst).Nodup) :
    ((fieldsToJson (others (arranged fields))).map Prod.fst).Nodup := by
  rw [names_others]
  exact (List.filter_sublist.map Prod.fst).nodup ((names_arranged_perm fields).nodup_iff.mpr hnodup)

theorem mem_others {name : String} {v : Toml} (h : (name, v) ∈ fields) (hname : name ≠ "tolerance") :
    (name, Toml.toJson (arrangedValue v)) ∈ fieldsToJson (others (arranged fields)) := by
  have hmem : (name, arrangedValue v) ∈ arranged fields := by
    rw [(arranged_perm fields).mem_iff]
    exact List.mem_map.mpr ⟨(name, v), h, rfl⟩
  rw [fieldsToJson_eq_map]
  exact List.mem_map.mpr ⟨_, List.mem_filter.mpr ⟨hmem, by simpa using hname⟩, rfl⟩

theorem not_mem_others {name : String} (h : name ∉ fields.map Prod.fst ∨ name = "tolerance") :
    name ∉ (fieldsToJson (others (arranged fields))).map Prod.fst := by
  rw [names_others]
  intro hmem
  obtain ⟨field, hfield, rfl⟩ := List.mem_map.mp hmem
  obtain ⟨hfield, hname⟩ := List.mem_filter.mp hfield
  rcases h with h | h
  · exact h ((names_arranged_perm fields).mem_iff.mp (List.mem_map_of_mem hfield))
  · simp [h] at hname

/-- A field is read from the document as from the JSON form of the configuration. -/
theorem reads_others {α : Type} {name : String} {decoder : Decoder α} {fromObject fromList : Option α}
    {v : Toml} {value : Json} {x : α} (hv : Regular v ∧ Toml.toJson v = value)
    (hx : decoder.Reads .file value x) (h : (name, v) ∈ fields) (hname : name ≠ "tolerance") :
    (Fields.cell name decoder fromObject fromList).Reads .file
      (fieldsToJson (others (arranged fields))) x := by
  refine .cell ?_ (mem_others h hname)
  rw [Decoder.Reads, canonical_arrangedValue v hv.1, hv.2]
  exact hx

end Others

/-- Settings that may be absent are read from the document. -/
theorem reads_settingsField {name : String} {s : Option Settings} {own fields : List (String × Toml)}
    (h : settingsField name s = .ok own) (hown : ∀ field ∈ own, field ∈ fields)
    (habsent : s = none → name ∉ fields.map Prod.fst) (hname : name ≠ "tolerance") :
    (Fields.optional name Settings.decoder).Reads .file
      (fieldsToJson (others (arranged fields))) s := by
  cases s with
  | none => exact .absent (not_mem_others (.inl (habsent rfl)))
  | some s =>
      obtain ⟨table, htable, h⟩ := bind_eq_ok_iff.mp h
      cases h
      have hread : Settings.decoder.option.Reads .file s.toJson (some s) :=
        Decoder.reads_some s.reads (by simp [Settings.toJson, Json.canonical])
      exact reads_others (Settings.toToml_spec htable) hread (hown _ (by simp)) hname

theorem settingsField_spec {name : String} {s : Option Settings} {own : List (String × Toml)}
    (h : settingsField name s = .ok own) :
    RegularFields own ∧ own.map Prod.fst = if s.isSome then [name] else [] := by
  cases s with
  | none =>
      cases h
      exact ⟨trivial, rfl⟩
  | some s =>
      obtain ⟨table, htable, h⟩ := bind_eq_ok_iff.mp h
      cases h
      exact ⟨⟨(Settings.toToml_spec htable).1, trivial⟩, rfl⟩

/-- The parts of a document for a configuration. -/
structure Written (c : Config) (fields : List (String × Toml)) where
  storage : List (String × Toml)
  metrics : List (String × Toml)
  scaling : List (String × Toml)
  events : List (String × Toml)
  resync : Toml
  downscale : Toml
  workers : Toml
  store : Toml
  fields_eq : fields = storage ++ metrics ++ scaling ++ events ++
    [("resync_period_secs", resync), ("tolerance", .float c.tolerance),
      ("downscale_stabilization_secs", downscale), ("workers", workers), ("store", store)]
  storage_eq : settingsField "storage" c.storage = .ok storage
  metrics_eq : settingsField "metrics" c.metrics = .ok metrics
  scaling_eq : settingsField "scaling" c.scaling = .ok scaling
  events_eq : settingsField "events" c.events = .ok events
  resync_eq : Toml.ofInt c.resyncPeriodSecs.toNat = .ok resync
  downscale_eq : Toml.ofInt c.downscaleStabilizationSecs.toNat = .ok downscale
  workers_eq : Toml.ofInt c.workers.toNat = .ok workers
  store_eq : c.store.toToml = .ok store

variable {c : Config} {fields : List (String × Toml)}

theorem written_of_toFields (h : c.toFields = .ok fields) : Nonempty (Written c fields) := by
  rw [toFields] at h
  obtain ⟨storage, hstorage, h⟩ := bind_eq_ok_iff.mp h
  obtain ⟨metrics, hmetrics, h⟩ := bind_eq_ok_iff.mp h
  obtain ⟨scaling, hscaling, h⟩ := bind_eq_ok_iff.mp h
  obtain ⟨events, hevents, h⟩ := bind_eq_ok_iff.mp h
  obtain ⟨resync, hresync, h⟩ := bind_eq_ok_iff.mp h
  obtain ⟨downscale, hdownscale, h⟩ := bind_eq_ok_iff.mp h
  obtain ⟨workers, hworkers, h⟩ := bind_eq_ok_iff.mp h
  obtain ⟨store, hstore, h⟩ := bind_eq_ok_iff.mp h
  cases h
  exact ⟨⟨storage, metrics, scaling, events, resync, downscale, workers, store, rfl, hstorage,
    hmetrics, hscaling, hevents, hresync, hdownscale, hworkers, hstore⟩⟩

namespace Written

variable (w : Written c fields)

include w

theorem names_eq : fields.map Prod.fst =
    (if c.storage.isSome then ["storage"] else []) ++ (if c.metrics.isSome then ["metrics"] else []) ++
      (if c.scaling.isSome then ["scaling"] else []) ++ (if c.events.isSome then ["events"] else []) ++
        ["resync_period_secs", "tolerance", "downscale_stabilization_secs", "workers", "store"] := by
  rw [w.fields_eq]
  simp only [List.map_append, (settingsField_spec w.storage_eq).2, (settingsField_spec w.metrics_eq).2,
    (settingsField_spec w.scaling_eq).2, (settingsField_spec w.events_eq).2, List.map_cons,
    List.map_nil]

theorem nodup : (fields.map Prod.fst).Nodup := by
  have hoptional (b : Bool) (name : String) : (if b then [name] else []).Sublist [name] := by
    cases b <;> simp
  rw [w.names_eq]
  refine List.Sublist.nodup ?_ (by decide : ["storage", "metrics", "scaling", "events",
    "resync_period_secs", "tolerance", "downscale_stabilization_secs", "workers", "store"].Nodup)
  exact ((((hoptional _ _).append (hoptional _ _)).append (hoptional _ _)).append
    (hoptional _ _)).append (List.Sublist.refl _)

theorem regular (finite : c.tolerance.isFinite = true) : RegularFields fields := by
  rw [w.fields_eq, regularFields_iff]
  have hseam {name : String} {s : Option Settings} {own : List (String × Toml)}
      (h : settingsField name s = .ok own) : ∀ field ∈ own, Regular field.2 :=
    regularFields_iff.mp (settingsField_spec h).1
  simp only [List.forall_mem_append, List.forall_mem_cons]
  refine ⟨⟨⟨⟨hseam w.storage_eq, hseam w.metrics_eq⟩, hseam w.scaling_eq⟩, hseam w.events_eq⟩,
    (toJson_ofWord w.resync_eq).1, ?_, (toJson_ofWord w.downscale_eq).1,
    (toJson_ofWord w.workers_eq).1, (Tuning.toToml_spec w.store_eq).1, by simp⟩
  rw [Regular]
  exact finite

theorem reads_others :
    Config.decoder.Reads .file (.obj (fieldsToJson (others (arranged fields))))
      { c with tolerance := 0.1 } := by
  have hmem {name : String} {v : Toml}
      (h : (name, v) ∈ [("resync_period_secs", w.resync), ("tolerance", .float c.tolerance),
        ("downscale_stabilization_secs", w.downscale), ("workers", w.workers), ("store", w.store)]) :
      (name, v) ∈ fields := by
    rw [w.fields_eq]
    exact List.mem_append_right _ h
  refine Fields.Reads.decoder ?_ (nodup_others w.nodup) _
  refine .seq (.seq (.seq (.seq (.seq (.seq (.seq (.seq (.map Config.mk ?_) ?_) ?_) ?_) ?_) ?_) ?_)
    ?_) ?_
  · exact reads_settingsField w.storage_eq (fun field hfield => by simp [w.fields_eq, hfield])
      (fun hnone => by simp [w.names_eq, hnone]) (by decide)
  · exact reads_settingsField w.metrics_eq (fun field hfield => by simp [w.fields_eq, hfield])
      (fun hnone => by simp [w.names_eq, hnone]) (by decide)
  · exact reads_settingsField w.scaling_eq (fun field hfield => by simp [w.fields_eq, hfield])
      (fun hnone => by simp [w.names_eq, hnone]) (by decide)
  · exact reads_settingsField w.events_eq (fun field hfield => by simp [w.fields_eq, hfield])
      (fun hnone => by simp [w.names_eq, hnone]) (by decide)
  · exact Config.reads_others (toJson_ofWord w.resync_eq) (Decoder.reads_u64 _) (hmem (by simp))
      (by decide)
  · exact .default (not_mem_others (.inr rfl))
  · exact Config.reads_others (toJson_ofWord w.downscale_eq) (Decoder.reads_u64 _) (hmem (by simp))
      (by decide)
  · exact Config.reads_others (toJson_ofWord w.workers_eq) (Decoder.reads_usize _) (hmem (by simp))
      (by decide)
  · exact Config.reads_others (Tuning.toToml_spec w.store_eq) c.store.reads (hmem (by simp))
      (by decide)

theorem floatTolerance?_eq : floatTolerance? (arranged fields) = some c.tolerance := by
  have hmem : ("tolerance", Toml.float c.tolerance) ∈ arranged fields := by
    rw [(arranged_perm fields).mem_iff]
    exact List.mem_map.mpr ⟨("tolerance", .float c.tolerance), by simp [w.fields_eq], rfl⟩
  have hnodup := (names_arranged_perm fields).nodup_iff.mpr w.nodup
  have hlookup : (arranged fields).lookup "tolerance" = some (.float c.tolerance) := by
    obtain ⟨before, after, hsplit⟩ := List.append_of_mem hmem
    rw [hsplit, List.map_append] at hnodup
    refine List.lookup_eq_some_iff.mpr ⟨before, after, hsplit, fun field hfield => ?_⟩
    refine bne_iff_ne.mpr fun hname => List.disjoint_of_nodup_append hnodup
      (List.mem_map_of_mem hfield) ?_
    simp [← hname]
  rw [floatTolerance?, hlookup]

/-- The document is read as the configuration that it was written for. -/
theorem ofFields_eq : ofFields (arranged fields) = .ok c := by
  have hread := w.reads_others
  rw [Decoder.Reads] at hread
  rw [ofFields, w.floatTolerance?_eq]
  simp only [Toml.toJson]
  rw [others] at hread
  rw [hread]
  rfl

end Written

/-! ## Configurations without a text -/

/-- The settings of a configuration, for the seams that have any. -/
def seams (c : Config) : List Settings :=
  [c.storage, c.metrics, c.scaling, c.events].filterMap id

/-- The integers of a configuration: its own numbers, and those of its payloads. -/
inductive HasInteger (c : Config) : Int → Prop
  | resyncPeriodSecs : HasInteger c c.resyncPeriodSecs.toNat
  | downscaleStabilizationSecs : HasInteger c c.downscaleStabilizationSecs.toNat
  | workers : HasInteger c c.workers.toNat
  | watchQueueCapacity : HasInteger c c.store.watchQueueCapacity.toNat
  | payload {s : Settings} (hs : s ∈ c.seams) {n : JsonInt} (h : (Json.int n).Within s.payload.json) :
      HasInteger c n.val

theorem fails_toToml_iff (s : Settings) :
    Fails s.toToml ↔ Json.Inside .null s.payload.json ∨ ∃ n : JsonInt,
      (Json.int n).Within s.payload.json ∧ 9223372036854775807 < n.val := by
  rw [Settings.toToml]
  cases hnull : s.payload.isNull with
  | true =>
      -- an absent payload is left out
      have hjson : s.payload.json = .null := by rw [Payload.eq_null hnull]; rfl
      rw [if_pos rfl, hjson]
      refine iff_of_false (not_fails_ok _) ?_
      rintro (hinside | ⟨n, hwithin, -⟩)
      · cases hinside
      · rcases hwithin with h | h <;> cases h
  | false =>
      have hjson : s.payload.json ≠ .null := by
        intro h
        rw [Payload.isNull, h] at hnull
        cases hnull
      rw [if_neg Bool.false_ne_true, fails_bind_ok_iff, fails_ofJson_iff]
      constructor
      · rintro ⟨value, rfl | ⟨n, rfl, hn⟩, hwithin⟩
        · exact .inl (hwithin.resolve_left hjson)
        · exact .inr ⟨n, hwithin, hn⟩
      · rintro (hinside | ⟨n, hwithin, hn⟩)
        · exact ⟨.null, .inl rfl, .inr hinside⟩
        · exact ⟨.int n, .inr ⟨n, rfl, hn⟩, hwithin⟩

theorem fails_settingsField_iff (name : String) (s : Option Settings) :
    Fails (settingsField name s) ↔ ∃ s' ∈ s, Fails s'.toToml := by
  cases s with
  | none => exact iff_of_false (not_fails_ok _) (by simp)
  | some s =>
      rw [settingsField, fails_bind_ok_iff]
      simp

theorem fails_tuning_iff (t : Tuning) :
    Fails t.toToml ↔ 9223372036854775807 < (t.watchQueueCapacity.toNat : Int) := by
  rw [Tuning.toToml, fails_bind_ok_iff, fails_ofInt_iff]

theorem fails_toFields_iff (c : Config) :
    Fails c.toFields ↔ (∃ s ∈ c.seams, Fails s.toToml) ∨
      9223372036854775807 < (c.resyncPeriodSecs.toNat : Int) ∨
      9223372036854775807 < (c.downscaleStabilizationSecs.toNat : Int) ∨
      9223372036854775807 < (c.workers.toNat : Int) ∨
      9223372036854775807 < (c.store.watchQueueCapacity.toNat : Int) := by
  have hfields : Fails c.toFields ↔ Fails (settingsField "storage" c.storage) ∨
      Fails (settingsField "metrics" c.metrics) ∨ Fails (settingsField "scaling" c.scaling) ∨
      Fails (settingsField "events" c.events) ∨ Fails (Toml.ofInt c.resyncPeriodSecs.toNat) ∨
      Fails (Toml.ofInt c.downscaleStabilizationSecs.toNat) ∨ Fails (Toml.ofInt c.workers.toNat) ∨
      Fails c.store.toToml := by
    rw [toFields]
    iterate 7 refine fails_bind_of_forall fun _ => ?_
    exact fails_bind_ok_iff
  have hseams : (∃ s ∈ c.seams, Fails s.toToml) ↔ (∃ s ∈ c.storage, Fails s.toToml) ∨
      (∃ s ∈ c.metrics, Fails s.toToml) ∨ (∃ s ∈ c.scaling, Fails s.toToml) ∨
      ∃ s ∈ c.events, Fails s.toToml := by
    have hmem (s : Settings) : s ∈ c.seams ↔
        s ∈ c.storage ∨ s ∈ c.metrics ∨ s ∈ c.scaling ∨ s ∈ c.events := by
      simp [seams, eq_comm]
    simp only [hmem, or_and_right, exists_or]
  rw [hfields, hseams]
  simp only [fails_settingsField_iff, fails_ofInt_iff, fails_tuning_iff, or_assoc]

/-- A configuration has no text exactly if there is a `null` inside a payload or an integer is too
great. -/
theorem fails_toFields_iff_hasInteger (c : Config) :
    Fails c.toFields ↔ (∃ s ∈ c.seams, Json.Inside .null s.payload.json) ∨
      ∃ n, c.HasInteger n ∧ 9223372036854775807 < n := by
  rw [fails_toFields_iff]
  simp only [fails_toToml_iff]
  constructor
  · rintro (⟨s, hs, hinside | ⟨n, hwithin, hn⟩⟩ | hn | hn | hn | hn)
    · exact .inl ⟨s, hs, hinside⟩
    · exact .inr ⟨n.val, .payload hs hwithin, hn⟩
    · exact .inr ⟨_, .resyncPeriodSecs, hn⟩
    · exact .inr ⟨_, .downscaleStabilizationSecs, hn⟩
    · exact .inr ⟨_, .workers, hn⟩
    · exact .inr ⟨_, .watchQueueCapacity, hn⟩
  · rintro (⟨s, hs, hinside⟩ | ⟨n, hinteger, hn⟩)
    · exact .inl ⟨s, hs, .inl hinside⟩
    · cases hinteger with
      | resyncPeriodSecs => exact .inr (.inl hn)
      | downscaleStabilizationSecs => exact .inr (.inr (.inl hn))
      | workers => exact .inr (.inr (.inr (.inl hn)))
      | watchQueueCapacity => exact .inr (.inr (.inr (.inr hn)))
      | payload hs hwithin => exact .inl ⟨_, hs, .inr ⟨_, hwithin, hn⟩⟩

theorem fails_render_iff (c : Config) : (∃ e, c.render = .error e) ↔ Fails c.toFields := by
  rw [render]
  rcases fails_or_ok c.toFields with ⟨e, he⟩ | ⟨fields, hfields⟩
  · rw [he]
    exact iff_of_true ⟨_, rfl⟩ ⟨e, rfl⟩
  · rw [hfields]
    exact iff_of_false (not_fails_ok _) (not_fails_ok _)

theorem ofText_of_render {c : Config} (finite : c.tolerance.isFinite = true) {text : String}
    (h : c.render = .ok text) : ofText .unbounded text = .ok c := by
  rw [render] at h
  rcases fails_or_ok c.toFields with ⟨e, he⟩ | ⟨fields, hfields⟩
  · rw [he] at h
    cases h
  · rw [hfields] at h
    cases h
    obtain ⟨w⟩ := written_of_toFields hfields
    rw [ofText, parse?_text w.nodup (w.regular finite)]
    simp only [w.ofFields_eq]

/-- A configuration with a tolerance that is a number has no text exactly if there is a `null` inside
a payload or an integer is beyond the signed words of 64 bits.  Its text, without limits on the
document, is read as the same configuration, and it is accepted or refused as the configuration
is. -/
theorem render_spec (c : Config) (finite : c.tolerance.isFinite = true) :
    ((∃ e, c.render = .error e) ↔ (∃ s ∈ c.seams, Json.Inside .null s.payload.json) ∨
      ∃ n, c.HasInteger n ∧ 9223372036854775807 < n) ∧
    ∀ text, c.render = .ok text →
      ofText .unbounded text = .ok c ∧
      (parseWithin .unbounded text = .ok c ↔ c.validate = .ok ()) ∧
      ∀ e, c.validate = .error e → parseWithin .unbounded text = .error e := by
  refine ⟨(fails_render_iff c).trans (fails_toFields_iff_hasInteger c), fun text htext => ?_⟩
  have hread := ofText_of_render finite htext
  have hparse : parseWithin .unbounded text = c.validate >>= fun _ => .ok c := by
    rw [parseWithin, hread]
    rfl
  refine ⟨hread, ?_, fun e he => by rw [hparse, he]; rfl⟩
  rw [hparse]
  cases c.validate with
  | error e => exact iff_of_false (by rintro ⟨⟩) (by rintro ⟨⟩)
  | ok _ => exact iff_of_true rfl rfl

/-- Autoscalers that are declared in the configuration, without a source of metrics; and a payload
with `null` in it. -/
theorem render_inline :
    let c : Config := ⟨some ⟨"inline", .ofJson (.obj [("autoscalers", .arr [])])⟩, none, none, none,
      15, 0.1, 300, 1, {}⟩
    let text := "resync_period_secs = 15\ntolerance = 0.1\ndownscale_stabilization_secs = 300\n" ++
      "workers = 1\n\n[storage]\ntype = \"inline\"\n\n[storage.config]\nautoscalers = []\n\n" ++
      "[store]\nwatch_queue_capacity = 256\nwatch_overflow = \"disconnect\"\n"
    c.render = .ok text ∧ ofText .unbounded text = .ok c ∧
      parseWithin .unbounded text = .error (.missing "metrics") := by
  intro c text
  have finite : (0.1 : Float).isFinite = true := by decide +kernel
  have hrender : c.render = .ok text := by decide +kernel
  obtain ⟨-, hspec⟩ := render_spec c finite
  obtain ⟨hread, -, hrefused⟩ := hspec text hrender
  exact ⟨hrender, hread, hrefused _ rfl⟩

end Config

end Autoscaling

import Autoscaling.Proofs.Provider.Builtin
import Autoscaling.Proofs.Provider.Seams
import Mathlib.Data.List.Basic

/-!
# Making backends ends at the first failure

Making the backends of a configuration serves the seams one after the other.  `Registry.Serves` and
`Registry.Fails` say what may become of one seam, whatever the factories do to the world; from them
the outcome of the whole is put together.  `Backends.resolve_in_order` says that the seams are
served in their order until one fails, that its error is the error, and that up to there, and no
further, every factory that is chosen is called once.
-/

namespace Autoscaling

variable {β : Type}

/-- The settings of a configuration for a seam. -/
def Config.settingsAt (c : Config) : Seam → Option Settings
  | .storage => c.storage
  | .metrics => c.metrics
  | .scaling => c.scaling
  | .events => c.events

/-- Of the seams, only events need not be chosen in a valid configuration. -/
theorem Config.exists_settingsAt_of_validate {c : Config} (valid : c.validate = .ok ())
    {seam : Seam} (needed : seam ≠ .events) : ∃ settings, c.settingsAt seam = some settings := by
  unfold validate at valid
  split_ifs at valid with hstorage hmetrics hscaling
  rw [← Option.ne_none_iff_exists']
  rw [Option.isNone_iff_eq_none] at hstorage hmetrics hscaling
  cases seam with
  | storage => exact hstorage
  | metrics => exact hmetrics
  | scaling => exact hscaling
  | events => exact absurd rfl needed

namespace Backends

variable {client : Type → Type} {seam : Seam} {s s' : β}

theorem required_eq_error_iff {make : Factory β client} {settings? : Option Settings}
    {e : ProviderError} :
    required seam make settings? s = (.error e, s') ↔
      (settings? = none ∧ .unconfigured seam = e ∧ s = s') ∨
        ∃ settings, settings? = some settings ∧ make settings s = (.error e, s') := by
  cases settings? <;> simp [required]

theorem optional_eq_error_iff {make : Factory β client} {settings? : Option Settings}
    {e : ProviderError} :
    optional make settings? s = (.error e, s') ↔
      ∃ settings, settings? = some settings ∧ make settings s = (.error e, s') := by
  cases settings? with
  | none => simp [optional]
  | some settings =>
      show (some <$> (make settings s).1, (make settings s).2) = _ ↔ _
      rcases h : make settings s with ⟨_ | y, s₁⟩ <;> simp [h]

/-- The making of backends fails at a seam when every earlier one has its client. -/
theorem resolve_eq_error_iff {r : Registry β} {c : Config} {e : ProviderError} :
    resolve r c s = (.error e, s') ↔
      required .storage r.resolveStorage c.storage s = (.error e, s') ∨
      ∃ storage s₁, required .storage r.resolveStorage c.storage s = (.ok storage, s₁) ∧
        (required .metrics r.resolveMetrics c.metrics s₁ = (.error e, s') ∨
        ∃ metrics s₂, required .metrics r.resolveMetrics c.metrics s₁ = (.ok metrics, s₂) ∧
          (required .scaling r.resolveScaling c.scaling s₂ = (.error e, s') ∨
          ∃ scaling s₃, required .scaling r.resolveScaling c.scaling s₂ = (.ok scaling, s₃) ∧
            optional r.resolveEvents c.events s₃ = (.error e, s'))) := by
  rw [resolve]
  rcases required .storage r.resolveStorage c.storage s with ⟨_ | storage, s₁⟩
  · simp
  rcases hmetrics : required .metrics r.resolveMetrics c.metrics s₁ with ⟨_ | metrics, s₂⟩
  · simp [hmetrics]
  rcases hscaling : required .scaling r.resolveScaling c.scaling s₂ with ⟨_ | scaling, s₃⟩
  · simp [hmetrics, hscaling]
  rcases hevents : optional r.resolveEvents c.events s₃ with ⟨_ | events, s₄⟩ <;>
    simp [hmetrics, hscaling, hevents]

end Backends

namespace Registry

variable (r : Registry β) (c : Config)

/-! ## One seam -/

/-- A seam is served: its factory makes a client, or there need not be one.  The factory may change
the world. -/
inductive Serves : (seam : Seam) → β → Option (seam.Client β) → β → Prop
  | made {seam : Seam} {settings : Settings} {factory : Factory β seam.Client}
      {client : seam.Client β} {b b' : β} (chosen : c.settingsAt seam = some settings)
      (registered : (r.factories seam).find? settings.typeId = some factory)
      (answer : factory settings b = (.ok client, b')) : Serves seam b (some client) b'
  | unneeded {b : β} (absent : c.events = none) : Serves .events b none b

/-- A seam cannot be served, for one of three reasons. -/
inductive Fails : Seam → β → ProviderError → β → Prop
  | unconfigured {seam : Seam} {b : β} (needed : seam ≠ .events)
      (absent : c.settingsAt seam = none) : Fails seam b (.unconfigured seam) b
  | unregistered {seam : Seam} {settings : Settings} {b : β}
      (chosen : c.settingsAt seam = some settings)
      (missing : (r.factories seam).find? settings.typeId = none) :
      Fails seam b (.notRegistered seam settings.typeId) b
  | refused {seam : Seam} {settings : Settings} {factory : Factory β seam.Client}
      {e : ProviderError} {b b' : β} (chosen : c.settingsAt seam = some settings)
      (registered : (r.factories seam).find? settings.typeId = some factory)
      (answer : factory settings b = (.error e, b')) : Fails seam b e b'

/-- The call that is made at a seam, if its turn comes: none without settings or without a factory
for them. -/
def call? (seam : Seam) : Option FactoryCall :=
  (c.settingsAt seam).bind fun settings =>
    ((r.factories seam).find? settings.typeId).map fun _ => ⟨seam, settings.typeId, settings⟩

/-- Seams are served one after the other. -/
def Clears : List Seam → β → β → Prop
  | [], b, b' => b = b'
  | seam :: rest, b, b' => ∃ client b₁, r.Serves c seam b client b₁ ∧ Clears rest b₁ b'

variable {r c} {seam : Seam} {b b' : β}

theorem Serves.ofResolveAt {settings : Settings} {client : seam.Client β}
    (chosen : c.settingsAt seam = some settings)
    (made : r.resolveAt seam settings b = (.ok client, b')) :
    r.Serves c seam b (some client) b' := by
  cases hfound : (r.factories seam).find? settings.typeId with
  | none =>
      rw [resolveAt_of_not_found hfound] at made
      exact nomatch made
  | some factory => exact .made chosen hfound (resolveAt_of_found hfound b ▸ made)

theorem Fails.ofResolveAt {settings : Settings} {e : ProviderError}
    (chosen : c.settingsAt seam = some settings)
    (failed : r.resolveAt seam settings b = (.error e, b')) : r.Fails c seam b e b' := by
  cases hfound : (r.factories seam).find? settings.typeId with
  | none =>
      rw [resolveAt_of_not_found hfound] at failed
      cases failed
      exact .unregistered chosen hfound
  | some factory => exact .refused chosen hfound (resolveAt_of_found hfound b ▸ failed)

theorem required_eq_ok_iff_serves {client : seam.Client β} :
    Backends.required seam (r.resolveAt seam) (c.settingsAt seam) b = (.ok client, b') ↔
      r.Serves c seam b (some client) b' := by
  rw [Backends.required_eq_ok_iff]
  constructor
  · rintro ⟨settings, chosen, made⟩
    exact .ofResolveAt chosen made
  · intro serves
    cases serves with
    | made chosen registered answer =>
        exact ⟨_, chosen, (resolveAt_of_found registered b).trans answer⟩

theorem required_eq_error_iff_fails (needed : seam ≠ .events) {e : ProviderError} :
    Backends.required seam (r.resolveAt seam) (c.settingsAt seam) b = (.error e, b') ↔
      r.Fails c seam b e b' := by
  rw [Backends.required_eq_error_iff]
  constructor
  · rintro (⟨absent, rfl, rfl⟩ | ⟨settings, chosen, failed⟩)
    · exact .unconfigured needed absent
    · exact .ofResolveAt chosen failed
  · intro fails
    cases fails with
    | unconfigured _ absent => exact .inl ⟨absent, rfl, rfl⟩
    | unregistered chosen missing => exact .inr ⟨_, chosen, resolveAt_of_not_found missing b⟩
    | refused chosen registered answer =>
        exact .inr ⟨_, chosen, (resolveAt_of_found registered b).trans answer⟩

theorem optional_eq_ok_iff_serves {client : Option (Seam.events.Client β)} :
    Backends.optional (r.resolveAt .events) (c.settingsAt .events) b = (.ok client, b') ↔
      r.Serves c .events b client b' := by
  rw [Backends.optional_eq_ok_iff]
  constructor
  · rintro (⟨absent, rfl, rfl⟩ | ⟨settings, client, chosen, made, rfl⟩)
    · exact .unneeded absent
    · exact .ofResolveAt chosen made
  · intro serves
    cases serves with
    | made chosen registered answer =>
        exact .inr ⟨_, _, chosen, (resolveAt_of_found registered b).trans answer, rfl⟩
    | unneeded absent => exact .inl ⟨absent, rfl, rfl⟩

theorem optional_eq_error_iff_fails {e : ProviderError} :
    Backends.optional (r.resolveAt .events) (c.settingsAt .events) b = (.error e, b') ↔
      r.Fails c .events b e b' := by
  rw [Backends.optional_eq_error_iff]
  constructor
  · rintro ⟨settings, chosen, failed⟩
    exact .ofResolveAt chosen failed
  · intro fails
    cases fails with
    | unconfigured needed _ => exact absurd rfl needed
    | unregistered chosen missing => exact ⟨_, chosen, resolveAt_of_not_found missing b⟩
    | refused chosen registered answer =>
        exact ⟨_, chosen, (resolveAt_of_found registered b).trans answer⟩

/-! ## All seams -/

theorem Serves.exists_client {client? : Option (seam.Client β)}
    (serves : r.Serves c seam b client? b') (needed : seam ≠ .events) :
    ∃ client, r.Serves c seam b (some client) b' := by
  cases serves with
  | made chosen registered answer => exact ⟨_, .made chosen registered answer⟩
  | unneeded => exact absurd rfl needed

theorem Clears.of_isPrefix {first seams : List Seam} (clears : r.Clears c seams b b')
    (h : first <+: seams) : ∃ b₁, r.Clears c first b b₁ := by
  obtain ⟨second, rfl⟩ := h
  induction first generalizing b with
  | nil => exact ⟨b, rfl⟩
  | cons seam rest ih =>
      obtain ⟨client, b₁, serves, clears⟩ := clears
      obtain ⟨b₂, clears'⟩ := ih clears
      exact ⟨b₂, client, b₁, serves, clears'⟩

theorem resolve_eq_ok_iff_serves {backends : Backends β} :
    Backends.resolve r c b = (.ok backends, b') ↔ ∃ b₁ b₂ b₃,
      r.Serves c .storage b (some backends.storage) b₁ ∧
      r.Serves c .metrics b₁ (some backends.metrics) b₂ ∧
      r.Serves c .scaling b₂ (some backends.scaling) b₃ ∧
      r.Serves c .events b₃ backends.events b' := by
  rw [Backends.resolve_eq_ok_iff]
  exact exists₃_congr fun _ _ _ => and_congr required_eq_ok_iff_serves
    (and_congr required_eq_ok_iff_serves
      (and_congr required_eq_ok_iff_serves optional_eq_ok_iff_serves))

theorem clears_of_resolve_eq_ok {backends : Backends β}
    (h : Backends.resolve r c b = (.ok backends, b')) : r.Clears c Seam.all b b' := by
  obtain ⟨b₁, b₂, b₃, storage, metrics, scaling, events⟩ := resolve_eq_ok_iff_serves.mp h
  exact ⟨_, b₁, storage, _, b₂, metrics, _, b₃, scaling, _, b', events, rfl⟩

/-- The making of backends fails where a seam cannot be served after all earlier ones were. -/
theorem resolve_eq_error_iff_fails {e : ProviderError} :
    Backends.resolve r c b = (.error e, b') ↔
      ∃ seam b₁, r.Clears c seam.earlier b b₁ ∧ r.Fails c seam b₁ e b' := by
  rw [Backends.resolve_eq_error_iff]
  constructor
  · rintro (failed | ⟨storage, b₁, hstorage, failed | ⟨metrics, b₂, hmetrics,
      failed | ⟨scaling, b₃, hscaling, failed⟩⟩⟩)
    · exact ⟨.storage, b, rfl, (required_eq_error_iff_fails (by decide)).mp failed⟩
    · exact ⟨.metrics, b₁, ⟨some storage, b₁, required_eq_ok_iff_serves.mp hstorage, rfl⟩,
        (required_eq_error_iff_fails (by decide)).mp failed⟩
    · exact ⟨.scaling, b₂, ⟨some storage, b₁, required_eq_ok_iff_serves.mp hstorage,
        some metrics, b₂, required_eq_ok_iff_serves.mp hmetrics, rfl⟩,
        (required_eq_error_iff_fails (by decide)).mp failed⟩
    · exact ⟨.events, b₃, ⟨some storage, b₁, required_eq_ok_iff_serves.mp hstorage,
        some metrics, b₂, required_eq_ok_iff_serves.mp hmetrics,
        some scaling, b₃, required_eq_ok_iff_serves.mp hscaling, rfl⟩,
        optional_eq_error_iff_fails.mp failed⟩
  · rintro ⟨seam, b₁, clears, fails⟩
    cases seam with
    | storage =>
        cases clears
        exact .inl ((required_eq_error_iff_fails (by decide)).mpr fails)
    | metrics =>
        obtain ⟨_, _, storage, rfl⟩ := clears
        obtain ⟨_, storage⟩ := storage.exists_client (by decide)
        exact .inr ⟨_, _, required_eq_ok_iff_serves.mpr storage,
          .inl ((required_eq_error_iff_fails (by decide)).mpr fails)⟩
    | scaling =>
        obtain ⟨_, _, storage, _, _, metrics, rfl⟩ := clears
        obtain ⟨_, storage⟩ := storage.exists_client (by decide)
        obtain ⟨_, metrics⟩ := metrics.exists_client (by decide)
        exact .inr ⟨_, _, required_eq_ok_iff_serves.mpr storage,
          .inr ⟨_, _, required_eq_ok_iff_serves.mpr metrics,
            .inl ((required_eq_error_iff_fails (by decide)).mpr fails)⟩⟩
    | events =>
        obtain ⟨_, _, storage, _, _, metrics, _, _, scaling, rfl⟩ := clears
        obtain ⟨_, storage⟩ := storage.exists_client (by decide)
        obtain ⟨_, metrics⟩ := metrics.exists_client (by decide)
        obtain ⟨_, scaling⟩ := scaling.exists_client (by decide)
        exact .inr ⟨_, _, required_eq_ok_iff_serves.mpr storage,
          .inr ⟨_, _, required_eq_ok_iff_serves.mpr metrics,
            .inr ⟨_, _, required_eq_ok_iff_serves.mpr scaling,
              optional_eq_error_iff_fails.mpr fails⟩⟩⟩

/-! ## The calls -/

theorem call?_of_found {settings : Settings} {factory : Factory β seam.Client}
    (chosen : c.settingsAt seam = some settings)
    (registered : (r.factories seam).find? settings.typeId = some factory) :
    r.call? c seam = some ⟨seam, settings.typeId, settings⟩ := by
  rw [call?, chosen, Option.bind_some, registered, Option.map_some]

theorem call?_of_not_found {settings : Settings} (chosen : c.settingsAt seam = some settings)
    (missing : (r.factories seam).find? settings.typeId = none) : r.call? c seam = none := by
  rw [call?, chosen, Option.bind_some, missing, Option.map_none]

theorem call?_of_absent (absent : c.settingsAt seam = none) : r.call? c seam = none := by
  rw [call?, absent, Option.bind_none]

theorem seam_of_call? {call : FactoryCall} (h : r.call? c seam = some call) : call.seam = seam := by
  obtain ⟨settings, -, hcall⟩ := Option.bind_eq_some_iff.mp h
  obtain ⟨factory, -, rfl⟩ := Option.map_eq_some_iff.mp hcall
  rfl

/-- At no seam there is more than one call. -/
theorem map_seam_calls_sublist (seams : List Seam) :
    ((seams.filterMap (r.call? c)).map FactoryCall.seam).Sublist seams := by
  induction seams with
  | nil => exact .slnil
  | cons seam rest ih =>
      cases hcall : r.call? c seam with
      | none =>
          rw [List.filterMap_cons_none hcall]
          exact ih.cons seam
      | some call =>
          rw [List.filterMap_cons_some hcall, List.map_cons, seam_of_call? hcall]
          exact ih.cons_cons seam

variable (calls : List FactoryCall)

/-- With the notes, a seam is served as without, and the call at it is noted. -/
theorem Serves.noting {client? : Option (seam.Client β)} (serves : r.Serves c seam b client? b') :
    r.noting.Serves c seam (b, calls) (client?.map (seam.clientWithin .besideNotes))
      (b', calls ++ (r.call? c seam).toList) := by
  cases serves with
  | made chosen registered answer =>
      rw [call?_of_found chosen registered]
      refine .ofResolveAt chosen ?_
      rw [resolveAt_noting_of_found registered, answer]
      rfl
  | unneeded absent =>
      have hcall : r.call? c .events = none := call?_of_absent absent
      rw [hcall, Option.toList_none, List.append_nil]
      exact .unneeded absent

theorem Fails.noting {e : ProviderError} (fails : r.Fails c seam b e b') :
    r.noting.Fails c seam (b, calls) e (b', calls ++ (r.call? c seam).toList) := by
  cases fails with
  | unconfigured needed absent =>
      rw [call?_of_absent absent, Option.toList_none, List.append_nil]
      exact .unconfigured needed absent
  | unregistered chosen missing =>
      rw [call?_of_not_found chosen missing, Option.toList_none, List.append_nil]
      exact .ofResolveAt chosen (resolveAt_noting_of_not_found missing b calls)
  | refused chosen registered answer =>
      rw [call?_of_found chosen registered]
      refine .ofResolveAt chosen ?_
      rw [resolveAt_noting_of_found registered, answer]
      rfl

theorem Clears.noting {seams : List Seam} (clears : r.Clears c seams b b') :
    r.noting.Clears c seams (b, calls) (b', calls ++ seams.filterMap (r.call? c)) := by
  induction seams generalizing b calls with
  | nil =>
      cases clears
      rw [List.filterMap_nil, List.append_nil]
      rfl
  | cons seam rest ih =>
      obtain ⟨client, b₁, serves, clears⟩ := clears
      rw [List.filterMap_eq_flatMap_toList, List.flatMap_cons, ← List.filterMap_eq_flatMap_toList,
        ← List.append_assoc]
      exact ⟨_, _, serves.noting calls, ih _ clears⟩

end Registry

namespace Backends

open Registry

/-- Backends in a world with notes, in which they work on the world beside the notes. -/
def withNotes (b : Backends β) : Backends (β × List FactoryCall) :=
  ⟨Seam.clientWithin .besideNotes .storage b.storage,
    Seam.clientWithin .besideNotes .metrics b.metrics,
    Seam.clientWithin .besideNotes .scaling b.scaling,
    b.events.map (Seam.clientWithin .besideNotes .events)⟩

variable {r : Registry β} {c : Config} {b b' : β}

theorem resolve_noting_of_ok {backends : Backends β} (h : resolve r c b = (.ok backends, b')) :
    resolve r.noting c (b, []) = (.ok backends.withNotes, b', Seam.all.filterMap (r.call? c)) := by
  obtain ⟨b₁, b₂, b₃, storage, metrics, scaling, events⟩ := resolve_eq_ok_iff_serves.mp h
  have hcalls : Seam.all.filterMap (r.call? c) =
      [] ++ (r.call? c .storage).toList ++ (r.call? c .metrics).toList ++
        (r.call? c .scaling).toList ++ (r.call? c .events).toList := by
    simp [List.filterMap_eq_flatMap_toList, Seam.all]
  rw [resolve_eq_ok_iff_serves, hcalls]
  exact ⟨_, _, _, storage.noting _, metrics.noting _, scaling.noting _, events.noting _⟩

theorem resolve_noting_of_error {seam : Seam} {b₁ : β} {e : ProviderError}
    (clears : r.Clears c seam.earlier b b₁) (fails : r.Fails c seam b₁ e b') :
    resolve r.noting c (b, []) =
      (.error e, b', (seam.earlier ++ [seam]).filterMap (r.call? c)) := by
  have hcalls : (seam.earlier ++ [seam]).filterMap (r.call? c) =
      [] ++ seam.earlier.filterMap (r.call? c) ++ (r.call? c seam).toList := by
    simp [List.filterMap_eq_flatMap_toList]
  rw [resolve_eq_error_iff_fails, hcalls]
  exact ⟨seam, _, clears.noting [], fails.noting _⟩

/-- Noting the calls changes nothing else. -/
theorem resolve_noting (r : Registry β) (c : Config) (b : β) :
    let noted := resolve r.noting c (b, [])
    noted.1 = withNotes <$> (resolve r c b).1 ∧ noted.2.1 = (resolve r c b).2 := by
  rcases hresolved : resolve r c b with ⟨e | backends, b'⟩
  · obtain ⟨seam, b₁, clears, fails⟩ := resolve_eq_error_iff_fails.mp hresolved
    rw [resolve_noting_of_error clears fails]
    exact ⟨rfl, rfl⟩
  · rw [resolve_noting_of_ok hresolved]
    exact ⟨rfl, rfl⟩

/-- The calls are those at the seams of a list that begins the list of all, and when it is the turn
of one of them, the earlier ones were served. -/
theorem exists_calls (r : Registry β) (c : Config) (b : β) :
    ∃ seams : List Seam, seams <+: Seam.all ∧
      (resolve r.noting c (b, [])).2.2 = seams.filterMap (r.call? c) ∧
      ∀ s ∈ seams, ∃ b₁, r.Clears c s.earlier b b₁ := by
  rcases hresolved : resolve r c b with ⟨e | backends, b'⟩
  · obtain ⟨seam, b₁, clears, fails⟩ := resolve_eq_error_iff_fails.mp hresolved
    refine ⟨seam.earlier ++ [seam], seam.earlier_isPrefix_all, ?_, fun s hs => ?_⟩
    · rw [resolve_noting_of_error clears fails]
    · exact clears.of_isPrefix (Seam.earlier_isPrefix hs)
  · refine ⟨Seam.all, List.prefix_rfl, ?_, fun s _ => ?_⟩
    · rw [resolve_noting_of_ok hresolved]
    · exact (clears_of_resolve_eq_ok hresolved).of_isPrefix
        ((List.prefix_append s.earlier [s]).trans s.earlier_isPrefix_all)

/-- **Backends are made in the order of the seams, up to the first failure.**  Whatever the
factories of a registry do to the world, and whatever a configuration chooses:

The backends are made exactly if each of storage, metrics and scaling is chosen, registered and
made, in this order, each in the world that the one before has left, and then events are, unless
they are not chosen.  They fail exactly if a seam fails after all earlier ones were served, and then
with its error: that it is not chosen, that it is not registered, or the error of its factory.

If the factories note that they are called, nothing else changes.  All of the factories that are
chosen are called when the backends are made, and those of the seams up to the first that fails
otherwise; no seam has more than one call, the calls are in the order of the seams, and a factory is
called only when all earlier seams were served.

For a valid configuration no seam fails for not being chosen; that it were not could only be the
answer of a factory. -/
theorem resolve_in_order (r : Registry β) (c : Config) (b : β) :
    let resolved := resolve r c b
    let noted := resolve r.noting c (b, [])
    let calls := noted.2.2
    (∀ backends b', resolved = (.ok backends, b') ↔ ∃ b₁ b₂ b₃,
      r.Serves c .storage b (some backends.storage) b₁ ∧
      r.Serves c .metrics b₁ (some backends.metrics) b₂ ∧
      r.Serves c .scaling b₂ (some backends.scaling) b₃ ∧
      r.Serves c .events b₃ backends.events b') ∧
    (∀ e b', resolved = (.error e, b') ↔
      ∃ seam b₁, r.Clears c seam.earlier b b₁ ∧ r.Fails c seam b₁ e b') ∧
    (noted.1 = withNotes <$> resolved.1 ∧ noted.2.1 = resolved.2) ∧
    (∀ backends, resolved.1 = .ok backends → calls = Seam.all.filterMap (r.call? c)) ∧
    (∀ seam b₁ e b', r.Clears c seam.earlier b b₁ → r.Fails c seam b₁ e b' →
      calls = (seam.earlier ++ [seam]).filterMap (r.call? c)) ∧
    (calls.map FactoryCall.seam).Sublist Seam.all ∧
    (∀ call ∈ calls, ∃ b₁, r.Clears c call.seam.earlier b b₁) ∧
    (c.validate = .ok () →
      (∀ seam, seam ≠ .events → ∃ settings, c.settingsAt seam = some settings) ∧
      ∀ seam, resolved.1 = .error (.unconfigured seam) →
        ∃ s settings factory b₁ b', c.settingsAt s = some settings ∧
          (r.factories s).find? settings.typeId = some factory ∧
          factory settings b₁ = (.error (.unconfigured seam), b')) := by
  intro resolved noted calls
  obtain ⟨seams, hbegins, (hcalls : calls = _), hclears⟩ := exists_calls r c b
  refine ⟨fun _ _ => resolve_eq_ok_iff_serves, fun _ _ => resolve_eq_error_iff_fails,
    resolve_noting r c b, fun backends h => ?_, fun seam b₁ e b' clears fails => ?_, ?_,
    fun call hcall => ?_, fun valid => ⟨fun seam needed => ?_, fun seam h => ?_⟩⟩
  · have hresolved : resolve r c b = (.ok backends, resolved.2) := Prod.ext h rfl
    exact congrArg (·.2.2) (resolve_noting_of_ok hresolved)
  · exact congrArg (·.2.2) (resolve_noting_of_error clears fails)
  · rw [hcalls]
    exact (map_seam_calls_sublist seams).trans hbegins.sublist
  · rw [hcalls, List.mem_filterMap] at hcall
    obtain ⟨s, hs, hcall⟩ := hcall
    rw [seam_of_call? hcall]
    exact hclears s hs
  · exact Config.exists_settingsAt_of_validate valid needed
  · have hresolved : resolve r c b = (.error (.unconfigured seam), resolved.2) := Prod.ext h rfl
    obtain ⟨s, b₁, -, fails⟩ := resolve_eq_error_iff_fails.mp hresolved
    cases fails with
    | unconfigured needed absent =>
        obtain ⟨settings, chosen⟩ := Config.exists_settingsAt_of_validate valid needed
        exact absurd (absent.symm.trans chosen) (Option.some_ne_none settings).symm
    | refused chosen registered answer => exact ⟨s, _, _, b₁, _, chosen, registered, answer⟩

/-- Where nothing is registered for metrics, a factory for scaling is not called. -/
example :
    let storage : Factory Unit StorageClient := fun _ s =>
      (.ok ⟨fun s => (.ok [], s), fun _ s => s, none⟩, s)
    let scaling : Factory Unit ScalingClient := fun _ s =>
      (.error (.backend (.ofText "unreachable")), s)
    let r : Registry Unit :=
      ⟨OrderedMap.empty.insert "a" storage, .empty, OrderedMap.empty.insert "a" scaling, .empty⟩
    let a : Option Settings := some ⟨"a", .null⟩
    let c : Config := { storage := a, metrics := a, scaling := a, events := none }
    let noted := resolve r.noting c ((), [])
    noted.1 = .error (.notRegistered .metrics "a") ∧
      noted.2.2.map FactoryCall.seam = [.storage] := ⟨rfl, rfl⟩

end Backends

end Autoscaling

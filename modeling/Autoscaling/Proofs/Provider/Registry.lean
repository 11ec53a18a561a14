import Autoscaling.Proofs.Provider.Seams
import Mathlib.Data.List.Nodup
import Mathlib.Data.List.Perm.Basic

/-!
# Building a registry and making clients with it

A table takes the registrations of its seam one after the other, up to one whose type id is taken.
So it is known from the registrations alone whether a registry can be built, what is reported
otherwise (`Registry.build_eq_error_iff`), and what is in its tables (`Registry.build_eq_ok_iff`).

`Registry.resolves_as_registered` says what this means for those who use the registry: which factory
is called for which settings, and that the order of the registrations does not matter.
-/

namespace Autoscaling

/-- The first type id of a list that has occurred before. -/
def IsFirstRepeated (typeId : String) (typeIds : List String) : Prop :=
  ∃ before after, typeIds = before ++ typeId :: after ∧ typeId ∈ before ∧ before.Nodup

theorem IsFirstRepeated.not_nodup {typeId : String} {typeIds : List String}
    (h : IsFirstRepeated typeId typeIds) : ¬ typeIds.Nodup := by
  obtain ⟨before, after, rfl, hmem, -⟩ := h
  exact fun hnodup => (List.nodup_append.mp hnodup).2.2 _ hmem _ List.mem_cons_self rfl

theorem IsFirstRepeated.unique {id id' : String} {typeIds : List String}
    (h : IsFirstRepeated id typeIds) (h' : IsFirstRepeated id' typeIds) : id = id' := by
  obtain ⟨before, after, heq, hmem, hnodup⟩ := h
  obtain ⟨before', after', heq', hmem', hnodup'⟩ := h'
  -- neither of them stands before the other, since nothing repeats there
  rcases List.append_eq_append_iff.mp (heq.symm.trans heq') with ⟨as, rfl, hrest⟩ | ⟨as, rfl, hrest⟩
  · cases as with
    | nil => exact (List.cons.inj hrest).1
    | cons a as =>
        obtain ⟨rfl, -⟩ := List.cons.inj hrest
        have hrepeated : IsFirstRepeated id (before ++ id :: as) := ⟨before, as, rfl, hmem, hnodup⟩
        exact absurd hnodup' hrepeated.not_nodup
  · cases as with
    | nil => exact (List.cons.inj hrest).1.symm
    | cons a as =>
        obtain ⟨rfl, -⟩ := List.cons.inj hrest
        have hrepeated : IsFirstRepeated id' (before' ++ id' :: as) :=
          ⟨before', as, rfl, hmem', hnodup'⟩
        exact absurd hnodup hrepeated.not_nodup

namespace Registry

open Registration (claimed filed)

/-! ## One table -/

section Index

variable {α : Type} (seam : Seam)

/-- Entries are filed after some with different type ids: all of them, unless a type id repeats. -/
theorem index_ofList (earlier entries : List (String × α))
    (distinct : (earlier.map Prod.fst).Nodup) :
    let typeIds := (earlier ++ entries).map Prod.fst
    typeIds.Nodup ∧
        index seam entries (.ofList earlier) = .ok (.ofList (earlier ++ entries)) ∨
      ∃ typeId, IsFirstRepeated typeId typeIds ∧
        index seam entries (.ofList earlier) = .error (.registeredTwice seam typeId) := by
  induction entries generalizing earlier with
  | nil =>
      left
      rw [List.append_nil]
      exact ⟨distinct, rfl⟩
  | cons entry rest ih =>
      obtain ⟨typeId, x⟩ := entry
      rw [index]
      by_cases hmem : typeId ∈ earlier.map Prod.fst
      · right
        refine ⟨typeId, ⟨earlier.map Prod.fst, rest.map Prod.fst, ?_, hmem, distinct⟩, ?_⟩
        · rw [List.map_append, List.map_cons]
        · rw [if_pos (OrderedMap.contains_ofList_iff.mpr hmem)]
      · have distinct' : ((earlier ++ [(typeId, x)]).map Prod.fst).Nodup := by
          rw [List.map_append, List.map_singleton]
          exact List.concat_eq_append ▸ distinct.concat hmem
        have hrest := ih _ distinct'
        rw [List.append_assoc, List.singleton_append] at hrest
        have hfiled : OrderedMap.ofList (earlier ++ [(typeId, x)]) =
            (OrderedMap.ofList earlier).insert typeId x := List.foldl_concat ..
        rwa [if_neg (mt OrderedMap.contains_ofList_iff.mp hmem), ← hfiled]

theorem index_cases (entries : List (String × α)) :
    (entries.map Prod.fst).Nodup ∧ index seam entries .empty = .ok (.ofList entries) ∨
      ∃ typeId, IsFirstRepeated typeId (entries.map Prod.fst) ∧
        index seam entries .empty = .error (.registeredTwice seam typeId) :=
  index_ofList seam [] entries List.nodup_nil

theorem index_eq_ok_iff {entries : List (String × α)} {table : OrderedMap String α} :
    index seam entries .empty = .ok table ↔
      (entries.map Prod.fst).Nodup ∧ .ofList entries = table := by
  rcases index_cases seam entries with ⟨distinct, hindex⟩ | ⟨typeId, hrepeated, hindex⟩
  · simp [hindex, distinct]
  · simp [hindex, hrepeated.not_nodup]

theorem index_eq_error_iff {entries : List (String × α)} {e : ProviderError} :
    index seam entries .empty = .error e ↔
      ∃ typeId, IsFirstRepeated typeId (entries.map Prod.fst) ∧
        .registeredTwice seam typeId = e := by
  rcases index_cases seam entries with ⟨distinct, hindex⟩ | ⟨typeId, hrepeated, hindex⟩
  · rw [hindex]
    exact ⟨nofun, fun ⟨_, hrepeated, _⟩ => absurd distinct hrepeated.not_nodup⟩
  · rw [hindex, Except.error.injEq]
    constructor
    · rintro rfl
      exact ⟨typeId, hrepeated, rfl⟩
    · rintro ⟨typeId', hrepeated', rfl⟩
      rw [hrepeated.unique hrepeated']

end Index

/-! ## All tables -/

variable {β : Type} {registrations : List (Registration β)}

/-- The tables are made one after the other, up to one that cannot be made. -/
theorem build_cases (registrations : List (Registration β)) :
    (∃ r, build registrations = .ok r ∧
      ∀ seam, index seam (filed seam registrations) .empty = .ok (r.factories seam)) ∨
    ∃ seam e, build registrations = .error e ∧
      (∀ s ∈ seam.earlier, ∃ table, index s (filed s registrations) .empty = .ok table) ∧
      index seam (filed seam registrations) .empty = .error e := by
  have hbuild : build registrations = (do
      let storage ← index .storage (filed .storage registrations) .empty
      let metrics ← index .metrics (filed .metrics registrations) .empty
      let scaling ← index .scaling (filed .scaling registrations) .empty
      let events ← index .events (filed .events registrations) .empty
      .ok ⟨storage, metrics, scaling, events⟩) := rfl
  cases hstorage : index .storage (filed .storage registrations) .empty with
  | error e =>
      rw [hstorage] at hbuild
      exact .inr ⟨.storage, e, hbuild, by simp [Seam.earlier], hstorage⟩
  | ok storage =>
    cases hmetrics : index .metrics (filed .metrics registrations) .empty with
    | error e =>
        rw [hstorage, hmetrics] at hbuild
        exact .inr ⟨.metrics, e, hbuild, by simp [Seam.earlier, hstorage], hmetrics⟩
    | ok metrics =>
      cases hscaling : index .scaling (filed .scaling registrations) .empty with
      | error e =>
          rw [hstorage, hmetrics, hscaling] at hbuild
          exact .inr ⟨.scaling, e, hbuild, by simp [Seam.earlier, hstorage, hmetrics], hscaling⟩
      | ok scaling =>
        cases hevents : index .events (filed .events registrations) .empty with
        | error e =>
            rw [hstorage, hmetrics, hscaling, hevents] at hbuild
            exact .inr ⟨.events, e, hbuild,
              by simp [Seam.earlier, hstorage, hmetrics, hscaling], hevents⟩
        | ok events =>
            rw [hstorage, hmetrics, hscaling, hevents] at hbuild
            refine .inl ⟨_, hbuild, fun seam => ?_⟩
            cases seam <;> assumption

theorem index_filed_eq_ok_iff {seam : Seam} {table : OrderedMap String (Factory β seam.Client)} :
    index seam (filed seam registrations) .empty = .ok table ↔
      (claimed seam registrations).Nodup ∧ .ofList (filed seam registrations) = table := by
  rw [index_eq_ok_iff, Registration.map_fst_filed]

/-- A registry can be built if no type id is claimed twice at a seam, and its tables hold what is
registered. -/
theorem build_eq_ok_iff {r : Registry β} :
    build registrations = .ok r ↔ ∀ seam, (claimed seam registrations).Nodup ∧
      .ofList (filed seam registrations) = r.factories seam := by
  rcases build_cases registrations with ⟨r', hbuild, hindex⟩ | ⟨seam, e, hbuild, -, hindex⟩
  · rw [hbuild, Except.ok.injEq]
    constructor
    · rintro rfl seam
      exact index_filed_eq_ok_iff.mp (hindex seam)
    · exact fun h => ext_factories fun seam =>
        (index_filed_eq_ok_iff.mp (hindex seam)).2.symm.trans (h seam).2
  · rw [hbuild]
    exact ⟨nofun, fun h => nomatch hindex.symm.trans (index_filed_eq_ok_iff.mpr (h seam))⟩

/-- What is reported is the first repeated type id of the first seam that has one. -/
theorem build_eq_error_iff {e : ProviderError} :
    build registrations = .error e ↔ ∃ seam typeId,
      (∀ s ∈ seam.earlier, (claimed s registrations).Nodup) ∧
      IsFirstRepeated typeId (claimed seam registrations) ∧ .registeredTwice seam typeId = e := by
  have hrepeated (seam : Seam) (e : ProviderError) :
      index seam (filed seam registrations) .empty = .error e ↔ ∃ typeId,
        IsFirstRepeated typeId (claimed seam registrations) ∧ .registeredTwice seam typeId = e := by
    rw [index_eq_error_iff, Registration.map_fst_filed]
  rcases build_cases registrations with ⟨r, hbuild, hindex⟩ | ⟨seam, e', hbuild, hearlier, hindex⟩
  · rw [hbuild]
    refine ⟨nofun, fun ⟨seam, typeId, _, hfirst, _⟩ => ?_⟩
    exact absurd (index_filed_eq_ok_iff.mp (hindex seam)).1 hfirst.not_nodup
  · have hdistinct (s : Seam) (hs : s ∈ seam.earlier) : (claimed s registrations).Nodup := by
      obtain ⟨table, htable⟩ := hearlier s hs
      exact (index_filed_eq_ok_iff.mp htable).1
    obtain ⟨typeId, hfirst, rfl⟩ := (hrepeated seam e').mp hindex
    rw [hbuild, Except.error.injEq]
    constructor
    · rintro rfl
      exact ⟨seam, typeId, hdistinct, hfirst, rfl⟩
    · rintro ⟨seam', typeId', hdistinct', hfirst', rfl⟩
      rcases seam.eq_or_earlier seam' with rfl | hbefore | hbefore
      · rw [hfirst.unique hfirst']
      · exact absurd (hdistinct' seam hbefore) hfirst.not_nodup
      · exact absurd (hdistinct seam' hbefore) hfirst'.not_nodup

theorem find?_factories_eq_some_iff {r : Registry β} (built : build registrations = .ok r)
    {seam : Seam} {typeId : String} {factory : Factory β seam.Client} :
    (r.factories seam).find? typeId = some factory ↔
      seam.registration typeId factory ∈ registrations := by
  obtain ⟨hdistinct, htable⟩ := build_eq_ok_iff.mp built seam
  rw [← Registration.map_fst_filed] at hdistinct
  rw [← htable, OrderedMap.find?_ofList_eq_some_iff hdistinct, Registration.mem_filed_iff]

theorem contains_factories_iff {r : Registry β} (built : build registrations = .ok r)
    {seam : Seam} {typeId : String} :
    (r.factories seam).contains typeId = true ↔ typeId ∈ claimed seam registrations := by
  rw [← (build_eq_ok_iff.mp built seam).2, OrderedMap.contains_ofList_iff,
    Registration.map_fst_filed]

theorem find?_factories_eq_none_iff {r : Registry β} (built : build registrations = .ok r)
    {seam : Seam} {typeId : String} :
    (r.factories seam).find? typeId = none ↔ typeId ∉ claimed seam registrations := by
  rw [← contains_factories_iff built, OrderedMap.contains, Option.not_isSome_iff_eq_none]

/-- Registrations that note the calls make the registry that does. -/
theorem build_noting {r : Registry β} (built : build registrations = .ok r) :
    build (registrations.map Registration.noting) = .ok r.noting := by
  rw [build_eq_ok_iff]
  intro seam
  have hdistinct := (build_eq_ok_iff.mp built seam).1
  refine ⟨Registration.claimed_map_noting registrations ▸ hdistinct, ?_⟩
  refine OrderedMap.eq_of_find?_eq fun typeId => Option.ext fun noted => ?_
  have hdistinct' : ((filed seam (registrations.map Registration.noting)).map Prod.fst).Nodup := by
    rw [Registration.map_fst_filed, Registration.claimed_map_noting]
    exact hdistinct
  rw [OrderedMap.find?_ofList_eq_some_iff hdistinct', Registration.filed_map_noting,
    find?_factories_noting, Option.map_eq_some_iff, List.mem_map]
  constructor
  · rintro ⟨⟨typeId, factory⟩, hmem, heq⟩
    cases heq
    have hfound := (find?_factories_eq_some_iff built).mpr (Registration.mem_filed_iff.mp hmem)
    exact ⟨factory, hfound, rfl⟩
  · rintro ⟨factory, hfound, rfl⟩
    have hmem := Registration.mem_filed_iff.mpr ((find?_factories_eq_some_iff built).mp hfound)
    exact ⟨(typeId, factory), hmem, rfl⟩

/-- The order of the registrations does not matter to what is built. -/
theorem build_eq_ok_of_perm {registrations' : List (Registration β)}
    (perm : registrations.Perm registrations') {r : Registry β}
    (built : build registrations = .ok r) : build registrations' = .ok r := by
  rw [build_eq_ok_iff] at built ⊢
  intro seam
  obtain ⟨hdistinct, htable⟩ := built seam
  have hclaimed : (claimed seam registrations).Perm (claimed seam registrations') :=
    (perm.filter _).map _
  refine ⟨hclaimed.nodup_iff.mp hdistinct, ?_⟩
  rw [← Registration.map_fst_filed] at hdistinct
  rw [← htable]
  exact (OrderedMap.ofList_perm (perm.filterMap _) hdistinct).symm

/-- **A registry resolves as was registered.**  It can be built unless a type id is claimed twice at
a seam; then the first type id that is repeated at the first such seam is reported.

If it can be built, then at each seam the factory that is registered there under the type id of some
settings is called for them, once and with these settings, and its answer is the answer; no other
factory is called, in particular none of another seam.  Without such a factory none is called, and
the answer is that nothing is registered; with one it is not answered so without a call.  The type
ids of a seam are listed in strictly ascending order.

The registrations in another order make the same registry, or none either. -/
theorem resolves_as_registered (registrations : List (Registration β)) :
    ((∃ e, build registrations = .error e) ↔ ∃ seam, ¬ (claimed seam registrations).Nodup) ∧
    (∀ e, build registrations = .error e ↔ ∃ seam typeId,
      (∀ s ∈ seam.earlier, (claimed s registrations).Nodup) ∧
      IsFirstRepeated typeId (claimed seam registrations) ∧ .registeredTwice seam typeId = e) ∧
    (∀ r, build registrations = .ok r →
      build (registrations.map Registration.noting) = .ok r.noting ∧
      ∀ seam,
        (∀ (settings : Settings) factory,
          seam.registration settings.typeId factory ∈ registrations → ∀ b calls,
            r.resolveAt seam settings b = factory settings b ∧
            r.noting.resolveAt seam settings (b, calls) =
              (seam.clientWithin .besideNotes <$> (factory settings b).1, (factory settings b).2,
                calls ++ [⟨seam, settings.typeId, settings⟩])) ∧
        (∀ (settings : Settings) b calls,
          (settings.typeId ∉ claimed seam registrations →
            r.resolveAt seam settings b = (.error (.notRegistered seam settings.typeId), b)) ∧
          (r.noting.resolveAt seam settings (b, calls) =
              (.error (.notRegistered seam settings.typeId), b, calls) ↔
            settings.typeId ∉ claimed seam registrations)) ∧
        (r.typeIds seam).Pairwise (· < ·) ∧
        ∀ typeId, typeId ∈ r.typeIds seam ↔ typeId ∈ claimed seam registrations) ∧
    ∀ registrations', registrations.Perm registrations' →
      ∀ r, build registrations = .ok r ↔ build registrations' = .ok r := by
  refine ⟨?_, fun e => build_eq_error_iff, fun r built => ⟨build_noting built, fun seam =>
    ⟨fun settings factory hmem b calls => ?_, fun settings b calls => ?_, ?_, fun typeId => ?_⟩⟩,
    fun registrations' perm r => ⟨build_eq_ok_of_perm perm, build_eq_ok_of_perm perm.symm⟩⟩
  · cases hbuild : build registrations with
    | ok r => simpa using fun seam => (build_eq_ok_iff.mp hbuild seam).1
    | error e =>
        obtain ⟨seam, typeId, -, hfirst, -⟩ := build_eq_error_iff.mp hbuild
        exact ⟨fun _ => ⟨seam, hfirst.not_nodup⟩, fun _ => ⟨e, rfl⟩⟩
  · have found := (find?_factories_eq_some_iff built).mpr hmem
    exact ⟨resolveAt_of_found found b, resolveAt_noting_of_found found b calls⟩
  · have hmissing : (r.factories seam).find? settings.typeId = none ↔
        settings.typeId ∉ claimed seam registrations := find?_factories_eq_none_iff built
    refine ⟨fun hnot => resolveAt_of_not_found (hmissing.mpr hnot) b, fun hanswer => ?_,
      fun hnot => ?_⟩
    · -- with a factory, the call would have been noted
      rw [← hmissing]
      cases hfound : (r.factories seam).find? settings.typeId with
      | none => rfl
      | some factory =>
          rw [resolveAt_noting_of_found hfound] at hanswer
          simp at hanswer
    · exact resolveAt_noting_of_not_found (hmissing.mpr hnot) b calls
  · rw [typeIds_eq]
    exact (r.factories seam).keys_ascending.imp compareOfLessAndEq_eq_lt.mp
  · rw [typeIds_eq, OrderedMap.mem_keys_iff, contains_factories_iff built]

end Registry

end Autoscaling

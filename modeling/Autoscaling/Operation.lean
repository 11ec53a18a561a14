/-!
# Operations

An operation works on a state, and may fail.  It leaves a state behind in either case, so what was
done before a failure stays done.
-/

namespace Autoscaling

universe u v w

/-- An operation on a state `σ` that yields an `α` or fails with an `ε`. -/
abbrev Operation (σ : Type u) (ε : Type v) (α : Type w) := σ → Except ε α × σ

/-- A place for an `α` inside of a larger state. -/
structure Place (σ : Type u) (α : Type v) where
  get : σ → α
  put : α → σ → σ

/-- The place that is the whole state. -/
def Place.whole {α : Type u} : Place α α := ⟨id, fun x _ => x⟩

/-- A place inside of what is in another one. -/
def Place.within {σ : Type u} {α : Type v} {γ : Type w} (outer : Place σ α) (inner : Place α γ) :
    Place σ γ where
  get s := inner.get (outer.get s)
  put x s := outer.put (inner.put x (outer.get s)) s

/-- An operation on what is in a place. -/
def Place.operate {σ : Type u} {α : Type u} {ε : Type v} {β : Type w} (place : Place σ α)
    (operation : Operation α ε β) : Operation σ ε β := fun s =>
  let (outcome, x) := operation (place.get s)
  (outcome, place.put x s)

end Autoscaling

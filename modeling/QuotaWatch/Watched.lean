/-
# Watched values

A value that can be replaced, with subscribers who can tell whether it has been
replaced since they last looked. Replacing a value by an equal one counts.

Key definitions: `Watched`, `Watched.update`, `Watched.subscribe`, `Watched.changed`.
Key theorems: `Watched.changed_update`.
-/

namespace QuotaWatch

/-- A replaceable value with its subscribers. -/
structure Watched (α : Type) where
  value : α
  /-- How often the value has been replaced. -/
  version : Nat := 0
  /-- The version that each subscriber has seen. -/
  seen : List Nat := []
deriving Repr

namespace Watched

/-- Replace the value. -/
def update (w : Watched α) (value : α) : Watched α := { w with value, version := w.version + 1 }

/-- A new subscriber, who has seen the present value. -/
def subscribe (w : Watched α) : Watched α := { w with seen := w.seen ++ [w.version] }

/-- Whether each subscriber has missed a change; afterwards none has. -/
def changed (w : Watched α) : Watched α × List Bool :=
  ({ w with seen := w.seen.map fun _ => w.version }, w.seen.map (· != w.version))

/-- After a change everyone who had seen all before has missed one. -/
theorem changed_update (w : Watched α) (value : α) (h : ∀ v ∈ w.seen, v ≤ w.version) :
    (w.update value).changed.2 = w.seen.map fun _ => true := by
  simp only [changed, update, List.map_inj_left, bne_iff_ne, ne_eq]
  intro v hv
  have := h v hv
  omega

end Watched

end QuotaWatch

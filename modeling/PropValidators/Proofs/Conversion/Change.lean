import Mathlib.Logic.Relation
import PropValidators.Proofs.Conversion.Replacement
/-!
Changes to types at any number of places, at whatever depths, each in a context that stays as it is.
-/
namespace PropValidators

open Relation

namespace TypeExpr

/-- Two types that are the same but for what stands at one place. -/
inductive ChangedAt (change : TypeExpr → TypeExpr → Prop) : TypeExpr → TypeExpr → Prop
  | intro (context : TypeContext) {t u : TypeExpr} :
    change t u → ChangedAt change (context.fill t) (context.fill u)

/-- Two types that are the same but for what stands at any number of places. -/
def Changed (change : TypeExpr → TypeExpr → Prop) : TypeExpr → TypeExpr → Prop :=
  ReflTransGen (ChangedAt change)

/-- What no change at one place makes a difference to, changes at any number of places do not. -/
theorem Changed.eq_of_changedAt {α : Type} {change : TypeExpr → TypeExpr → Prop} {t u : TypeExpr}
    (h : Changed change t u) (view : TypeExpr → α)
    (hview : ∀ (context : TypeContext) (p q : TypeExpr), change p q →
      view (context.fill p) = view (context.fill q)) : view t = view u := by
  induction h with
  | refl => rfl
  | tail _ hstep ih =>
    obtain ⟨context, hchange⟩ := hstep
    exact ih.trans (hview context _ _ hchange)

theorem literal?_fill {t : TypeExpr} (h : t.literal? = none) (context : TypeContext) :
    (context.fill t).literal? = none := by
  cases context with
  | hole => exact h
  | _ => rfl

end TypeExpr

end PropValidators

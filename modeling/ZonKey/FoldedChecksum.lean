import Mathlib.Logic.Function.Basic
import Mathlib.Data.List.Basic

set_option autoImplicit false

namespace ZonKey.FoldedChecksum
open Function

variable {σ β : Type*} {step : σ → β → σ}

theorem iterate_fold_injective {f : σ → σ} (h : Injective f) (rounds : List β) :
    Injective fun s => rounds.foldl (fun s _ => f s) s := by
  induction rounds with
  | nil => exact injective_id
  | cons _ rest ih =>
    intro s t same
    exact h (ih same)

theorem foldl_injective (keeps : ∀ b, Injective (step · b)) (message : List β) :
    Injective fun s => message.foldl step s := by
  induction message with
  | nil => exact injective_id
  | cons b rest ih =>
    intro s t same
    exact keeps b (ih same)

theorem foldl_ne (keeps : ∀ b, Injective (step · b)) (tells : ∀ s, Injective (step s)) (s : σ)
    (before after : List β) {x y : β} (differ : x ≠ y) :
    (before ++ x :: after).foldl step s ≠ (before ++ y :: after).foldl step s := by
  intro same
  rw [List.foldl_append, List.foldl_append, List.foldl_cons, List.foldl_cons] at same
  exact differ (tells _ (foldl_injective keeps after same))

end ZonKey.FoldedChecksum

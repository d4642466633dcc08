import Mathlib.Data.List.Basic

/-! Labelled transition systems with a guard and an effect for each label, and their finite
runs. A run carries a condition that each of its steps meets at the state it starts from. -/

namespace Library

universe u v

structure System (σ : Type u) (α : Type v) where
  enabled : σ → α → Prop
  next : σ → α → σ

namespace System

variable {σ : Type u} {α : Type v} (S : System σ α)

/-- `Run S ok s labels t`: taking `labels` in order leads from `s` to `t`, each step enabled
and meeting `ok`. -/
inductive Run (ok : σ → α → Prop) : σ → List α → σ → Prop
  | nil (s : σ) : Run ok s [] s
  | cons {s t : σ} {a : α} {labels : List α} (allowed : S.enabled s a) (meets : ok s a)
      (rest : Run ok (S.next s a) labels t) : Run ok s (a :: labels) t

variable {S} {ok : σ → α → Prop} {s t : σ} {labels : List α}

theorem Run.append {u : σ} {more : List α} (first : S.Run ok s labels t)
    (second : S.Run ok t more u) : S.Run ok s (labels ++ more) u := by
  induction first with
  | nil => exact second
  | cons allowed meets _ ih => exact .cons allowed meets (ih second)

theorem Run.mono {ok' : σ → α → Prop} (run : S.Run ok s labels t) (weaker : ∀ s a, ok s a → ok' s a) :
    S.Run ok' s labels t := by
  induction run with
  | nil => exact .nil _
  | cons allowed meets _ ih => exact .cons allowed (weaker _ _ meets) ih

/-- The invariant rule: what every admitted step preserves holds at the end of a run if it
holds at its start. -/
theorem Run.invariant {holds : σ → Prop}
    (preserved : ∀ s a, holds s → S.enabled s a → ok s a → holds (S.next s a))
    (run : S.Run ok s labels t) (start : holds s) : holds t := by
  induction run with
  | nil => exact start
  | cons allowed meets _ ih => exact ih (preserved _ _ start allowed meets)

def after (S : System σ α) (s : σ) : List α → σ
  | [] => s
  | a :: labels => after S (S.next s a) labels

/-- Each of `labels` is enabled and meets `ok` when its turn comes. -/
def Admits (S : System σ α) (ok : σ → α → Prop) (s : σ) : List α → Prop
  | [] => True
  | a :: labels => (S.enabled s a ∧ ok s a) ∧ Admits S ok (S.next s a) labels

theorem Admits.run (admitted : S.Admits ok s labels) : S.Run ok s labels (S.after s labels) := by
  induction labels generalizing s with
  | nil => exact .nil _
  | cons a labels ih => exact .cons admitted.1.1 admitted.1.2 (ih admitted.2)

/-- What an admitted step keeps and shows, every step of an admitted run shows. -/
theorem Admits.imp {ok' : σ → α → Prop} {holds : σ → Prop} (admitted : S.Admits ok s labels)
    (preserved : ∀ s a, holds s → S.enabled s a → ok s a → holds (S.next s a))
    (shows : ∀ s a, holds s → S.enabled s a → ok s a → ok' s a) (start : holds s) :
    S.Admits ok' s labels := by
  induction labels generalizing s with
  | nil => trivial
  | cons a labels ih =>
    obtain ⟨⟨allowed, meets⟩, rest⟩ := admitted
    exact ⟨⟨allowed, shows s a start allowed meets⟩, ih rest (preserved s a start allowed meets)⟩

/-- Where an invariant of all the steps makes two conditions the same, they admit the same runs. -/
theorem admits_congr {ok' : σ → α → Prop} {holds : σ → Prop}
    (preserved : ∀ s a, holds s → S.enabled s a → holds (S.next s a))
    (same : ∀ s a, holds s → S.enabled s a → (ok s a ↔ ok' s a)) (start : holds s) :
    S.Admits ok s labels ↔ S.Admits ok' s labels := by
  constructor
  · intro admitted
    exact admitted.imp (fun s a kept allowed _ => preserved s a kept allowed)
      (fun s a kept allowed meets => (same s a kept allowed).mp meets) start
  · intro admitted
    exact admitted.imp (fun s a kept allowed _ => preserved s a kept allowed)
      (fun s a kept allowed meets => (same s a kept allowed).mpr meets) start

end System

end Library

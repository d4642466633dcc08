import Mathlib.Data.List.Basic

/-! Stateful operators on chunked streams. -/

namespace Library

universe u v w

structure Transducer (σ : Type u) (α : Type v) (β : Type w) where
  step : σ → List α → σ × List β
  finish : σ → List β

namespace Transducer

variable {σ : Type u} {α : Type v} {β : Type w} (T : Transducer σ α β)

/-- All that comes out for these chunks, the flush at the end included. -/
def run (s : σ) : List (List α) → List β
  | [] => T.finish s
  | chunk :: rest => (T.step s chunk).2 ++ run (T.step s chunk).1 rest

/-- However the input is cut into chunks, what comes out is `whole` of it. -/
def Computes (s : σ) (whole : List α → List β) : Prop :=
  ∀ chunks : List (List α), T.run s chunks = whole chunks.flatten

theorem Computes.map {τ : Type u} {U : Transducer τ α β} {s : σ} {whole : List α → List β}
    (computes : T.Computes s whole) (lift : σ → τ)
    (step : ∀ s chunk, U.step (lift s) chunk = (lift (T.step s chunk).1, (T.step s chunk).2))
    (finish : ∀ s, U.finish (lift s) = T.finish s) : U.Computes (lift s) whole := by
  have follows : ∀ chunks s, U.run (lift s) chunks = T.run s chunks := by
    intro chunks
    induction chunks with
    | nil => exact finish
    | cons chunk rest ih =>
      intro s
      rw [run, run, step, ih]
  intro chunks
  rw [follows]
  exact computes chunks

theorem computes_id {T : Transducer σ α α} {s : σ} (step : ∀ chunk, T.step s chunk = (s, chunk))
    (finish : T.finish s = []) : T.Computes s id := by
  intro chunks
  induction chunks with
  | nil => exact finish
  | cons chunk rest ih =>
    rw [run, step, ih]
    rfl

end Transducer

end Library

import NeuralTts.Library.Transition

/-! Forward simulation: what one system does, another does too, with none or several steps for each. -/

namespace Library

namespace System

universe u v w x

variable {σ : Type u} {α : Type v} {τ : Type w} {β : Type x} {A : System σ α} {B : System τ β}
  {okA : σ → α → Prop} {okB : τ → β → Prop} {rel : σ → τ → Prop}

def Simulates (A : System σ α) (B : System τ β) (okA : σ → α → Prop) (okB : τ → β → Prop)
    (rel : σ → τ → Prop) : Prop :=
  ∀ s a t, rel s t → A.enabled s a → okA s a → ∃ labels t', B.Run okB t labels t' ∧ rel (A.next s a) t'

theorem Simulates.run (simulates : Simulates A B okA okB rel) {s s' : σ} {t : τ} {labels : List α}
    (run : A.Run okA s labels s') (start : rel s t) :
    ∃ more t', B.Run okB t more t' ∧ rel s' t' := by
  induction run generalizing t with
  | nil s => exact ⟨[], t, .nil t, start⟩
  | cons allowed meets _ ih =>
    obtain ⟨first, middle, step, related⟩ := simulates _ _ _ start allowed meets
    obtain ⟨rest, t', later, reached⟩ := ih related
    exact ⟨first ++ rest, t', step.append later, reached⟩

theorem Run.one {t : τ} {b : β} (allowed : B.enabled t b) (meets : okB t b) : B.Run okB t [b] (B.next t b) :=
  .cons allowed meets (.nil _)

end System

end Library

import NeuralTts.Library.Transition

/-! A history variable: what the steps of a run have shown so far, kept beside the state. It
neither blocks a step nor changes one. -/

namespace Library

namespace System

universe u v w

variable {σ : Type u} {α : Type v} {ρ : Type w} (S : System σ α) (note : ρ → σ → α → ρ)

/-- `S` with a record to which each step adds, given the state that it starts from. -/
def recorded : System (σ × ρ) α where
  enabled s a := S.enabled s.1 a
  next s a := (S.next s.1 a, note s.2 s.1 a)

end System

end Library

import Mathlib.Data.List.Basic

/-! A buffer that holds what it is given until enough of it has come, and then lets everything
through. Nothing is asked of the weights' addition, which may round. -/

namespace Library

universe u v

structure Prebuffer (α : Type u) (M : Type v) where
  passthrough : Bool
  buf : List α
  bufS : M

namespace Prebuffer

variable {α : Type u} {M : Type v} [Add M] [LE M] [DecidableLE M] (target : M)

/-- One more value, of this weight: what is let through now. -/
def push (p : Prebuffer α M) (x : α) (weight : M) : Prebuffer α M × List α :=
  if p.passthrough then (p, [x])
  else if target ≤ p.bufS + weight then (⟨true, [], p.bufS + weight⟩, p.buf ++ [x])
  else (⟨false, p.buf ++ [x], p.bufS + weight⟩, [])

def pushAll : Prebuffer α M → List (α × M) → List (List α) × Prebuffer α M
  | p, [] => ([], p)
  | p, (x, weight) :: rest =>
    ((push target p x weight).2 :: (pushAll (push target p x weight).1 rest).1,
      (pushAll (push target p x weight).1 rest).2)

/-- Some of these values bring the weight to the target, added up one after another. -/
def Fills (start : M) (xs : List (α × M)) : Prop :=
  ∃ k, 0 < k ∧ k ≤ xs.length ∧ target ≤ ((xs.take k).map Prod.snd).foldl (· + ·) start

omit [DecidableLE M] in
theorem fills_cons (start : M) (x : α) (weight : M) (xs : List (α × M)) :
    Fills target start ((x, weight) :: xs) ↔
      target ≤ start + weight ∨ Fills target (start + weight) xs := by
  constructor
  · rintro ⟨k, positive, few, reached⟩
    obtain ⟨k, rfl⟩ : ∃ n, k = n + 1 := ⟨k - 1, by omega⟩
    cases k with
    | zero => exact .inl (by simpa using reached)
    | succ k =>
      exact .inr ⟨k + 1, by omega, by simpa using few, by simpa using reached⟩
  · rintro (reached | ⟨k, _, few, reached⟩)
    · exact ⟨1, by omega, by simp, by simpa using reached⟩
    · exact ⟨k + 1, by omega, by simpa using few, by simpa using reached⟩

theorem push_passing {p : Prebuffer α M} (passing : p.passthrough = true) (x : α) (weight : M) :
    push target p x weight = (p, [x]) := by
  rw [push, if_pos passing]

theorem push_conserves {p : Prebuffer α M} (held : p.passthrough = true → p.buf = []) (x : α)
    (weight : M) :
    (push target p x weight).2 ++ (push target p x weight).1.buf = p.buf ++ [x] ∧
      ((push target p x weight).1.passthrough = true → (push target p x weight).1.buf = []) := by
  unfold push
  split
  · rename_i passing
    simp [held passing]
  · split
    · simp
    · simp

theorem pushAll_conserves {p : Prebuffer α M} (held : p.passthrough = true → p.buf = [])
    (xs : List (α × M)) :
    (pushAll target p xs).1.flatten ++ (pushAll target p xs).2.buf = p.buf ++ xs.map Prod.fst := by
  induction xs generalizing p with
  | nil => simp [pushAll]
  | cons x xs ih =>
    obtain ⟨x, weight⟩ := x
    obtain ⟨kept, still⟩ := push_conserves target held x weight
    rw [pushAll, List.flatten_cons, List.append_assoc, ih still, ← List.append_assoc, kept]
    simp

theorem pushAll_open_iff (p : Prebuffer α M) (xs : List (α × M)) :
    (pushAll target p xs).2.passthrough = true ↔
      p.passthrough = true ∨ Fills target p.bufS xs := by
  induction xs generalizing p with
  | nil =>
    have never : ¬ Fills target p.bufS ([] : List (α × M)) := by
      rintro ⟨k, positive, few, -⟩
      simp only [List.length_nil] at few
      omega
    simp [pushAll, never]
  | cons x xs ih =>
    obtain ⟨x, weight⟩ := x
    rw [pushAll, ih, fills_cons]
    unfold push
    split
    · rename_i passing
      simp [passing]
    · rename_i holding
      split
      · rename_i reached
        simp [reached]
      · rename_i short
        simp [holding, short]

theorem pushAll_closed {p : Prebuffer α M} (held : p.passthrough = true → p.buf = [])
    {xs : List (α × M)} (holding : (pushAll target p xs).2.passthrough = false) :
    (pushAll target p xs).2.buf = p.buf ++ xs.map Prod.fst := by
  induction xs generalizing p with
  | nil => simp [pushAll]
  | cons x xs ih =>
    obtain ⟨x, weight⟩ := x
    rw [pushAll] at holding ⊢
    obtain ⟨kept, still⟩ := push_conserves target held x weight
    rw [ih still holding]
    have closed : (push target p x weight).1.passthrough = false := by
      rw [← Bool.not_eq_true, pushAll_open_iff, not_or] at holding
      exact Bool.not_eq_true _ ▸ holding.1
    have nothing : (push target p x weight).2 = [] := by
      revert closed
      unfold push
      split
      · rename_i passing
        simp [passing]
      · split
        · simp
        · simp
    rw [nothing, List.nil_append] at kept
    simp [kept]

theorem pushAll_open {p : Prebuffer α M} (held : p.passthrough = true → p.buf = [])
    {xs : List (α × M)} (passing : (pushAll target p xs).2.passthrough = true) :
    (pushAll target p xs).2.buf = [] := by
  induction xs generalizing p with
  | nil => exact held passing
  | cons x xs ih =>
    obtain ⟨x, weight⟩ := x
    exact ih (push_conserves target held x weight).2 passing

end Prebuffer

end Library

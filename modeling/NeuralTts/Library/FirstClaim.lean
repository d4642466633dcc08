import Mathlib.Data.List.Nodup

/-! First-come allocation of keys: an element is kept exactly when no earlier element has
already taken its key. -/

namespace Library

universe u v

variable {α : Type u} {κ : Type v} [DecidableEq κ] (key : α → κ)

def claim (kept : List α) (x : α) : List α :=
  if key x ∈ kept.map key then kept else kept ++ [x]

def claimAll (kept : List α) (xs : List α) : List α := xs.foldl (claim key) kept

@[simp] theorem claimAll_nil (kept : List α) : claimAll key kept [] = kept := rfl

@[simp] theorem claimAll_cons (kept : List α) (x : α) (xs : List α) :
    claimAll key kept (x :: xs) = claimAll key (claim key kept x) xs := rfl

theorem claimAll_append (kept xs ys : List α) :
    claimAll key kept (xs ++ ys) = claimAll key (claimAll key kept xs) ys :=
  List.foldl_append

theorem claim_of_taken {kept : List α} {x : α} (taken : key x ∈ kept.map key) :
    claim key kept x = kept := by
  simp only [claim, taken, ↓reduceIte]

theorem claim_of_fresh {kept : List α} {x : α} (fresh : key x ∉ kept.map key) :
    claim key kept x = kept ++ [x] := by
  simp only [claim, fresh, ↓reduceIte]

theorem claim_nodup {kept : List α} (distinct : (kept.map key).Nodup) (x : α) :
    ((claim key kept x).map key).Nodup := by
  by_cases taken : key x ∈ kept.map key
  · rwa [claim_of_taken key taken]
  · rw [claim_of_fresh key taken, List.map_append]
    exact List.Nodup.append distinct (by simp) (by simpa using taken)

theorem claimAll_nodup {kept : List α} (distinct : (kept.map key).Nodup) (xs : List α) :
    ((claimAll key kept xs).map key).Nodup := by
  induction xs generalizing kept with
  | nil => exact distinct
  | cons x xs ih => exact ih (claim_nodup key distinct x)

theorem prefix_claim (kept : List α) (x : α) : kept <+: claim key kept x := by
  unfold claim
  split
  · exact List.prefix_refl _
  · exact List.prefix_append _ _

theorem prefix_claimAll (kept xs : List α) : kept <+: claimAll key kept xs := by
  induction xs generalizing kept with
  | nil => exact List.prefix_refl _
  | cons x xs ih => exact (prefix_claim key kept x).trans (ih _)

theorem mem_claim_cases {kept : List α} {x y : α} (member : y ∈ claim key kept x) :
    y ∈ kept ∨ y = x := by
  unfold claim at member
  split at member
  · exact .inl member
  · simpa using member

theorem mem_of_mem_claimAll {kept xs : List α} {y : α} (member : y ∈ claimAll key kept xs) :
    y ∈ kept ∨ y ∈ xs := by
  induction xs generalizing kept with
  | nil => exact .inl member
  | cons x xs ih =>
    rcases ih member with early | late
    · rcases mem_claim_cases key early with old | rfl
      · exact .inl old
      · exact .inr List.mem_cons_self
    · exact .inr (List.mem_cons_of_mem _ late)

theorem key_mem_claimAll (kept xs : List α) {x : α} (member : x ∈ xs) :
    key x ∈ (claimAll key kept xs).map key := by
  induction xs generalizing kept with
  | nil => cases member
  | cons y ys ih =>
    rcases List.mem_cons.mp member with rfl | later
    · have here : key x ∈ (claim key kept x).map key := by
        by_cases taken : key x ∈ kept.map key
        · rwa [claim_of_taken key taken]
        · simp [claim_of_fresh key taken]
      exact ((prefix_claimAll key _ ys).map key).subset here
    · exact ih _ later

end Library

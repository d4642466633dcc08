import Mathlib.Logic.Function.Basic
import Mathlib.Data.Option.Basic

/-! Caches as partial functions, and what is right of every entry of one. -/

namespace Library

universe u v

variable {κ : Type u} {ν : Type v}

abbrev Cache (κ : Type u) (ν : Type v) := κ → Option ν

namespace Cache

def empty : Cache κ ν := fun _ => none

def put [DecidableEq κ] (cache : Cache κ ν) (k : κ) (value : ν) : Cache κ ν :=
  Function.update cache k (some value)

def keep (cache : Cache κ ν) (kept : κ → Bool) : Cache κ ν := fun k => if kept k then cache k else none

def Sound (right : κ → ν → Prop) (cache : Cache κ ν) : Prop := ∀ k value, cache k = some value → right k value

variable {right : κ → ν → Prop} {cache : Cache κ ν}

@[simp] theorem put_self [DecidableEq κ] (k : κ) (value : ν) : cache.put k value k = some value := by
  simp [put]

theorem put_of_ne [DecidableEq κ] {k k' : κ} (different : k' ≠ k) (value : ν) :
    cache.put k value k' = cache k' := by
  simp [put, different]

theorem sound_empty : Sound right (empty : Cache κ ν) := nofun

theorem Sound.put [DecidableEq κ] (sound : Sound right cache) {k : κ} {value : ν}
    (good : right k value) : Sound right (cache.put k value) := by
  intro k' value' found
  by_cases same : k' = k
  · subst same
    rw [put_self] at found
    cases found
    exact good
  · rw [put_of_ne same] at found
    exact sound k' value' found

theorem Sound.keep (sound : Sound right cache) (kept : κ → Bool) : Sound right (cache.keep kept) := by
  intro k value found
  rw [Cache.keep] at found
  split at found
  · exact sound k value found
  · cases found

/-- The entry at `fresh` takes the place of the others that have the same owner: only these go, all of
them if it is `saved`, and what another owns stays as it is. -/
structure Replaces (own : κ → Prop) (fresh : κ) (saved : Prop) (before after : Cache κ ν) : Prop where
  deletes : ∀ k, before k ≠ none → after k = none → own k ∧ k ≠ fresh
  one : saved → ∀ k, own k → (after k ≠ none ↔ k = fresh)
  others : ∀ k, ¬own k → after k = before k

/-- The entries but for those that are swept, with the one at `fresh` as it has been written. -/
def sweep [DecidableEq κ] (cache : Cache κ ν) (swept : κ → Bool) (fresh : κ) : Option ν → Cache κ ν
  | some value => (cache.keep fun k => !swept k).put fresh value
  | none => cache.keep fun k => !swept k

variable [DecidableEq κ] {swept : κ → Bool} {fresh : κ} {written : Option ν}

theorem sweep_of_ne {k : κ} (different : k ≠ fresh) :
    cache.sweep swept fresh written k = if swept k then none else cache k := by
  cases written with
  | none => cases swept' : swept k <;> simp [sweep, keep, swept']
  | some value => cases swept' : swept k <;> simp [sweep, put_of_ne different, keep, swept']

theorem sweep_fresh (absent : cache fresh = none) : cache.sweep swept fresh written fresh = written := by
  cases written with
  | none => simp [sweep, keep, absent]
  | some value => simp [sweep]

theorem Sound.sweep (sound : Sound right cache) (good : ∀ value, right fresh value) :
    Sound right (cache.sweep swept fresh written) := by
  cases written with
  | none => exact sound.keep _
  | some value => exact (sound.keep _).put (good value)

theorem replaces_sweep_iff {own : κ → Prop} {saved : Prop} (mine : own fresh) (absent : cache fresh = none)
    (writes : saved → written ≠ none) :
    Replaces own fresh saved cache (cache.sweep swept fresh written) ↔
      (∀ k, cache k ≠ none → swept k = true → own k) ∧
        (saved → ∀ k, own k → cache k ≠ none → swept k = true) := by
  have other {k : κ} (present : cache k ≠ none) : k ≠ fresh := by
    rintro rfl
    exact present absent
  constructor
  · intro replaces
    constructor
    · intro k present gone
      refine (replaces.deletes k present ?_).1
      rw [sweep_of_ne (other present), if_pos gone]
    · intro saved k owned present
      by_contra kept
      refine other present ((replaces.one saved k owned).mp ?_)
      rwa [sweep_of_ne (other present), if_neg kept]
  · rintro ⟨onlyOwn, allOwn⟩
    refine ⟨?_, ?_, ?_⟩
    · intro k present gone
      refine ⟨onlyOwn k present ?_, other present⟩
      by_contra kept
      rw [sweep_of_ne (other present), if_neg kept] at gone
      exact present gone
    · intro saved k owned
      by_cases same : k = fresh
      · subst same
        rw [sweep_fresh absent]
        exact iff_of_true (writes saved) rfl
      · rw [sweep_of_ne same]
        refine iff_of_false ?_ same
        split
        · exact fun present => present rfl
        · rename_i kept
          intro present
          exact kept (allOwn saved k owned present)
    · intro k foreign
      have different : k ≠ fresh := by
        rintro rfl
        exact foreign mine
      rw [sweep_of_ne different]
      split
      · rename_i gone
        by_contra present
        exact foreign (onlyOwn k (fun absent => present absent.symm) gone)
      · rfl

end Cache

end Library

import Mathlib.Data.List.Lex
import Mathlib.Data.List.Sort

/-! Going over a list whose items are kept, skipped or raise; and sorted lists under a filter. -/

namespace Library

universe u v w

variable {ε : Type u} {α : Type v} {β : Type w}

def Returns (result : Except ε β) : Prop := ∃ value, result = .ok value

theorem returns_ok (value : β) : Returns (.ok value : Except ε β) := ⟨value, rfl⟩

theorem bind_eq_ok {γ : Type w} {x : Except ε β} {f : β → Except ε γ} {result : γ} :
    x >>= f = .ok result ↔ ∃ value, x = .ok value ∧ f value = .ok result := by
  cases x with
  | ok value =>
    constructor
    · intro same
      exact ⟨value, rfl, same⟩
    · rintro ⟨_, first, same⟩
      cases first
      exact same
  | error raised =>
    constructor
    · intro same
      cases same
    · rintro ⟨_, same, -⟩
      cases same

theorem run_bind_ok {ε σ α β : Type} {x : EStateM ε σ α} {f : α → EStateM ε σ β} {s t : σ} {value : α}
    (first : x.run s = .ok value t) : (x >>= f).run s = (f value).run t := by
  rw [EStateM.run_bind, first]

theorem run_bind_error {ε σ α β : Type} {x : EStateM ε σ α} {f : α → EStateM ε σ β} {s t : σ} {raised : ε}
    (first : x.run s = .error raised t) : (x >>= f).run s = .error raised t := by
  rw [EStateM.run_bind, first]

theorem run_tryCatch_ok {ε σ α : Type} {x : EStateM ε σ α} {handle : ε → EStateM ε σ α} {s t : σ} {value : α}
    (first : x.run s = .ok value t) : (tryCatch x handle).run s = .ok value t := by
  simp only [EStateM.run] at first
  simp only [EStateM.run, tryCatch, tryCatchThe, MonadExceptOf.tryCatch, EStateM.tryCatch, first]

theorem run_tryCatch_error {ε σ α : Type} {x : EStateM ε σ α} {handle : ε → EStateM ε σ α} {s t : σ}
    {raised : ε} (first : x.run s = .error raised t) : (tryCatch x handle).run s = (handle raised).run t := by
  simp only [EStateM.run] at first
  simp only [EStateM.run, tryCatch, tryCatchThe, MonadExceptOf.tryCatch, EStateM.tryCatch, first]
  rfl

theorem map_eq_ok {γ : Type w} {f : β → γ} {x : Except ε β} {result : γ} :
    f <$> x = .ok result ↔ ∃ value, x = .ok value ∧ f value = result := by
  cases x with
  | ok value => simp [Functor.map, Except.map]
  | error raised => simp [Functor.map, Except.map]

theorem returns_bind_iff {γ : Type w} {x : Except ε β} {f : β → Except ε γ} :
    Returns (x >>= f) ↔ ∃ value, x = .ok value ∧ Returns (f value) := by
  constructor
  · rintro ⟨result, bound⟩
    obtain ⟨value, first, rest⟩ := bind_eq_ok.mp bound
    exact ⟨value, first, result, rest⟩
  · rintro ⟨value, first, result, rest⟩
    exact ⟨result, bind_eq_ok.mpr ⟨value, first, rest⟩⟩

theorem returns_map_iff {γ : Type w} {f : β → γ} {x : Except ε β} : Returns (f <$> x) ↔ Returns x := by
  constructor
  · rintro ⟨_, mapped⟩
    obtain ⟨value, first, -⟩ := map_eq_ok.mp mapped
    exact ⟨value, first⟩
  · rintro ⟨value, first⟩
    exact ⟨f value, map_eq_ok.mpr ⟨value, first, rfl⟩⟩

/-- What each item adds to what holds of the items before it. -/
theorem foldlM_grows {γ : Type w} {f : γ → α → Except ε γ} {holds : List α → γ → Prop}
    (grows : ∀ {before x s t}, holds before s → f s x = .ok t → holds (before ++ [x]) t)
    {xs before : List α} {s t : γ} (start : holds before s) (folded : xs.foldlM f s = .ok t) :
    holds (before ++ xs) t := by
  induction xs generalizing before s with
  | nil =>
    cases folded
    rwa [List.append_nil]
  | cons x xs ih =>
    rw [List.foldlM_cons] at folded
    obtain ⟨next, first, rest⟩ := bind_eq_ok.mp folded
    rw [← List.singleton_append, ← List.append_assoc]
    exact ih (grows start first) rest

def keeps (f : α → Except ε (Option β)) (x : α) : Option β :=
  match f x with
  | .ok kept => kept
  | .error _ => none

variable {f g : α → Except ε (Option β)} {xs ys : List α}

theorem filterMapM_of_returns (each : ∀ x ∈ xs, Returns (f x)) :
    xs.filterMapM f = .ok (xs.filterMap (keeps f)) := by
  induction xs with
  | nil => rfl
  | cons x xs ih =>
    obtain ⟨kept, here⟩ := each x (by simp)
    have later := ih fun y member => each y (List.mem_cons_of_mem _ member)
    have contributes : keeps f x = kept := by rw [keeps, here]
    rw [List.filterMapM_cons, here, later, List.filterMap_cons, contributes]
    cases kept with
    | none => rfl
    | some value => rfl

theorem returns_of_filterMapM {out : List β} (collected : xs.filterMapM f = .ok out) :
    ∀ x ∈ xs, Returns (f x) := by
  induction xs generalizing out with
  | nil => simp
  | cons x xs ih =>
    rw [List.filterMapM_cons] at collected
    cases here : f x with
    | error raised =>
      rw [here] at collected
      cases collected
    | ok kept =>
      have later : ∃ rest, xs.filterMapM f = .ok rest := by
        rw [here] at collected
        cases kept with
        | none => exact ⟨out, collected⟩
        | some value =>
          cases others : xs.filterMapM f with
          | ok rest => exact ⟨rest, rfl⟩
          | error raised =>
            rw [others] at collected
            cases collected
      intro y member
      rcases List.mem_cons.mp member with rfl | inside
      · exact ⟨kept, here⟩
      · exact ih later.choose_spec y inside

theorem filterMapM_eq_ok_iff {out : List β} :
    xs.filterMapM f = .ok out ↔ (∀ x ∈ xs, Returns (f x)) ∧ out = xs.filterMap (keeps f) := by
  constructor
  · intro collected
    have each := returns_of_filterMapM collected
    rw [filterMapM_of_returns each] at collected
    exact ⟨each, (Except.ok.inj collected).symm⟩
  · rintro ⟨each, rfl⟩
    exact filterMapM_of_returns each

/-- The outputs of some of the items are what these items alone put out. -/
theorem filter_filterMap_keeps {p : β → Bool} {q : α → Bool}
    (same : ∀ x ∈ xs, q x = true → f x = g x) (own : ∀ x ∈ xs, ∀ kept ∈ keeps f x, p kept = q x) :
    (xs.filterMap (keeps f)).filter p = (xs.filter q).filterMap (keeps g) := by
  induction xs with
  | nil => rfl
  | cons x xs ih =>
    have later := ih (fun y member => same y (List.mem_cons_of_mem _ member))
      fun y member => own y (List.mem_cons_of_mem _ member)
    have mine := own x (by simp)
    cases chosen : q x with
    | false =>
      rw [List.filter_cons_of_neg (by simp [chosen]), ← later]
      cases contributes : keeps f x with
      | none => rw [List.filterMap_cons_none contributes]
      | some kept =>
        have left_out := (mine kept contributes).trans chosen
        rw [List.filterMap_cons_some contributes, List.filter_cons_of_neg (by simp [left_out])]
    | true =>
      have agree : keeps g x = keeps f x := by rw [keeps, keeps, same x (by simp) chosen]
      rw [List.filter_cons_of_pos chosen]
      cases contributes : keeps f x with
      | none =>
        rw [List.filterMap_cons_none contributes, List.filterMap_cons_none (agree.trans contributes),
          later]
      | some kept =>
        have taken := (mine kept contributes).trans chosen
        rw [List.filterMap_cons_some contributes, List.filterMap_cons_some (agree.trans contributes),
          List.filter_cons_of_pos taken, later]

theorem eq_ok_of_mem_keeps {x : α} {kept : β} (contributes : kept ∈ keeps f x) : f x = .ok (some kept) := by
  unfold keeps at contributes
  split at contributes
  · rename_i result
    rw [result, Option.mem_def.mp contributes]
  · cases contributes

theorem insertionSort_congr [LinearOrder α] (perm : xs.Perm ys) :
    xs.insertionSort (· ≤ ·) = ys.insertionSort (· ≤ ·) := by
  apply List.Perm.eq_of_pairwise (fun _ _ _ _ le ge => le_antisymm le ge)
    (List.pairwise_insertionSort _ xs) (List.pairwise_insertionSort _ ys)
  exact (List.perm_insertionSort _ xs).trans (perm.trans (List.perm_insertionSort _ ys).symm)

theorem filter_insertionSort [LinearOrder α] (p : α → Bool) (xs : List α) :
    (xs.insertionSort (· ≤ ·)).filter p = (xs.filter p).insertionSort (· ≤ ·) := by
  apply List.Perm.eq_of_pairwise (fun _ _ _ _ le ge => le_antisymm le ge)
    ((List.pairwise_insertionSort _ xs).filter p) (List.pairwise_insertionSort _ _)
  exact ((List.perm_insertionSort _ xs).filter p).trans (List.perm_insertionSort _ _).symm

end Library

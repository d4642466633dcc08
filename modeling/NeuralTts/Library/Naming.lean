import Mathlib.Data.List.Basic
import Mathlib.Data.List.Induction
import Mathlib.Logic.Function.Iterate

/-! Giving out names: everyone asks for a name of choice and gets it while it is free, then an own
name while that is, and nothing after. -/

namespace Library

universe u v

namespace Naming

variable {α : Type u} {β : Type v} [DecidableEq β] (choice own : α → β)

/-- The names given out so far, each with the own name of whom it was given to. -/
abbrev Issued (β : Type v) := List (β × β)

def names (issued : Issued β) : List β := issued.map Prod.fst

def turn (v : α) (issued : Issued β) : Issued β :=
  if choice v ∉ names issued then issued ++ [(choice v, own v)]
  else if own v ∉ names issued then issued ++ [(own v, own v)]
  else issued

/-- Everyone in order, each as often as `turns` says. -/
def run (turns : α → Nat) (vs : List α) : Issued β :=
  vs.foldl (fun issued v => (turn choice own v)^[turns v] issued) []

def given (issued : Issued β) (own : β) : Nat := issued.countP fun entry => entry.2 = own

/-- A name is taken once one of these, the last of whom comes first, has it as choice, or has it as
own name and asked for it: by asking twice, or because the choice was taken. -/
def Taken (turns : α → Nat) : List α → β → Prop
  | [], _ => False
  | v :: earlier, name =>
    Taken turns earlier name ∨
      0 < turns v ∧ (choice v = name ∨ own v = name ∧ (2 ≤ turns v ∨ Taken turns earlier (choice v)))

/-- One of the two names is free, and no more than one for those who ask more than once. -/
def OneFree (turns : Nat) (taken : β → Prop) (choice own : β) : Prop :=
  (¬ taken choice ∨ ¬ taken own) ∧ (2 ≤ turns → choice = own ∨ taken choice ∨ taken own)

variable {choice own} {issued : Issued β} {turns : α → Nat}

omit [DecidableEq β] in
theorem mem_names_append (name holder : β) (n : β) :
    n ∈ names (issued ++ [(name, holder)]) ↔ n ∈ names issued ∨ n = name := by
  simp [names]

theorem mem_names_turn (v : α) (n : β) :
    n ∈ names (turn choice own v issued) ↔
      n ∈ names issued ∨ choice v = n ∨ own v = n ∧ choice v ∈ names issued := by
  unfold turn
  split
  · rename_i free
    rw [mem_names_append]
    grind
  · split
    · rw [mem_names_append]
      grind
    · grind

theorem turn_third (v : α) :
    turn choice own v (turn choice own v (turn choice own v issued)) =
      turn choice own v (turn choice own v issued) := by
  have both : choice v ∈ names (turn choice own v (turn choice own v issued)) ∧
      own v ∈ names (turn choice own v (turn choice own v issued)) := by
    simp [mem_names_turn]
  rw [turn, if_neg (not_not.mpr both.1), if_neg (not_not.mpr both.2)]

theorem turn_iterate (v : α) (k : Nat) :
    (turn choice own v)^[k + 2] issued = (turn choice own v)^[2] issued := by
  induction k with
  | zero => rfl
  | succ k ih =>
    rw [Function.iterate_succ_apply', ih]
    exact turn_third v

theorem mem_names_turns (v : α) (k : Nat) (n : β) :
    n ∈ names ((turn choice own v)^[k] issued) ↔ n ∈ names issued ∨
      0 < k ∧ (choice v = n ∨ own v = n ∧ (2 ≤ k ∨ choice v ∈ names issued)) := by
  match k with
  | 0 => simp
  | 1 => simp [mem_names_turn]
  | k + 2 =>
    rw [turn_iterate]
    simp only [Function.iterate_succ_apply, Function.iterate_zero, id_eq, mem_names_turn]
    have twice : 2 ≤ k + 2 := by omega
    simp only [twice, true_or, and_true, Nat.zero_lt_succ, true_and]
    grind

theorem mem_names_run (vs : List α) (n : β) :
    n ∈ names (run choice own turns vs) ↔ Taken choice own turns vs.reverse n := by
  induction vs using List.reverseRecOn generalizing n with
  | nil => simp [run, names, Taken]
  | append_singleton vs v ih =>
    rw [List.reverse_append, List.reverse_singleton, List.singleton_append, Taken, ← ih, ← ih, run,
      List.foldl_append, List.foldl_cons, List.foldl_nil, mem_names_turns]
    rfl

theorem given_append (name holder other : β) :
    given (issued ++ [(name, holder)]) other = given issued other + if holder = other then 1 else 0 := by
  by_cases same : holder = other
  · simp [given, same]
  · simp [given, same]

theorem given_turn (v : α) : given (turn choice own v issued) (own v) = given issued (own v) +
    if choice v ∈ names issued ∧ own v ∈ names issued then 0 else 1 := by
  unfold turn
  split
  · rename_i free
    simp [given_append, free]
  · split
    · rename_i free
      simp [given_append, free]
    · rename_i taken also
      simp [not_not.mp taken, not_not.mp also]

theorem given_turns_other {v : α} {other : β} (differs : own v ≠ other) (k : Nat) :
    given ((turn choice own v)^[k] issued) other = given issued other := by
  induction k generalizing issued with
  | zero => rfl
  | succ k ih =>
    rw [Function.iterate_succ_apply', turn]
    split
    · rw [given_append, if_neg differs, ih, Nat.add_zero]
    · split
      · rw [given_append, if_neg differs, ih, Nat.add_zero]
      · exact ih

theorem given_foldl_other {vs : List α} {other : β} (differs : ∀ v ∈ vs, own v ≠ other) :
    given (vs.foldl (fun issued v => (turn choice own v)^[turns v] issued) issued) other =
      given issued other := by
  induction vs generalizing issued with
  | nil => rfl
  | cons v vs ih =>
    rw [List.foldl_cons, ih fun w member => differs w (List.mem_cons_of_mem v member)]
    exact given_turns_other (differs v (by simp)) (turns v)

theorem given_turns_eq_one_iff {v : α} {k : Nat} (asks : 0 < k) (none : given issued (own v) = 0) :
    given ((turn choice own v)^[k] issued) (own v) = 1 ↔
      OneFree k (· ∈ names issued) (choice v) (own v) := by
  match k with
  | 1 =>
    rw [Function.iterate_one, given_turn, none]
    simp [OneFree]
    grind
  | k + 2 =>
    rw [turn_iterate]
    simp only [Function.iterate_succ_apply, Function.iterate_zero, id_eq, given_turn, none,
      mem_names_turn, OneFree]
    have twice : 2 ≤ k + 2 := by omega
    simp only [twice, true_implies]
    grind

/-- Where own names differ, everyone who asks gets exactly one name exactly when, at their turn,
one of their two names is free. -/
theorem given_run_eq_one_iff {vs before after : List α} {v : α} (distinct : (vs.map own).Nodup)
    (split : vs = before ++ v :: after) (asks : 0 < turns v) :
    given (run choice own turns vs) (own v) = 1 ↔
      OneFree (turns v) (Taken choice own turns before.reverse) (choice v) (own v) := by
  subst split
  simp only [List.map_append, List.map_cons] at distinct
  have apart := List.nodup_append.mp distinct
  have earlier : ∀ w ∈ before, own w ≠ own v := by
    intro w member
    exact apart.2.2 _ (List.mem_map_of_mem member) _ (by simp)
  have later : ∀ w ∈ after, own w ≠ own v := by
    intro w member same
    exact (List.nodup_cons.mp apart.2.1).1 (same ▸ List.mem_map_of_mem member)
  have none : given (run choice own turns before) (own v) = 0 := given_foldl_other earlier
  rw [run, List.foldl_append, List.foldl_cons, given_foldl_other later]
  rw [← run, given_turns_eq_one_iff asks none]
  simp only [OneFree, mem_names_run]

end Naming

end Library

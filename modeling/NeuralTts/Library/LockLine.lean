import Mathlib.Data.List.Nodup
import NeuralTts.Library.FifoLock

/-! The clients of a lock: where each of them stands, what a step of one of them does to the lock, and the
line that is ahead of one that waits. -/

namespace Library

universe u

inductive Place
  | outside
  | queued
  | within
deriving DecidableEq

/-- What the costs of these come to. -/
def load {τ : Type u} (cost : τ → Nat) : List τ → Nat
  | [] => 0
  | x :: rest => cost x + load cost rest

namespace FifoLock

variable {τ : Type u}

/-- What a step of `i` does to the lock as its place changes. -/
inductive Step [DecidableEq τ] (i : τ) (l : FifoLock τ) : Place → FifoLock τ → Place → Prop
  | stays (place : Place) : Step i l place l place
  | enters (idle : l.Idle) : Step i l .outside (l.hold i) .within
  | queues (busy : ¬l.Idle) : Step i l .outside (l.enqueue i) .queued
  | granted (first : l.Granted i) : Step i l .queued (l.grant i) .within
  | quits : Step i l .queued (l.abandon i) .outside
  | leaves : Step i l .within l.release .outside
  | returns (idle : l.release.Idle) : Step i l .within (l.release.hold i) .within
  | requeues (busy : ¬l.release.Idle) : Step i l .within (l.release.enqueue i) .queued

structure Tells (l : FifoLock τ) (place : τ → Place) : Prop where
  holder : ∀ t, l.holder = some t ↔ place t = .within
  waiters : ∀ t, t ∈ l.waiters ↔ place t = .queued
  nodup : l.waiters.Nodup

/-- Who is to have the lock before `w`: the holder, and those that have waited longer. -/
def line [DecidableEq τ] (l : FifoLock τ) (w : τ) : List τ := l.holder.toList ++ l.waiters.takeWhile (· ≠ w)

variable {l l' : FifoLock τ} {place place' : τ → Place} {i w : τ}

theorem Tells.absent (tells : l.Tells place) (elsewhere : place i ≠ .queued) : i ∉ l.waiters :=
  mt (tells.waiters i).mp elsewhere

theorem nodup_enqueue (tells : l.Tells place) (elsewhere : place i ≠ .queued) : (l.waiters ++ [i]).Nodup := by
  apply List.nodup_append'.mpr ⟨tells.nodup, List.nodup_singleton i, ?_⟩
  intro t waits same
  rw [List.mem_singleton.mp same] at waits
  exact tells.absent elsewhere waits

/-- Where only `i` moves, it is enough to look at it and at what the lock says of the others. -/
theorem Tells.moved (tells : l.Tells place) (others : ∀ t, t ≠ i → place' t = place t)
    (holder : ∀ t, t ≠ i → (l'.holder = some t ↔ l.holder = some t))
    (waiters : ∀ t, t ≠ i → (t ∈ l'.waiters ↔ t ∈ l.waiters))
    (held : l'.holder = some i ↔ place' i = .within) (waits : i ∈ l'.waiters ↔ place' i = .queued)
    (nodup : l'.waiters.Nodup) : l'.Tells place' := by
  refine ⟨?_, ?_, nodup⟩
  · intro t
    by_cases same : t = i
    · rw [same]
      exact held
    · rw [holder t same, others t same]
      exact tells.holder t
  · intro t
    by_cases same : t = i
    · rw [same]
      exact waits
    · rw [waiters t same, others t same]
      exact tells.waiters t

theorem granted_cons (first : l.Granted i) : l.waiters = i :: l.waiters.tail := by
  cases waiters : l.waiters with
  | nil =>
    have head := first.2
    rw [waiters] at head
    cases head
  | cons t rest =>
    have head := first.2
    rw [waiters] at head
    cases head
    rfl

theorem Tells.step [DecidableEq τ] (tells : l.Tells place) (step : Step i l (place i) l' (place' i))
    (others : ∀ t, t ≠ i → place' t = place t) : l'.Tells place' := by
  generalize before : place i = origin at step
  generalize after : place' i = reached at step
  have differs {t : τ} (other : t ≠ i) : some i ≠ some t := fun same => other (Option.some.inj same).symm
  cases step with
  | stays =>
    refine tells.moved others (fun _ _ => Iff.rfl) (fun _ _ => Iff.rfl) ?_ ?_ tells.nodup
    · rw [tells.holder, before, after]
    · rw [tells.waiters, before, after]
  | enters idle =>
    refine tells.moved others ?_ (fun _ _ => Iff.rfl) ?_ ?_ tells.nodup
    · intro t other
      rw [idle.1]
      exact iff_of_false (differs other) nofun
    · exact iff_of_true rfl after
    · rw [after]
      exact iff_of_false (tells.absent (by rw [before]; nofun)) nofun
  | queues busy =>
    have elsewhere : place i ≠ .queued := by rw [before]; nofun
    refine tells.moved others (fun _ _ => Iff.rfl) ?_ ?_ ?_ (nodup_enqueue tells elsewhere)
    · intro t other
      simp [enqueue, other]
    · rw [after, enqueue, tells.holder, before]
      simp
    · exact iff_of_true (by simp [enqueue]) after
  | granted first =>
    have waiters := granted_cons first
    have nodup := tells.nodup
    rw [waiters, List.nodup_cons] at nodup
    refine tells.moved others ?_ ?_ ?_ ?_ nodup.2
    · intro t other
      rw [first.1]
      exact iff_of_false (differs other) nofun
    · intro t other
      rw [waiters, List.mem_cons]
      exact (or_iff_right other).symm
    · exact iff_of_true rfl after
    · rw [after]
      exact iff_of_false nodup.1 nofun
  | quits =>
    refine tells.moved others (fun _ _ => Iff.rfl) ?_ ?_ ?_ (tells.nodup.erase i)
    · intro t other
      exact List.mem_erase_of_ne other
    · rw [after, abandon, tells.holder, before]
      simp
    · rw [after]
      exact iff_of_false (tells.nodup.not_mem_erase) nofun
  | leaves =>
    have held := (tells.holder i).mpr before
    refine tells.moved others ?_ (fun _ _ => Iff.rfl) ?_ ?_ tells.nodup
    · intro t other
      rw [held]
      exact iff_of_false nofun (differs other)
    · rw [after]
      exact iff_of_false nofun nofun
    · rw [after]
      exact iff_of_false (tells.absent (by rw [before]; nofun)) nofun
  | returns idle =>
    have held := (tells.holder i).mpr before
    refine tells.moved others ?_ (fun _ _ => Iff.rfl) ?_ ?_ tells.nodup
    · intro t other
      rw [held]
      exact Iff.rfl
    · exact iff_of_true rfl after
    · rw [after]
      exact iff_of_false (tells.absent (by rw [before]; nofun)) nofun
  | requeues busy =>
    have held := (tells.holder i).mpr before
    have elsewhere : place i ≠ .queued := by rw [before]; nofun
    have nodup : (l.waiters ++ [i]).Nodup := nodup_enqueue tells elsewhere
    refine tells.moved others ?_ ?_ ?_ ?_ nodup
    · intro t other
      rw [held]
      exact iff_of_false nofun (differs other)
    · intro t other
      simp [enqueue, release, other]
    · rw [after]
      exact iff_of_false nofun nofun
    · exact iff_of_true (by simp [enqueue]) after

theorem takeWhile_append_of_mem [DecidableEq τ] {waiters : List τ} (waits : w ∈ waiters) (more : List τ) :
    (waiters ++ more).takeWhile (· ≠ w) = waiters.takeWhile (· ≠ w) := by
  induction waiters with
  | nil => cases waits
  | cons t rest ih =>
    rw [List.cons_append, List.takeWhile_cons, List.takeWhile_cons]
    by_cases same : t = w
    · simp [same]
    · rw [ih ((List.mem_cons.mp waits).resolve_left (Ne.symm same))]

theorem takeWhile_erase_sublist [DecidableEq τ] (waiters : List τ) (other : i ≠ w) :
    ((waiters.erase i).takeWhile (· ≠ w)).Sublist (waiters.takeWhile (· ≠ w)) := by
  induction waiters with
  | nil => exact .refl _
  | cons t rest ih =>
    by_cases mine : t = i
    · rw [mine, List.erase_cons_head, List.takeWhile_cons_of_pos (by simpa using other)]
      exact List.sublist_cons_self ..
    · rw [List.erase_cons_tail (by simpa using mine), List.takeWhile_cons, List.takeWhile_cons]
      split
      · exact ih.cons_cons t
      · exact .refl _

theorem mem_line [DecidableEq τ] (tells : l.Tells place) (member : i ∈ l.line w) :
    place i = .within ∨ place i = .queued := by
  rcases List.mem_append.mp member with held | waits
  · exact .inl ((tells.holder i).mp (Option.mem_toList.mp held))
  · exact .inr ((tells.waiters i).mp ((List.takeWhile_prefix _).subset waits))

/-- Nobody gets into the line, and who stays in it stays where it was or was let in. -/
theorem Tells.line_step [DecidableEq τ] (tells : l.Tells place) (step : Step i l (place i) l' (place' i))
    (others : ∀ t, t ≠ i → place' t = place t) (waits : place w = .queued) (still : place' w = .queued) :
    (l'.line w).Sublist (l.line w) ∧ (i ∈ l'.line w → l' = l ∨ l.Granted i ∧ l' = l.grant i) := by
  have later := tells.step step others
  have inLine := (tells.waiters w).mpr waits
  have busy : l.waiters ≠ [] := List.ne_nil_of_mem inLine
  have gone {k : Prop} (away : place' i = .outside) (member : i ∈ l'.line w) : k := by
    have stays := mem_line later member
    rw [away] at stays
    rcases stays with held | queued <;> contradiction
  generalize before : place i = origin at step
  generalize after : place' i = reached at step
  cases step with
  | stays => exact ⟨.refl _, fun _ => .inl rfl⟩
  | enters idle => exact absurd idle.2 busy
  | queues _ =>
    have same : (l.enqueue i).line w = l.line w := by
      unfold line enqueue
      rw [takeWhile_append_of_mem inLine]
    rw [same]
    refine ⟨.refl _, ?_⟩
    intro member
    have stays := mem_line tells member
    rw [before] at stays
    rcases stays with held | queued <;> contradiction
  | granted first =>
    have other : i ≠ w := by
      rintro rfl
      cases after.symm.trans still
    have same : (l.grant i).line w = l.line w := by
      have head := granted_cons first
      unfold line grant
      rw [first.1, head, List.takeWhile_cons_of_pos (by simpa using other)]
      rfl
    rw [same]
    exact ⟨.refl _, fun _ => .inr ⟨first, rfl⟩⟩
  | quits =>
    have other : i ≠ w := by
      rintro rfl
      cases after.symm.trans still
    exact ⟨(takeWhile_erase_sublist l.waiters other).append_left _, gone after⟩
  | leaves => exact ⟨List.sublist_append_right .., gone after⟩
  | returns idle => exact absurd idle.2 busy
  | requeues _ =>
    have other : i ≠ w := by
      rintro rfl
      cases before.symm.trans waits
    have same : (l.release.enqueue i).line w = l.waiters.takeWhile (· ≠ w) := by
      unfold line enqueue release
      rw [takeWhile_append_of_mem inLine]
      rfl
    rw [same]
    refine ⟨List.sublist_append_right .., ?_⟩
    intro member
    have queued := (tells.waiters i).mp ((List.takeWhile_prefix _).subset member)
    cases before.symm.trans queued

end FifoLock

variable {τ : Type u} {cost cost' : τ → Nat} {xs ys : List τ}

theorem load_le_of_sublist (sublist : xs.Sublist ys) (less : ∀ x ∈ xs, cost' x ≤ cost x) :
    load cost' xs ≤ load cost ys := by
  induction sublist with
  | slnil => exact Nat.le_refl 0
  | cons y _ ih =>
    rw [load]
    have rest := ih less
    omega
  | cons_cons y _ ih =>
    rw [load, load]
    have here := less y List.mem_cons_self
    have rest := ih fun x member => less x (List.mem_cons_of_mem y member)
    omega

/-- One that costs something and that leaves, or that costs less than before, makes the load less. -/
theorem load_lt_of_sublist (sublist : xs.Sublist ys) (less : ∀ x ∈ xs, cost' x ≤ cost x) {y : τ} (member : y ∈ ys)
    (positive : 0 < cost y) (fewer : y ∈ xs → cost' y < cost y) : load cost' xs < load cost ys := by
  induction sublist with
  | slnil => cases member
  | cons z sublist ih =>
    rw [load]
    rcases List.mem_cons.mp member with rfl | later
    · have rest := load_le_of_sublist sublist less
      omega
    · have rest := ih less later fewer
      omega
  | cons_cons z sublist ih =>
    rw [load, load]
    have here := less z List.mem_cons_self
    have others : ∀ x ∈ _, cost' x ≤ cost x := fun x inside => less x (List.mem_cons_of_mem z inside)
    rcases List.mem_cons.mp member with rfl | later
    · have strictly := fewer List.mem_cons_self
      have rest := load_le_of_sublist sublist others
      omega
    · have rest := ih others later fun inside => fewer (List.mem_cons_of_mem z inside)
      omega

theorem load_le {bound : Nat} (within : ∀ x ∈ xs, cost x ≤ bound) : load cost xs ≤ bound * xs.length := by
  induction xs with
  | nil => exact Nat.zero_le _
  | cons x rest ih =>
    rw [load, List.length_cons, Nat.mul_succ]
    have here := within x List.mem_cons_self
    have rest := ih fun y member => within y (List.mem_cons_of_mem x member)
    omega

end Library

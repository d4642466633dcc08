import Mathlib.Data.List.Basic

/-! Values written one after another on a stream, each in a frame of its own. -/

namespace Library

universe u v w

/-- How a value is written, and how the next one is read: the result and what is left. -/
structure Framing (ε : Type u) (α : Type v) (β : Type w) where
  frame : α → List β
  read : List β → Except ε α × List β

namespace Framing

variable {ε : Type u} {α : Type v} {β : Type w} (F : Framing ε α β)

def wire (xs : List α) : List β := xs.flatMap F.frame

/-- The results of so many reads in a row, and what they leave. -/
def reads : Nat → List β → List (Except ε α) × List β
  | 0, stream => ([], stream)
  | count + 1, stream =>
    ((F.read stream).1 :: (reads count (F.read stream).2).1, (reads count (F.read stream).2).2)

/-- A whole frame gives its value and leaves what follows it; a stream that ends before or
within a frame gives an error of the kind `closed` and is used up. -/
structure Lawful (good : α → Prop) (closed : ε → Prop) : Prop where
  whole : ∀ x rest, good x → F.read (F.frame x ++ rest) = (.ok x, rest)
  broken : ∀ x part, good x → part <+: F.frame x → part.length < (F.frame x).length →
    ∃ e, closed e ∧ F.read part = (.error e, [])
  ended : ∃ e, closed e ∧ F.read [] = (.error e, [])

/-- The first `n` of `xs` are read off the stream, in order, each read taking its frame, and
every read after these fails with an error of the kind `closed`. -/
structure Delivers (closed : ε → Prop) (xs : List α) (n : Nat) (stream : List β) : Prop where
  returned : ∀ count, count ≤ n → F.reads count stream =
    ((xs.take count).map .ok, stream.drop (F.wire (xs.take count)).length)
  failed : ∀ more, ∃ errors : List ε, errors.length = more ∧ (∀ e ∈ errors, closed e) ∧
    (F.reads (n + more) stream).1 = (xs.take n).map .ok ++ errors.map .error

/-- `n` of the frames lie wholly within the first `cut` of the stream. -/
def FramesWithin (xs : List α) (cut n : Nat) : Prop :=
  n ≤ xs.length ∧ ∀ i, i ≤ xs.length → ((F.wire (xs.take i)).length ≤ cut ↔ i ≤ n)

@[simp] theorem wire_nil : F.wire [] = [] := rfl

@[simp] theorem wire_cons (x : α) (xs : List α) : F.wire (x :: xs) = F.frame x ++ F.wire xs := rfl

variable {F} {good : α → Prop} {closed : ε → Prop}

theorem FramesWithin.unique {ε' : Type u} {G : Framing ε' α β} {xs : List α} {cut n m : Nat}
    (first : F.FramesWithin xs cut n) (second : G.FramesWithin xs cut m)
    (same : F.frame = G.frame) : n = m := by
  have up := (second.2 n first.1).mp (by
    have fits := (first.2 n first.1).mpr (Nat.le_refl n)
    rwa [wire, same] at fits)
  have down := (first.2 m second.1).mp (by
    have fits := (second.2 m second.1).mpr (Nat.le_refl m)
    rwa [wire, ← same] at fits)
  omega

theorem Lawful.reads_closed (law : F.Lawful good closed) {stream : List β} {e : ε}
    (kind : closed e) (read : F.read stream = (.error e, [])) (more : Nat) :
    ∃ errors : List ε, errors.length = more ∧ (∀ e ∈ errors, closed e) ∧
      (F.reads more stream).1 = errors.map .error := by
  induction more generalizing stream e with
  | zero => exact ⟨[], rfl, by simp, rfl⟩
  | succ more ih =>
    obtain ⟨last, lastKind, lastRead⟩ := law.ended
    obtain ⟨errors, length, kinds, results⟩ := ih lastKind lastRead
    refine ⟨e :: errors, by rw [List.length_cons, length], ?_, ?_⟩
    · intro e' member
      rcases List.mem_cons.mp member with rfl | member
      · exact kind
      · exact kinds e' member
    · rw [reads, read, results]
      rfl

theorem Lawful.delivers_none (law : F.Lawful good closed) (xs : List α) {stream : List β} {e : ε}
    (kind : closed e) (read : F.read stream = (.error e, [])) : F.Delivers closed xs 0 stream := by
  constructor
  · intro count few
    obtain rfl : count = 0 := by omega
    simp [reads]
  · intro more
    obtain ⟨errors, length, kinds, results⟩ := law.reads_closed kind read more
    refine ⟨errors, length, kinds, ?_⟩
    rw [Nat.zero_add, results]
    rfl

theorem Lawful.delivers_cons (law : F.Lawful good closed) {x : α} {xs : List α} {n : Nat}
    {stream : List β} (first : good x) (delivers : F.Delivers closed xs n stream) :
    F.Delivers closed (x :: xs) (n + 1) (F.frame x ++ stream) := by
  constructor
  · intro count few
    cases count with
    | zero => simp [reads]
    | succ count =>
      rw [reads, law.whole x stream first, delivers.returned count (by omega)]
      simp [List.drop_append]
  · intro more
    obtain ⟨errors, length, kinds, results⟩ := delivers.failed more
    refine ⟨errors, length, kinds, ?_⟩
    have count : n + 1 + more = (n + more) + 1 := by omega
    rw [count, reads, law.whole x stream first, results]
    simp

theorem FramesWithin.nil (cut : Nat) : F.FramesWithin [] cut 0 :=
  ⟨Nat.le_refl 0, fun i few => by simpa using few⟩

theorem FramesWithin.short {x : α} {xs : List α} {cut : Nat} (short : cut < (F.frame x).length) :
    F.FramesWithin (x :: xs) cut 0 := by
  refine ⟨Nat.zero_le _, ?_⟩
  intro i _
  cases i with
  | zero => simp
  | succ i =>
    simp only [List.take_succ_cons, wire_cons, List.length_append]
    omega

theorem FramesWithin.cons {x : α} {xs : List α} {cut n : Nat} (whole : (F.frame x).length ≤ cut)
    (within : F.FramesWithin xs (cut - (F.frame x).length) n) : F.FramesWithin (x :: xs) cut (n + 1) := by
  refine ⟨by simpa using within.1, ?_⟩
  intro i few
  cases i with
  | zero => simp
  | succ i =>
    have later := within.2 i (by simpa using few)
    simp only [List.take_succ_cons, wire_cons, List.length_append]
    omega

theorem take_wire_cons {x : α} {xs : List α} {cut : Nat} (whole : (F.frame x).length ≤ cut) :
    (F.wire (x :: xs)).take cut = F.frame x ++ (F.wire xs).take (cut - (F.frame x).length) := by
  rw [wire_cons, List.take_append, List.take_of_length_le whole]

theorem Lawful.read_short (law : F.Lawful good closed) {x : α} {xs : List α} {cut : Nat} (first : good x)
    (short : cut < (F.frame x).length) :
    ∃ e, closed e ∧ F.read ((F.wire (x :: xs)).take cut) = (.error e, []) := by
  rw [wire_cons, List.take_append_of_le_length (by omega)]
  exact law.broken x _ first (List.take_prefix cut _) (by rw [List.length_take]; omega)

/-- Wherever the stream is cut, exactly the values whose frames lie wholly before the cut are
read, and nothing else ever is. -/
theorem Lawful.delivers_take (law : F.Lawful good closed) (xs : List α)
    (all : ∀ x ∈ xs, good x) (cut : Nat) :
    ∃ n, F.FramesWithin xs cut n ∧ F.Delivers closed xs n ((F.wire xs).take cut) := by
  induction xs generalizing cut with
  | nil =>
    obtain ⟨e, kind, read⟩ := law.ended
    refine ⟨0, .nil cut, ?_⟩
    rw [wire_nil, List.take_nil]
    exact law.delivers_none [] kind read
  | cons x xs ih =>
    have first := all x (by simp)
    by_cases whole : (F.frame x).length ≤ cut
    · obtain ⟨n, within, delivers⟩ :=
        ih (fun y member => all y (List.mem_cons_of_mem x member)) (cut - (F.frame x).length)
      refine ⟨n + 1, within.cons whole, ?_⟩
      rw [take_wire_cons whole]
      exact law.delivers_cons first delivers
    · have short : cut < (F.frame x).length := by omega
      obtain ⟨e, kind, read⟩ := law.read_short first short
      exact ⟨0, .short short, law.delivers_none (x :: xs) kind read⟩

end Framing

end Library

import Mathlib.Data.List.Basic
import Mathlib.Data.List.DropRight

/-! Python's strings, as lists of their characters. -/

namespace Library

namespace PyText

/-- `str.isspace` of one character, and `\s` of a regular expression. -/
def isSpace (c : Char) : Bool :=
  let n := c.toNat
  (9 ≤ n && n ≤ 13) || (28 ≤ n && n ≤ 32) || n == 0x85 || n == 0xa0 || n == 0x1680 ||
    (0x2000 ≤ n && n ≤ 0x200a) || n == 0x2028 || n == 0x2029 || n == 0x202f || n == 0x205f ||
    n == 0x3000

def lstrip (s : List Char) : List Char := s.dropWhile isSpace

def strip (s : List Char) : List Char := (lstrip s).rdropWhile isSpace

/-- `s[:n]`; a negative `n` counts from the end. -/
def sliceTo (s : List Char) (n : Int) : List Char :=
  if 0 ≤ n then s.take n.toNat else s.take (s.length - (-n).toNat)

/-- `s[n:]` -/
def sliceFrom (s : List Char) (n : Int) : List Char :=
  if 0 ≤ n then s.drop n.toNat else s.drop (s.length - (-n).toNat)

/-- `s.rfind(c)`: the last index of the character, or -1. -/
def rfind (c : Char) : List Char → Int
  | [] => -1
  | x :: rest =>
    if 0 ≤ rfind c rest then rfind c rest + 1 else if x = c then 0 else -1

/-- `" ".join(pieces)` -/
def join : List (List Char) → List Char
  | [] => []
  | [piece] => piece
  | piece :: next :: rest => piece ++ ' ' :: join (next :: rest)

/-- `s.split()` -/
def split (s : List Char) : List (List Char) := (s.splitOnP isSpace).filter (· ≠ [])

def showInt (n : Int) : List Char :=
  if 0 ≤ n then Nat.toDigits 10 n.toNat else '-' :: Nat.toDigits 10 (-n).toNat

def nonSpace (s : List Char) : List Char := s.filter fun c => !isSpace c

theorem isSpace_space : isSpace ' ' = true := rfl

@[simp] theorem nonSpace_nil : nonSpace [] = [] := rfl

@[simp] theorem nonSpace_append (s u : List Char) : nonSpace (s ++ u) = nonSpace s ++ nonSpace u :=
  List.filter_append s u

theorem nonSpace_cons (c : Char) (s : List Char) :
    nonSpace (c :: s) = if isSpace c then nonSpace s else c :: nonSpace s := by
  cases space : isSpace c <;> simp [nonSpace, space]

@[simp] theorem nonSpace_lstrip (s : List Char) : nonSpace (lstrip s) = nonSpace s := by
  induction s with
  | nil => rfl
  | cons c s ih =>
    rw [lstrip, List.dropWhile_cons, nonSpace_cons]
    cases space : isSpace c with
    | true =>
      rw [if_pos rfl, if_pos rfl]
      exact ih
    | false => simp [nonSpace_cons, space]

@[simp] theorem nonSpace_reverse (s : List Char) : nonSpace s.reverse = (nonSpace s).reverse := by
  rw [nonSpace, List.filter_reverse]
  rfl

@[simp] theorem nonSpace_strip (s : List Char) : nonSpace (strip s) = nonSpace s := by
  have back := nonSpace_lstrip (lstrip s).reverse
  rw [strip, List.rdropWhile, nonSpace_reverse]
  rw [lstrip] at back
  rw [back, nonSpace_reverse, List.reverse_reverse, nonSpace_lstrip]

theorem length_lstrip_le (s : List Char) : (lstrip s).length ≤ s.length :=
  (List.dropWhile_suffix isSpace).length_le

theorem length_strip_le (s : List Char) : (strip s).length ≤ s.length :=
  (List.rdropWhile_prefix isSpace (lstrip s)).length_le.trans (length_lstrip_le s)

theorem sliceTo_append_sliceFrom (s : List Char) (n : Int) : sliceTo s n ++ sliceFrom s n = s := by
  unfold sliceTo sliceFrom
  split <;> exact List.take_append_drop _ s

theorem nonSpace_slices (s : List Char) (n : Int) :
    nonSpace (sliceTo s n) ++ nonSpace (sliceFrom s n) = nonSpace s := by
  rw [← nonSpace_append, sliceTo_append_sliceFrom]

theorem sliceTo_natCast (s : List Char) (n : Nat) : sliceTo s n = s.take n := by
  simp [sliceTo]

theorem sliceFrom_natCast (s : List Char) (n : Nat) : sliceFrom s n = s.drop n := by
  simp [sliceFrom]

theorem sliceTo_zero (s : List Char) : sliceTo s 0 = [] := sliceTo_natCast s 0

theorem sliceFrom_zero (s : List Char) : sliceFrom s 0 = s := sliceFrom_natCast s 0

theorem rfind_cases (c : Char) (s : List Char) :
    (rfind c s = -1 ∧ c ∉ s) ∨
      ∃ i : Nat, rfind c s = i ∧ s[i]? = some c ∧ c ∉ s.drop (i + 1) := by
  induction s with
  | nil => exact .inl ⟨rfl, by simp⟩
  | cons x rest ih =>
    rcases ih with ⟨absent, none⟩ | ⟨i, found, atIndex, last⟩
    · rw [rfind, absent, if_neg (by decide)]
      by_cases same : x = c
      · refine .inr ⟨0, ?_, ?_, ?_⟩
        · rw [if_pos same]
          rfl
        · simp [same]
        · simpa using none
      · refine .inl ⟨by rw [if_neg same], ?_⟩
        simp [none, Ne.symm same]
    · refine .inr ⟨i + 1, ?_, ?_, ?_⟩
      · rw [rfind, found, if_pos (by omega)]
        push_cast
        rfl
      · simpa using atIndex
      · simpa using last

theorem rfind_of_notMem {c : Char} {s : List Char} (absent : c ∉ s) : rfind c s = -1 := by
  rcases rfind_cases c s with ⟨none, -⟩ | ⟨i, -, here, -⟩
  · exact none
  · exact absurd (List.mem_of_getElem? here) absent

theorem rfind_append_cons {c : Char} {t : List Char} (last : c ∉ t) (s : List Char) :
    rfind c (s ++ c :: t) = s.length := by
  induction s with
  | nil =>
    rw [List.nil_append, rfind, rfind_of_notMem last, if_neg (by decide), if_pos rfl]
    rfl
  | cons x s ih =>
    rw [List.cons_append, rfind, ih, if_pos (by omega), List.length_cons]
    push_cast
    rfl

theorem join_cons_cons (piece next : List Char) (rest : List (List Char)) :
    join (piece :: next :: rest) = piece ++ ' ' :: join (next :: rest) := rfl

theorem join_append (pieces : List (List Char)) (piece : List Char) (some_piece : pieces ≠ []) :
    join (pieces ++ [piece]) = join pieces ++ ' ' :: piece := by
  induction pieces with
  | nil => exact absurd rfl some_piece
  | cons first pieces ih =>
    cases pieces with
    | nil => rfl
    | cons second pieces =>
      have rest := ih (by simp)
      simp only [List.cons_append, join_cons_cons] at rest ⊢
      rw [rest, List.append_assoc, List.cons_append]

theorem join_ne_nil {g : List (List Char)} (some_piece : g ≠ []) (nonempty : ∀ p ∈ g, p ≠ []) :
    join g ≠ [] := by
  match g with
  | [] => exact absurd rfl some_piece
  | [p] => exact nonempty p (by simp)
  | p :: q :: rest =>
    rw [join_cons_cons]
    simp

theorem nonSpace_join (pieces : List (List Char)) :
    nonSpace (join pieces) = pieces.flatMap nonSpace := by
  induction pieces with
  | nil => rfl
  | cons first pieces ih =>
    cases pieces with
    | nil => simp [join]
    | cons second pieces =>
      rw [join_cons_cons, nonSpace_append, nonSpace_cons, if_pos isSpace_space, ih]
      rfl

@[simp] theorem split_nil : split [] = [] := by
  rw [split, List.splitOnP_nil]
  rfl

theorem split_append_space {c : Char} (space : isSpace c = true) (s u : List Char) :
    split (s ++ c :: u) = split s ++ split u := by
  rw [split, List.splitOnP_append_cons s u space, List.filter_append]
  rfl

theorem split_cons_space {c : Char} (space : isSpace c = true) (s : List Char) :
    split (c :: s) = split s := by
  have parts := split_append_space space [] s
  rwa [List.nil_append, split_nil, List.nil_append] at parts

theorem split_append_spaces {spaces : List Char} (all : ∀ c ∈ spaces, isSpace c = true)
    (s : List Char) : split (spaces ++ s) = split s := by
  induction spaces with
  | nil => rfl
  | cons c spaces ih =>
    rw [List.cons_append, split_cons_space (all c (by simp))]
    exact ih fun d member => all d (List.mem_cons_of_mem _ member)

theorem split_spaces_append {spaces : List Char} (all : ∀ c ∈ spaces, isSpace c = true)
    (s : List Char) : split (s ++ spaces) = split s := by
  cases spaces with
  | nil => rw [List.append_nil]
  | cons c spaces =>
    have none := split_append_spaces (fun d member => all d (List.mem_cons_of_mem _ member)) []
    rw [List.append_nil, split_nil] at none
    rw [split_append_space (all c (by simp)), none, List.append_nil]

theorem split_of_visible {s : List Char} (filled : s ≠ []) (visible : ∀ c ∈ s, isSpace c = false) :
    split s = [s] := by
  rw [split, List.splitOnP_eq_singleton visible, List.filter_singleton]
  simp [filled]

theorem split_strip (s : List Char) : split (strip s) = split s := by
  have front := @split_append_spaces (s.takeWhile isSpace)
    (fun _ member => List.mem_takeWhile_imp member) (s.dropWhile isSpace)
  rw [List.takeWhile_append_dropWhile] at front
  have back := @split_spaces_append ((lstrip s).rtakeWhile isSpace)
    (fun _ member => List.mem_rtakeWhile_imp member) (strip s)
  rw [strip, List.rdropWhile_append_rtakeWhile] at back
  exact back.symm.trans front.symm

theorem split_join (pieces : List (List Char)) : split (join pieces) = pieces.flatMap split := by
  induction pieces with
  | nil => exact split_nil
  | cons first pieces ih =>
    cases pieces with
    | nil => simp [join]
    | cons second pieces =>
      rw [join_cons_cons, split_append_space isSpace_space, ih]
      rfl

theorem flatten_split (s : List Char) : (split s).flatten = nonSpace s := by
  rw [split, List.flatten_filter_ne_nil]
  induction s with
  | nil => rfl
  | cons c s ih =>
    rw [List.splitOnP_cons_eq_if_modifyHead, nonSpace_cons]
    split
    · exact ih
    · obtain ⟨first, rest, parts⟩ := List.exists_cons_of_ne_nil (List.splitOnP_ne_nil isSpace s)
      rw [parts] at ih ⊢
      rw [List.modifyHead_cons, List.flatten_cons, List.cons_append, ← List.flatten_cons, ih]

theorem isSpace_of_mem_splitOnP {s part : List Char} (member : part ∈ s.splitOnP isSpace) :
    ∀ c ∈ part, isSpace c = false := by
  induction s generalizing part with
  | nil =>
    rw [List.splitOnP_nil, List.mem_singleton] at member
    simp [member]
  | cons c s ih =>
    rw [List.splitOnP_cons_eq_if_modifyHead] at member
    split at member
    · rcases List.mem_cons.mp member with rfl | later
      · simp
      · exact ih later
    · rename_i visible
      obtain ⟨first, rest, parts⟩ := List.exists_cons_of_ne_nil (List.splitOnP_ne_nil isSpace s)
      rw [parts, List.modifyHead_cons] at member
      rw [parts] at ih
      rcases List.mem_cons.mp member with rfl | later
      · intro d inside
        rcases List.mem_cons.mp inside with rfl | inside
        · simpa using visible
        · exact ih (List.mem_cons_self ..) d inside
      · exact ih (List.mem_cons_of_mem _ later)

theorem mem_split {s w : List Char} (member : w ∈ split s) :
    w ≠ [] ∧ ∀ c ∈ w, isSpace c = false := by
  obtain ⟨part, filled⟩ := List.mem_filter.mp member
  exact ⟨by simpa using filled, isSpace_of_mem_splitOnP part⟩

theorem split_join_split (s : List Char) : split (join (split s)) = split s := by
  have single : ∀ w ∈ split s, split w = [w] :=
    fun w member => split_of_visible (mem_split member).1 (mem_split member).2
  rw [split_join, List.flatMap_congr single, List.flatMap_singleton']

theorem mem_takeWhile_isSpace {s : List Char} {i : Nat} (inside : i < (s.takeWhile isSpace).length) :
    ∃ c, s[i]? = some c ∧ isSpace c = true := by
  have before := List.takeWhile_append_dropWhile (p := isSpace) (l := s)
  refine ⟨(s.takeWhile isSpace)[i], ?_, List.mem_takeWhile_imp (List.getElem_mem inside)⟩
  rw [← List.getElem?_eq_getElem inside, ← List.getElem?_append_left inside, before]

theorem lstrip_of_head {c : Char} {s : List Char} (visible : isSpace c = false) :
    lstrip (c :: s) = c :: s := by
  simp [lstrip, visible]

theorem lstrip_of_visible {s : List Char} (visible : ∀ c ∈ s, isSpace c = false) : lstrip s = s := by
  cases s with
  | nil => rfl
  | cons c s => exact lstrip_of_head (visible c (by simp))

theorem strip_of_visible {s : List Char} (visible : ∀ c ∈ s, isSpace c = false) : strip s = s := by
  rw [strip, lstrip_of_visible visible, List.rdropWhile]
  have back := lstrip_of_visible (s := s.reverse) (by simpa using visible)
  rw [lstrip] at back
  rw [back, List.reverse_reverse]

theorem isSpace_of_lstrip {s : List Char} {c : Char} {rest : List Char}
    (left : lstrip s = c :: rest) : isSpace c = false := by
  induction s with
  | nil => cases left
  | cons x s ih =>
    rw [lstrip, List.dropWhile_cons] at left
    split at left
    · exact ih left
    · rename_i visible
      obtain ⟨rfl, -⟩ := List.cons.inj left
      simpa using visible

theorem lstrip_strip (s : List Char) : lstrip (strip s) = strip s := by
  cases kept : strip s with
  | nil => rfl
  | cons c rest =>
    obtain ⟨more, whole⟩ := List.rdropWhile_prefix isSpace (lstrip s)
    change strip s ++ more = lstrip s at whole
    rw [kept, List.cons_append] at whole
    exact lstrip_of_head (isSpace_of_lstrip whole.symm)

@[simp] theorem strip_strip (s : List Char) : strip (strip s) = strip s := by
  rw [strip, lstrip_strip]
  exact List.rdropWhile_idempotent isSpace (lstrip s)

theorem strip_eq_nil {s : List Char} (blank : nonSpace s = []) : strip s = [] := by
  have all : ∀ c ∈ s, isSpace c = true := by
    intro c member
    have hidden : c ∉ nonSpace s := by rw [blank]; simp
    by_contra visible
    exact hidden (List.mem_filter.mpr ⟨member, by simpa using visible⟩)
  have left : lstrip s = [] := by
    rw [lstrip, List.dropWhile_eq_nil_iff]
    exact all
  rw [strip, left]
  rfl

theorem isDigit_of_mem_toDigits {n : Nat} {c : Char} (member : c ∈ Nat.toDigits 10 n) : c.isDigit :=
  Nat.isDigit_of_mem_toDigits (by decide) (by decide) member

theorem mem_showInt {n : Int} {c : Char} (member : c ∈ showInt n) : c.isDigit ∨ c = '-' := by
  unfold showInt at member
  split at member
  · exact .inl (isDigit_of_mem_toDigits member)
  · rcases List.mem_cons.mp member with rfl | digit
    · exact .inr rfl
    · exact .inl (isDigit_of_mem_toDigits digit)

theorem toDigits_injective {n m : Nat} (same : Nat.toDigits 10 n = Nat.toDigits 10 m) : n = m := by
  have read := congrArg (Nat.ofDigitChars 10 · 0) same
  simpa [Nat.ofDigitChars_ten_toDigits] using read

theorem showInt_injective {n m : Int} (same : showInt n = showInt m) : n = m := by
  have unsigned : ∀ {k l : Nat}, Nat.toDigits 10 k ≠ '-' :: Nat.toDigits 10 l := by
    intro k l clash
    have digit := isDigit_of_mem_toDigits (n := k) (c := '-') (by rw [clash]; simp)
    exact absurd digit (by decide)
  unfold showInt at same
  split at same <;> split at same
  · have := toDigits_injective same
    omega
  · exact absurd same unsigned
  · exact absurd same.symm unsigned
  · have := toDigits_injective (List.cons.inj same).2
    omega

theorem append_cons_inj {c : Char} {s s' t t' : List Char} (free : c ∉ s) (free' : c ∉ s')
    (same : s ++ c :: t = s' ++ c :: t') : s = s' ∧ t = t' := by
  induction s generalizing s' with
  | nil =>
    cases s' with
    | nil => exact ⟨rfl, (List.cons.inj same).2⟩
    | cons x s' =>
      have first := (List.cons.inj same).1
      simp [first] at free'
  | cons x s ih =>
    cases s' with
    | nil =>
      have first := (List.cons.inj same).1
      simp [first] at free
    | cons y s' =>
      obtain ⟨rfl, rest⟩ := List.cons.inj same
      obtain ⟨rfl, rfl⟩ := ih (by simp_all) (by simp_all) rest
      exact ⟨rfl, rfl⟩

end PyText

end Library

import Mathlib.Data.List.Basic
import Mathlib.Data.List.DropRight

/-! Text that is read line by line, and blocks of lines that a line of its own ends. Dot-stuffing
keeps that line from coming up within a block. -/

namespace Library

namespace LineBlocks

universe u v w

section Lines

variable {γ : Type u} [DecidableEq γ] (newline : γ)

/-- What `readline` returns, call after call, before it comes to the end. -/
def lines : List γ → List (List γ)
  | [] => []
  | c :: rest =>
    if c = newline then [c] :: lines rest
    else
      match lines rest with
      | [] => [[c]]
      | line :: more => (c :: line) :: more

variable {newline}

theorem flatten_lines (text : List γ) : (lines newline text).flatten = text := by
  induction text with
  | nil => rfl
  | cons c rest ih =>
    rw [lines]
    split
    · rw [List.flatten_cons, ih]
      rfl
    · cases cut : lines newline rest with
      | nil => simpa [cut] using ih
      | cons line more => simpa [cut] using ih

theorem lines_line {line : List γ} (whole : newline ∉ line) (rest : List γ) :
    lines newline (line ++ newline :: rest) = (line ++ [newline]) :: lines newline rest := by
  induction line with
  | nil => rw [List.nil_append, lines, if_pos rfl, List.nil_append]
  | cons c line ih =>
    obtain ⟨other, whole⟩ := not_or.mp (mt List.mem_cons.mpr whole)
    rw [List.cons_append, lines, if_neg (Ne.symm other), ih whole]
    rfl

end Lines

section Blocks

variable {α : Type u} {β : Type v} {γ : Type w} (ends : α → Bool) (decode : α → β)

/-- The lines before the first that ends the block, decoded, and those after it. -/
def readBlock : List α → List β × List α
  | [] => ([], [])
  | line :: rest =>
    if ends line then ([], rest)
    else (decode line :: (readBlock rest).1, (readBlock rest).2)

variable {ends decode} {encode : γ → α} {shown : γ → β}

theorem readBlock_encoded (apart : ∀ x, ends (encode x) = false) (back : ∀ x, decode (encode x) = shown x)
    {last : α} (isLast : ends last = true) (body : List γ) (further : List α) :
    readBlock ends decode (body.map encode ++ last :: further) = (body.map shown, further) := by
  induction body with
  | nil => rw [List.map_nil, List.nil_append, readBlock, if_pos isLast, List.map_nil]
  | cons x body ih =>
    rw [List.map_cons, List.cons_append, readBlock, apart, if_neg (by decide), ih, back, List.map_cons]

theorem length_readBlock_le (input : List α) : (readBlock ends decode input).2.length ≤ input.length := by
  induction input with
  | nil => exact Nat.le_refl 0
  | cons line rest ih =>
    rw [readBlock]
    split
    · exact Nat.le_succ _
    · exact ih.trans (Nat.le_succ _)

end Blocks

section Stuffing

variable {γ : Type u} [DecidableEq γ] (dot : γ)

def stuff (line : List γ) : List γ := if line.head? = some dot then dot :: line else line

def unstuff (line : List γ) : List γ := if [dot, dot] <+: line then line.tail else line

variable {dot} {blank : γ → Bool}

theorem mem_stuff {c : γ} {line : List γ} (stuffed : c ∈ stuff dot line) : c = dot ∨ c ∈ line := by
  unfold stuff at stuffed
  split at stuffed
  · exact List.mem_cons.mp stuffed
  · exact .inr stuffed

theorem unstuff_stuff (line : List γ) (last : γ) : unstuff dot (stuff dot line ++ [last]) = line ++ [last] := by
  cases line with
  | nil => simp [stuff, unstuff]
  | cons c line =>
    by_cases same : c = dot
    · simp [stuff, unstuff, same]
    · simp [stuff, unstuff, same, Ne.symm same]

/-- A stuffed line is not the dot alone, whatever is taken from its end. -/
theorem rdropWhile_stuff_ne (line : List γ) {last : γ} (dropped : blank last = true)
    (stays : blank dot = false) : (stuff dot line ++ [last]).rdropWhile blank ≠ [dot] := by
  rw [List.rdropWhile_concat_pos _ _ _ dropped]
  intro alone
  have whole : (stuff dot line).rdropWhile blank ++ (stuff dot line).rtakeWhile blank = stuff dot line :=
    List.rdropWhile_append_rtakeWhile
  rw [alone, List.singleton_append] at whole
  by_cases first : line.head? = some dot
  · -- the dot that the line itself starts with would have been taken from the end
    have stuffed : stuff dot line = dot :: line := if_pos first
    rw [stuffed, List.cons.injEq] at whole
    have taken : dot ∈ (dot :: line).rtakeWhile blank := by
      rw [whole.2]
      exact List.mem_of_head? first
    rw [List.mem_rtakeWhile_imp taken] at stays
    cases stays
  · have stuffed : stuff dot line = line := if_neg first
    rw [stuffed] at whole
    rw [← whole] at first
    exact first rfl

end Stuffing

end LineBlocks

end Library

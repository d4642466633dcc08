import NeuralTts.Library.PyText

/-! The lines of Python's strings: `str.splitlines`, universal newlines and `"\n".join`. -/

namespace Library

namespace PyText

def rstrip (s : List Char) : List Char := s.rdropWhile isSpace

/-- A line boundary of `str.splitlines`. -/
def isLineBreak (c : Char) : Bool :=
  let n := c.toNat
  (10 ≤ n && n ≤ 13) || (28 ≤ n && n ≤ 30) || n == 0x85 || n == 0x2028 || n == 0x2029

/-- The lines with `c` in front of the first. -/
def consFirst (c : Char) : List (List Char) → List (List Char)
  | [] => [[c]]
  | line :: lines => (c :: line) :: lines

def splitlines : List Char → List (List Char)
  | [] => []
  | '\r' :: '\n' :: rest => [] :: splitlines rest
  | c :: rest => if isLineBreak c then [] :: splitlines rest else consFirst c (splitlines rest)

/-- What a file opened as text reads of these characters. -/
def newlines : List Char → List Char
  | [] => []
  | '\r' :: '\n' :: rest => '\n' :: newlines rest
  | c :: rest => (if c = '\r' then '\n' else c) :: newlines rest

/-- `"\n".join(lines)` -/
def joinLines : List (List Char) → List Char
  | [] => []
  | [line] => line
  | line :: next :: rest => line ++ '\n' :: joinLines (next :: rest)

/-- What `rstrip` leaves of joined lines: the last one that is not blank, without its end, and
those before it. -/
def trimmed : List (List Char) → List (List Char)
  | [] => []
  | line :: rest =>
    match trimmed rest with
    | [] => if rstrip line = [] then [] else [rstrip line]
    | next :: rest => line :: next :: rest

-- Their equations, made once and not by every proof that unfolds one.
attribute [grind =] splitlines newlines joinLines trimmed

def Unbroken (s : List Char) : Prop := ∀ c ∈ s, isLineBreak c = false

variable {s t rest line needle : List Char} {lines more : List (List Char)} {c : Char}

theorem splitlines_cons_of_ne (other : c ≠ '\r') (rest : List Char) : splitlines (c :: rest) =
    if isLineBreak c then [] :: splitlines rest else consFirst c (splitlines rest) := by
  rw [splitlines]
  intro rest' same
  exact absurd same other

theorem splitlines_cons_of_unbroken (unbroken : isLineBreak c = false) (rest : List Char) :
    splitlines (c :: rest) = consFirst c (splitlines rest) := by
  have other : c ≠ '\r' := by
    rintro rfl
    cases unbroken
  rw [splitlines_cons_of_ne other, if_neg (by simp [unbroken])]

theorem splitlines_newline (rest : List Char) : splitlines ('\n' :: rest) = [] :: splitlines rest := by
  rw [splitlines_cons_of_ne (by decide), if_pos (by decide)]

theorem consFirst_ne_nil : consFirst c lines ≠ [] := by
  cases lines <;> exact List.cons_ne_nil _ _

theorem consFirst_append (some_line : lines ≠ []) (more : List (List Char)) :
    consFirst c (lines ++ more) = consFirst c lines ++ more := by
  cases lines with
  | nil => exact absurd rfl some_line
  | cons line lines => rfl

theorem splitlines_ne_nil (filled : s ≠ []) : splitlines s ≠ [] := by
  fun_cases splitlines s with
  | case1 => exact absurd rfl filled
  | case2 rest => exact List.cons_ne_nil _ _
  | case3 c rest other breaks => exact List.cons_ne_nil _ _
  | case4 c rest other unbroken => exact consFirst_ne_nil

/-- What one more character in front does to the lines. -/
theorem splitlines_cons (c : Char) (s : List Char) :
    (∃ rest, s = '\n' :: rest ∧ splitlines (c :: s) = splitlines s) ∨
      splitlines (c :: s) = [] :: splitlines s ∨
      isLineBreak c = false ∧ splitlines (c :: s) = consFirst c (splitlines s) := by
  by_cases paired : c = '\r' ∧ ∃ rest, s = '\n' :: rest
  · obtain ⟨rfl, rest, rfl⟩ := paired
    exact .inl ⟨rest, rfl, by rw [splitlines, splitlines_newline]⟩
  · have step : splitlines (c :: s) =
        if isLineBreak c then [] :: splitlines s else consFirst c (splitlines s) := by
      rw [splitlines]
      exact fun rest first second => paired ⟨first, rest, second⟩
    right
    cases breaks : isLineBreak c with
    | true => exact .inl (by rw [step, breaks, if_pos rfl])
    | false => exact .inr ⟨rfl, by rw [step, breaks]; rfl⟩

theorem unbroken_of_mem_splitlines (member : line ∈ splitlines s) : Unbroken line := by
  induction s generalizing line with
  | nil => cases member
  | cons c s ih =>
    rcases splitlines_cons c s with ⟨rest, -, same⟩ | same | ⟨whole, same⟩
    · exact ih (same ▸ member)
    · rw [same] at member
      rcases List.mem_cons.mp member with rfl | later
      · exact fun c none => nomatch none
      · exact ih later
    · rw [same] at member
      cases first : splitlines s with
      | nil =>
        rw [first] at member
        rw [List.mem_singleton.mp member]
        exact fun d inside => List.mem_singleton.mp inside ▸ whole
      | cons line' lines' =>
        rw [first] at member ih
        rcases List.mem_cons.mp member with rfl | later
        · intro d inside
          rcases List.mem_cons.mp inside with rfl | further
          · exact whole
          · exact ih List.mem_cons_self d further
        · exact ih (List.mem_cons_of_mem _ later)

theorem splitlines_newlines (raw : List Char) : splitlines (newlines raw) = splitlines raw := by
  induction raw using newlines.induct with
  | case1 => rfl
  | case2 rest ih =>
    rw [newlines, splitlines_newline, ih, splitlines]
  | case3 c rest other ih =>
    by_cases carriageReturn : c = '\r'
    · rw [newlines, if_pos carriageReturn, splitlines_newline, ih, splitlines, if_pos (by rw [carriageReturn]; decide)]
      · exact other
      · exact other
    · rw [newlines, if_neg carriageReturn, splitlines_cons_of_ne carriageReturn, splitlines_cons_of_ne carriageReturn, ih]
      exact other

theorem newlines_of_notMem (none : '\r' ∉ s) : newlines s = s := by
  induction s with
  | nil => rfl
  | cons c rest ih =>
    rw [List.mem_cons, not_or] at none
    rw [newlines, if_neg (Ne.symm none.1), ih none.2]
    intro rest' same
    exact absurd same.symm none.1

/-- A newline ends the line before it, if one is open, and else is a blank line. -/
theorem splitlines_append_newline (s rest : List Char) :
    ∃ blank : List (List Char), (∀ line ∈ blank, line = []) ∧
      splitlines (s ++ '\n' :: rest) = splitlines s ++ blank ++ splitlines rest := by
  induction s using splitlines.induct with
  | case1 => exact ⟨[[]], by simp, splitlines_newline rest⟩
  | case2 s ih =>
    obtain ⟨blank, empty, same⟩ := ih
    refine ⟨blank, empty, ?_⟩
    rw [List.cons_append, List.cons_append, splitlines, same, splitlines]
    rfl
  | case3 c s other breaks ih =>
    obtain ⟨blank, empty, same⟩ := ih
    have alone : splitlines (c :: s) = [] :: splitlines s := by rw [splitlines, if_pos breaks]; exact other
    by_cases carriageReturn : c = '\r'
    · subst carriageReturn
      cases s with
      | nil => exact ⟨[], by simp, by rw [alone, List.cons_append, List.nil_append, splitlines]; rfl⟩
      | cons d s =>
        refine ⟨blank, empty, ?_⟩
        have apart : ∀ rest', '\r' = '\r' → d :: (s ++ '\n' :: rest) = '\n' :: rest' → False := by
          intro rest' _ starts
          exact other s rfl (by rw [(List.cons.inj starts).1])
        rw [alone, List.cons_append, List.cons_append, splitlines, if_pos breaks, ← List.cons_append, same]
        · rfl
        · exact apart
    · refine ⟨blank, empty, ?_⟩
      rw [List.cons_append, splitlines_cons_of_ne carriageReturn, splitlines_cons_of_ne carriageReturn,
        if_pos breaks, if_pos breaks, same]
      rfl
  | case4 c s other unbroken ih =>
    obtain ⟨blank, empty, same⟩ := ih
    have whole : isLineBreak c = false := by simpa using unbroken
    rw [List.cons_append, splitlines_cons_of_unbroken whole, splitlines_cons_of_unbroken whole]
    by_cases none : s = []
    · subst none
      refine ⟨[], by simp, ?_⟩
      rw [List.nil_append, splitlines_newline]
      rfl
    · refine ⟨blank, empty, ?_⟩
      rw [same, List.append_assoc, consFirst_append (splitlines_ne_nil none), List.append_assoc]

theorem splitlines_line (unbroken : Unbroken line) (rest : List Char) :
    splitlines (line ++ '\n' :: rest) = line :: splitlines rest := by
  induction line with
  | nil => exact splitlines_newline rest
  | cons c line ih =>
    rw [List.cons_append, splitlines_cons_of_unbroken (unbroken c List.mem_cons_self),
      ih fun d inside => unbroken d (List.mem_cons_of_mem _ inside)]
    rfl

theorem splitlines_joinLines (some_line : lines ≠ []) (unbroken : ∀ line ∈ lines, Unbroken line) :
    splitlines (joinLines lines ++ ['\n']) = lines := by
  induction lines with
  | nil => exact absurd rfl some_line
  | cons line rest ih =>
    have first := unbroken line List.mem_cons_self
    cases rest with
    | nil => exact splitlines_line first []
    | cons next rest =>
      rw [joinLines, List.append_assoc, List.cons_append, splitlines_line first,
        ih (List.cons_ne_nil _ _) fun line member => unbroken line (List.mem_cons_of_mem _ member)]

theorem prefix_head_splitlines (filled : needle ≠ []) (unbroken : Unbroken needle) (starts : needle <+: s) :
    ∃ line lines, splitlines s = line :: lines ∧ needle <+: line := by
  induction needle generalizing s with
  | nil => exact absurd rfl filled
  | cons c needle ih =>
    obtain ⟨rest, rfl⟩ := starts
    have whole := unbroken c List.mem_cons_self
    rw [List.cons_append, splitlines_cons_of_unbroken whole]
    by_cases last : needle = []
    · subst last
      rw [List.nil_append]
      cases splitlines rest with
      | nil => exact ⟨[c], [], rfl, List.prefix_rfl⟩
      | cons line lines => exact ⟨c :: line, lines, rfl, ⟨line, rfl⟩⟩
    · obtain ⟨line, lines, same, first⟩ :=
        ih last (fun d inside => unbroken d (List.mem_cons_of_mem _ inside)) ⟨rest, rfl⟩
      rw [same]
      exact ⟨c :: line, lines, rfl, List.cons_prefix_cons.mpr ⟨rfl, first⟩⟩

theorem prefix_of_splitlines_eq_cons (split : splitlines s = line :: lines) : line <+: s := by
  induction s generalizing line lines with
  | nil => cases split
  | cons c s ih =>
    rcases splitlines_cons c s with ⟨rest, rfl, same⟩ | same | ⟨-, same⟩
    · rw [same, splitlines_newline] at split
      cases split
      exact List.nil_prefix
    · rw [same] at split
      cases split
      exact List.nil_prefix
    · rw [same] at split
      cases first : splitlines s with
      | nil =>
        rw [first] at split
        cases split
        exact ⟨s, rfl⟩
      | cons line' lines' =>
        rw [first] at split
        cases split
        exact List.cons_prefix_cons.mpr ⟨rfl, ih first⟩

theorem infix_of_mem_splitlines (member : line ∈ splitlines s) : line <:+: s := by
  induction s generalizing line with
  | nil => cases member
  | cons c s ih =>
    rcases splitlines_cons c s with ⟨rest, -, same⟩ | same | ⟨-, same⟩
    · exact List.infix_cons (ih (same ▸ member))
    · rw [same] at member
      rcases List.mem_cons.mp member with rfl | later
      · exact List.nil_infix
      · exact List.infix_cons (ih later)
    · cases first : splitlines s with
      | nil =>
        rw [same, first] at member
        rw [List.mem_singleton.mp member]
        exact ⟨[], s, rfl⟩
      | cons line' lines' =>
        rw [first] at same ih
        rw [same] at member
        rcases List.mem_cons.mp member with rfl | later
        · exact (prefix_of_splitlines_eq_cons same).isInfix
        · exact List.infix_cons (ih (List.mem_cons_of_mem _ later))

theorem exists_infix_splitlines_cons (c : Char) (member : line ∈ splitlines s) :
    ∃ longer ∈ splitlines (c :: s), line <:+: longer := by
  rcases splitlines_cons c s with ⟨rest, -, same⟩ | same | ⟨-, same⟩
  · exact ⟨line, same ▸ member, List.infix_rfl⟩
  · exact ⟨line, same ▸ List.mem_cons_of_mem _ member, List.infix_rfl⟩
  · rw [same]
    cases first : splitlines s with
    | nil =>
      rw [first] at member
      cases member
    | cons line' lines' =>
      rw [first] at member
      rcases List.mem_cons.mp member with rfl | later
      · exact ⟨c :: line, List.mem_cons_self, List.infix_cons List.infix_rfl⟩
      · exact ⟨line, List.mem_cons_of_mem _ later, List.infix_rfl⟩

/-- What has no line boundary stands in a text only within one of its lines. -/
theorem infix_iff_splitlines (filled : needle ≠ []) (unbroken : Unbroken needle) :
    needle <:+: s ↔ ∃ line ∈ splitlines s, needle <:+: line := by
  constructor
  · rintro ⟨before, after, rfl⟩
    induction before with
    | nil =>
      obtain ⟨line, lines, same, first⟩ := prefix_head_splitlines filled unbroken ⟨after, rfl⟩
      exact ⟨line, by rw [List.nil_append, same]; exact List.mem_cons_self, first.isInfix⟩
    | cons c before ih =>
      obtain ⟨line, member, inside⟩ := ih
      obtain ⟨longer, there, within⟩ := exists_infix_splitlines_cons c member
      exact ⟨longer, there, inside.trans within⟩
  · rintro ⟨line, member, inside⟩
    exact inside.trans (infix_of_mem_splitlines member)

theorem rstrip_append (s t : List Char) :
    rstrip (s ++ t) = if rstrip t = [] then rstrip s else s ++ rstrip t := by
  rw [rstrip, List.rdropWhile, List.reverse_append, List.dropWhile_append]
  by_cases blank : t.reverse.dropWhile isSpace = []
  · have none : rstrip t = [] := by rw [rstrip, List.rdropWhile, blank, List.reverse_nil]
    rw [blank, if_pos none]
    rfl
  · have some : rstrip t ≠ [] := by simpa [rstrip, List.rdropWhile] using blank
    rw [if_neg (by simpa using blank), if_neg some, List.reverse_append, List.reverse_reverse]
    rfl

theorem rstrip_eq_nil : rstrip s = [] ↔ ∀ c ∈ s, isSpace c = true := List.rdropWhile_eq_nil_iff

theorem rstrip_isPrefix (s : List Char) : rstrip s <+: s := List.rdropWhile_prefix isSpace s

theorem rstrip_rstrip (s : List Char) : rstrip (rstrip s) = rstrip s :=
  List.rdropWhile_idempotent isSpace s

theorem lstrip_append (s t : List Char) :
    lstrip (s ++ t) = if lstrip s = [] then lstrip t else lstrip s ++ t := by
  rw [lstrip, List.dropWhile_append]
  by_cases blank : lstrip s = []
  · rw [if_pos blank, if_pos (by simpa [lstrip] using blank)]
    rfl
  · rw [if_neg blank, if_neg (by simpa [lstrip] using blank)]
    rfl

theorem lstrip_eq_nil : lstrip s = [] ↔ ∀ c ∈ s, isSpace c = true := List.dropWhile_eq_nil_iff

theorem strip_eq (s : List Char) : strip s = rstrip (lstrip s) := rfl

theorem strip_eq_nil_iff : strip s = [] ↔ rstrip s = [] := by
  rw [strip_eq, rstrip_eq_nil, rstrip_eq_nil]
  constructor
  · intro blank
    refine lstrip_eq_nil.mp ?_
    by_contra filled
    obtain ⟨c, rest, same⟩ := List.exists_cons_of_ne_nil filled
    have space := blank c (same ▸ List.mem_cons_self)
    rw [isSpace_of_lstrip same] at space
    cases space
  · exact fun blank c member => blank c ((List.dropWhile_suffix isSpace).subset member)

theorem strip_rstrip (s : List Char) : strip (rstrip s) = strip s := by
  have whole : rstrip s ++ s.rtakeWhile isSpace = s := List.rdropWhile_append_rtakeWhile
  have blank : ∀ c ∈ s.rtakeWhile isSpace, isSpace c = true := fun _ => List.mem_rtakeWhile_imp
  conv_rhs => rw [← whole, strip_eq, lstrip_append]
  by_cases none : lstrip (rstrip s) = []
  · rw [if_pos none, lstrip_eq_nil.mpr blank, strip_eq, none]
  · rw [if_neg none, rstrip_append, if_pos (rstrip_eq_nil.mpr blank), strip_eq]

theorem infix_rstrip (filled : needle ≠ []) (solid : rstrip needle = needle) :
    needle <:+: rstrip s ↔ needle <:+: s := by
  constructor
  · exact fun inside => inside.trans (rstrip_isPrefix s).isInfix
  · rintro ⟨before, after, rfl⟩
    rw [rstrip_append, rstrip_append, solid, if_neg filled]
    split
    · exact ⟨before, [], List.append_nil _⟩
    · exact ⟨before, rstrip after, rfl⟩

theorem infix_lstrip (filled : needle ≠ []) (solid : lstrip needle = needle) :
    needle <:+: lstrip s ↔ needle <:+: s := by
  constructor
  · exact fun inside => inside.trans (List.dropWhile_suffix isSpace).isInfix
  · rintro ⟨before, after, rfl⟩
    rw [lstrip_append, lstrip_append, solid]
    by_cases blank : lstrip before = []
    · rw [if_pos blank, if_neg filled]
      exact ⟨[], after, rfl⟩
    · rw [if_neg blank, if_neg (by simp [blank])]
      exact ⟨lstrip before, after, rfl⟩

theorem infix_strip (filled : needle ≠ []) (left : lstrip needle = needle) (right : rstrip needle = needle) :
    needle <:+: strip s ↔ needle <:+: s := by
  rw [strip_eq, infix_rstrip filled right, infix_lstrip filled left]

theorem strip_isInfix (s : List Char) : strip s <:+: s :=
  (rstrip_isPrefix (lstrip s)).isInfix.trans (List.dropWhile_suffix isSpace).isInfix

theorem split_rstrip (s : List Char) : split (rstrip s) = split s := by
  rw [← split_strip (rstrip s), strip_rstrip, split_strip]

theorem joinLines_ne_nil (some_line : lines ≠ []) (filled : ∀ line ∈ lines.getLast?, line ≠ []) :
    joinLines lines ≠ [] := by
  cases lines with
  | nil => exact absurd rfl some_line
  | cons line rest =>
    cases rest with
    | nil => exact filled line rfl
    | cons next rest => simp [joinLines]

theorem trimmed_getLast? : ∀ line ∈ (trimmed lines).getLast?, line ≠ [] ∧ rstrip line = line := by
  induction lines with
  | nil => exact fun _ none => nomatch none
  | cons line rest ih =>
    rw [trimmed]
    cases later : trimmed rest with
    | nil =>
      dsimp only
      split
      · exact fun _ none => nomatch none
      · rename_i filled
        intro last same
        cases same
        exact ⟨filled, rstrip_rstrip line⟩
    | cons next others =>
      rw [later] at ih
      exact ih

theorem rstrip_joinLines (lines : List (List Char)) : rstrip (joinLines lines) = joinLines (trimmed lines) := by
  induction lines with
  | nil => rfl
  | cons line rest ih =>
    cases rest with
    | nil =>
      rw [trimmed, trimmed, joinLines]
      dsimp only
      split
      · assumption
      · rfl
    | cons next rest =>
      have newline : joinLines (line :: next :: rest) = (line ++ ['\n']) ++ joinLines (next :: rest) := by
        rw [joinLines, List.append_assoc]
        rfl
      have first : trimmed (line :: next :: rest) = match trimmed (next :: rest) with
          | [] => if rstrip line = [] then [] else [rstrip line]
          | next :: rest => line :: next :: rest := rfl
      rw [newline, rstrip_append, ih, first]
      cases later : trimmed (next :: rest) with
      | nil =>
        have empty : joinLines [] = [] := rfl
        rw [if_pos empty, rstrip_append, if_pos (by decide)]
        dsimp only
        split
        · assumption
        · rfl
      | cons last others =>
        have some_line : joinLines (last :: others) ≠ [] := by
          refine joinLines_ne_nil (List.cons_ne_nil _ _) fun line member => ?_
          exact (trimmed_getLast? line (later ▸ member)).1
        rw [if_neg some_line, List.append_assoc]
        rfl

theorem trimmed_eq_nil : trimmed lines = [] ↔ ∀ line ∈ lines, rstrip line = [] := by
  induction lines with
  | nil => simp [trimmed]
  | cons line rest ih =>
    rw [trimmed, List.forall_mem_cons, ← ih]
    cases trimmed rest with
    | nil =>
      dsimp only
      split <;> simp_all
    | cons next rest => simp

theorem trimmed_append_blank (blank : ∀ line ∈ more, rstrip line = []) : trimmed (lines ++ more) = trimmed lines := by
  induction lines with
  | nil => exact trimmed_eq_nil.mpr blank
  | cons line rest ih => rw [List.cons_append, trimmed, ih, trimmed]

theorem trimmed_append (filled : trimmed more ≠ []) : trimmed (lines ++ more) = lines ++ trimmed more := by
  obtain ⟨next, others, same⟩ := List.exists_cons_of_ne_nil filled
  induction lines with
  | nil => rfl
  | cons line rest ih =>
    rw [List.cons_append, trimmed, ih, same]
    cases rest <;> rfl

theorem mem_trimmed_of_solid (solid : rstrip line = line) (filled : line ≠ []) (member : line ∈ lines) :
    line ∈ trimmed lines := by
  induction lines with
  | nil => cases member
  | cons first rest ih =>
    rw [trimmed]
    cases later : trimmed rest with
    | nil =>
      rcases List.mem_cons.mp member with rfl | inside
      · dsimp only
        rw [solid, if_neg filled]
        exact List.mem_singleton_self line
      · rw [trimmed_eq_nil.mp later line inside] at solid
        exact absurd solid.symm filled
    | cons next others =>
      rw [later] at ih
      rcases List.mem_cons.mp member with rfl | inside
      · exact List.mem_cons_self
      · exact List.mem_cons_of_mem first (ih inside)

/-- Blank lines at the end leave nothing behind. -/
theorem rstrip_joinLines_append_blank (blank : ∀ line ∈ more, rstrip line = []) :
    rstrip (joinLines (lines ++ more)) = rstrip (joinLines lines) := by
  rw [rstrip_joinLines, rstrip_joinLines, trimmed_append_blank blank]

theorem mem_trimmed (member : line ∈ trimmed lines) : ∃ longer ∈ lines, line = longer ∨ line = rstrip longer := by
  induction lines with
  | nil => cases member
  | cons first rest ih =>
    rw [trimmed] at member
    cases later : trimmed rest with
    | nil =>
      rw [later] at member
      dsimp only at member
      split at member
      · cases member
      · exact ⟨first, List.mem_cons_self, .inr (List.mem_singleton.mp member)⟩
    | cons next others =>
      rw [later] at member ih
      rcases List.mem_cons.mp member with rfl | further
      · exact ⟨line, List.mem_cons_self, .inl rfl⟩
      · obtain ⟨longer, there, same⟩ := ih further
        exact ⟨longer, List.mem_cons_of_mem _ there, same⟩

section

variable {keep : List Char → Bool} (blank : ∀ line, rstrip line = [] → keep line = false)
  (ends : ∀ line, keep (rstrip line) = keep line)

include blank in
theorem filter_of_trimmed_eq_nil (none : trimmed lines = []) : lines.filter keep = [] := by
  rw [List.filter_eq_nil_iff]
  intro line member
  rw [blank line (trimmed_eq_nil.mp none line member)]
  exact Bool.false_ne_true

include blank ends in
/-- The lines that are not blank stay, up to the end of the last. -/
theorem map_filter_trimmed {α : Type} {shown : List Char → α} (same : ∀ line, shown (rstrip line) = shown line) :
    ((trimmed lines).filter keep).map shown = (lines.filter keep).map shown := by
  induction lines with
  | nil => rfl
  | cons line rest ih =>
    rw [trimmed, List.filter_cons]
    cases later : trimmed rest with
    | nil =>
      rw [filter_of_trimmed_eq_nil blank later]
      dsimp only
      split
      · rename_i empty
        rw [blank line empty]
        rfl
      · rw [List.filter_cons, ends line, List.filter_nil]
        cases keep line with
        | true => exact congrArg (· :: []) (same line)
        | false => rfl
    | cons next others =>
      rw [later] at ih
      dsimp only
      rw [List.filter_cons]
      cases keep line with
      | true => exact congrArg (shown line :: ·) ih
      | false => exact ih

include blank ends in
/-- They stay as they are exactly when the last line that is not blank has no blank end, or is
not among those kept. -/
theorem filter_trimmed_iff : (trimmed lines).filter keep = lines.filter keep ↔
    ∀ last ∈ (lines.filter (rstrip · ≠ [])).getLast?, keep last → rstrip last = last := by
  induction lines with
  | nil => simp [trimmed]
  | cons line rest ih =>
    rw [trimmed, List.filter_cons (p := keep)]
    cases later : trimmed rest with
    | nil =>
      have nothing : rest.filter (rstrip · ≠ []) = [] := by
        rw [List.filter_eq_nil_iff]
        exact fun line member => by simpa using trimmed_eq_nil.mp later line member
      rw [filter_of_trimmed_eq_nil blank later, List.filter_cons, nothing]
      by_cases empty : rstrip line = []
      · simp [empty, blank line empty]
      · cases kept : keep line with
        | true => simp [empty, kept, ends line]
        | false => simp [empty, kept, ends line]
    | cons next others =>
      rw [later] at ih
      have some_line : rest.filter (rstrip · ≠ []) ≠ [] := by
        intro nothing
        rw [List.filter_eq_nil_iff] at nothing
        have none : trimmed rest = [] := trimmed_eq_nil.mpr fun line member => by simpa using nothing line member
        rw [later] at none
        cases none
      have last : ((line :: rest).filter (rstrip · ≠ [])).getLast? = (rest.filter (rstrip · ≠ [])).getLast? := by
        rw [List.filter_cons]
        split
        · obtain ⟨x, xs, same⟩ := List.exists_cons_of_ne_nil some_line
          rw [same, List.getLast?_cons_cons]
        · rfl
      rw [last, ← ih]
      dsimp only
      rw [List.filter_cons]
      cases keep line with
      | true => exact List.cons_inj_right line
      | false => exact Iff.rfl

end

theorem mem_joinLines (member : c ∈ joinLines lines) : c = '\n' ∨ ∃ line ∈ lines, c ∈ line := by
  induction lines with
  | nil => cases member
  | cons line rest ih =>
    cases rest with
    | nil => exact .inr ⟨line, List.mem_cons_self, member⟩
    | cons next rest =>
      rw [joinLines, List.mem_append, List.mem_cons] at member
      rcases member with here | rfl | later
      · exact .inr ⟨line, List.mem_cons_self, here⟩
      · exact .inl rfl
      · rcases ih later with newline | ⟨longer, there, inside⟩
        · exact .inl newline
        · exact .inr ⟨longer, List.mem_cons_of_mem _ there, inside⟩

theorem Unbroken.rstrip (unbroken : Unbroken line) : Unbroken (rstrip line) :=
  fun c member => unbroken c ((rstrip_isPrefix line).subset member)

theorem unbroken_trimmed (unbroken : ∀ line ∈ lines, Unbroken line) : ∀ line ∈ trimmed lines, Unbroken line := by
  intro line member
  obtain ⟨longer, there, rfl | rfl⟩ := mem_trimmed member
  · exact unbroken line there
  · exact (unbroken longer there).rstrip

/-- The lines of joined lines whose end is stripped: there is always one. -/
def settled (lines : List (List Char)) : List (List Char) := if trimmed lines = [] then [[]] else trimmed lines

theorem splitlines_rstrip_joinLines (unbroken : ∀ line ∈ lines, Unbroken line) :
    splitlines (rstrip (joinLines lines) ++ ['\n']) = settled lines := by
  rw [rstrip_joinLines, settled]
  split
  · rename_i none
    rw [none]
    exact splitlines_newline []
  · rename_i filled
    exact splitlines_joinLines filled (unbroken_trimmed unbroken)

theorem rstrip_joinLines_settled (lines : List (List Char)) :
    rstrip (joinLines (settled lines)) = rstrip (joinLines lines) := by
  rw [settled]
  split
  · rename_i none
    rw [rstrip_joinLines lines, none]
    rfl
  · rw [← rstrip_joinLines, rstrip_rstrip]

theorem filter_settled {keep : List Char → Bool} (blank : keep [] = false) :
    (settled lines).filter keep = (trimmed lines).filter keep := by
  rw [settled]
  split
  · rename_i none
    rw [none, List.filter_cons, blank]
    rfl
  · rfl

theorem mem_settled (member : line ∈ settled lines) :
    line = [] ∨ ∃ longer ∈ lines, line = longer ∨ line = rstrip longer := by
  rw [settled] at member
  split at member
  · exact .inl (List.mem_singleton.mp member)
  · exact .inr (mem_trimmed member)

end PyText

end Library

import Mathlib.Data.List.Infix
import NeuralTts.Daemon.Curation

/-! What patterns of `fnmatch` match, part by part. -/

namespace Daemon.Glob

variable {p q : List Glob} {name rest tail text : List Char}

theorem accepts_nil : accepts [] name = true ↔ name = [] := by
  rw [accepts, List.isEmpty_iff]

theorem accepts_star : accepts (.star :: q) name = true ↔
    ∃ s t, name = s ++ t ∧ accepts q t = true := by
  rw [accepts, List.any_eq_true]
  constructor
  · rintro ⟨t, suffix, taken⟩
    obtain ⟨s, rfl⟩ := (List.mem_tails _ _).mp suffix
    exact ⟨s, t, rfl, taken⟩
  · rintro ⟨s, t, rfl, taken⟩
    exact ⟨t, (List.mem_tails _ _).mpr (List.suffix_append s t), taken⟩

/-- The parts other than a star take one character each. -/
def takes : Glob → Char → Bool
  | .star, _ => false
  | .one, _ => true
  | .set negated items, c => negated != inSet c items
  | .char d, c => d == c

theorem accepts_cons {g : Glob} (single : g ≠ .star) : accepts (g :: q) name = true ↔
    ∃ c t, name = c :: t ∧ takes g c = true ∧ accepts q t = true := by
  cases name with
  | nil => cases g <;> simp_all [accepts]
  | cons c t => cases g <;> simp_all [accepts, takes]

theorem accepts_append : accepts (p ++ q) name = true ↔
    ∃ s t, name = s ++ t ∧ accepts p s = true ∧ accepts q t = true := by
  induction p generalizing name with
  | nil =>
    constructor
    · intro taken
      exact ⟨[], name, rfl, accepts_nil.mpr rfl, taken⟩
    · rintro ⟨s, t, rfl, none, taken⟩
      rw [accepts_nil.mp none]
      exact taken
  | cons g p ih =>
    rw [List.cons_append]
    by_cases star : g = .star
    · subst star
      simp only [accepts_star, ih]
      constructor
      · rintro ⟨s, _, rfl, s', t, rfl, first, second⟩
        exact ⟨s ++ s', t, (List.append_assoc s s' t).symm, ⟨s, s', rfl, first⟩, second⟩
      · rintro ⟨_, t, rfl, ⟨s, s', rfl, first⟩, second⟩
        exact ⟨s, s' ++ t, List.append_assoc s s' t, s', t, rfl, first, second⟩
    · simp only [accepts_cons star, ih]
      constructor
      · rintro ⟨c, _, rfl, own, s, t, rfl, first, second⟩
        exact ⟨c :: s, t, rfl, ⟨c, s, rfl, own, first⟩, second⟩
      · rintro ⟨_, t, rfl, ⟨c, s, rfl, own, first⟩, second⟩
        exact ⟨c, s ++ t, rfl, own, s, t, rfl, first, second⟩

theorem accepts_literal : accepts (text.map .char) name = true ↔ name = text := by
  induction text generalizing name with
  | nil => exact accepts_nil
  | cons c text ih =>
    rw [List.map_cons, accepts_cons (by simp)]
    simp only [takes, beq_iff_eq, ih]
    constructor
    · rintro ⟨_, _, rfl, rfl, rfl⟩
      rfl
    · rintro rfl
      exact ⟨c, text, rfl, rfl, rfl⟩

theorem closeSet_cons {c : Char} (other : c ≠ ']') (rest : List Char) :
    closeSet (c :: rest) = (closeSet rest).map fun (items, after) => (c :: items, after) := by
  rw [closeSet]
  exact other

theorem closeSet_eq_none (closed : ']' ∉ tail) : closeSet tail = none := by
  induction tail with
  | nil => rfl
  | cons c tail ih =>
    obtain ⟨other, later⟩ := List.ne_and_not_mem_of_not_mem_cons closed
    rw [closeSet_cons other.symm, ih later]
    rfl

/-- A set ends within the pattern that it begins in, unless what follows has a closing bracket. -/
theorem closeSet_append (closed : ']' ∉ tail) (rest : List Char) :
    closeSet (rest ++ tail) = (closeSet rest).map fun (items, after) => (items, after ++ tail) := by
  induction rest with
  | nil => exact closeSet_eq_none closed
  | cons c rest ih =>
    by_cases bracket : c = ']'
    · subst bracket
      rfl
    · rw [List.cons_append, closeSet_cons bracket, closeSet_cons bracket, ih]
      cases closeSet rest <;> rfl

theorem closeSet_shorter {items after : List Char} (found : closeSet rest = some (items, after)) :
    after.length < rest.length := by
  induction rest generalizing items with
  | nil => cases found
  | cons c rest ih =>
    by_cases bracket : c = ']'
    · subst bracket
      cases found
      exact Nat.lt_succ_self _
    · rw [closeSet_cons bracket, Option.map_eq_some_iff] at found
      obtain ⟨⟨items, after⟩, inner, same⟩ := found
      cases same
      exact Nat.lt_succ_of_lt (ih inner)

theorem readSet_negated {c : Char} (other : c ≠ ']') (rest : List Char) :
    readSet ('!' :: c :: rest) =
      (closeSet (c :: rest)).map fun (items, after) => (.set true items, after) := by
  rw [readSet]
  rintro _ same
  exact other (List.cons.inj same).1

theorem readSet_plain {c : Char} (plain : c ≠ '!') (other : c ≠ ']') (rest : List Char) :
    readSet (c :: rest) = (closeSet (c :: rest)).map fun (items, after) => (.set false items, after) := by
  rw [readSet]
  · rintro _ same
    exact plain (List.cons.inj same).1
  · rintro _ same
    exact plain (List.cons.inj same).1
  · rintro _ same
    exact other (List.cons.inj same).1

theorem readSet_eq_none (closed : ']' ∉ tail) : readSet tail = none := by
  cases tail with
  | nil => rfl
  | cons c tail =>
    obtain ⟨other, later⟩ := List.ne_and_not_mem_of_not_mem_cons closed
    by_cases negated : c = '!'
    · subst negated
      cases tail with
      | nil => rfl
      | cons d tail =>
        rw [readSet_negated (List.ne_of_not_mem_cons later).symm, closeSet_eq_none later]
        rfl
    · rw [readSet_plain negated other.symm, closeSet_eq_none closed]
      rfl

theorem readSet_append (closed : ']' ∉ tail) (rest : List Char) :
    readSet (rest ++ tail) = (readSet rest).map fun (g, after) => (g, after ++ tail) := by
  have maps (make : List Char → Glob) (body : List Char) :
      ((closeSet (body ++ tail)).map fun (items, after) => (make items, after)) =
        ((closeSet body).map fun (items, after) => (make items, after)).map
          fun (g, after) => (g, after ++ tail) := by
    rw [closeSet_append closed]
    cases closeSet body <;> rfl
  cases rest with
  | nil => exact readSet_eq_none closed
  | cons c rest =>
    by_cases negated : c = '!'
    · subst negated
      cases rest with
      | nil => exact readSet_eq_none (List.not_mem_cons_of_ne_of_not_mem (by decide) closed)
      | cons d rest =>
        by_cases bracket : d = ']'
        · subst bracket
          exact maps (fun items => .set true (']' :: items)) rest
        · rw [readSet_negated bracket, List.cons_append, List.cons_append, readSet_negated bracket]
          exact maps (.set true) (d :: rest)
    · by_cases bracket : c = ']'
      · subst bracket
        exact maps (fun items => .set false (']' :: items)) rest
      · rw [readSet_plain negated bracket, List.cons_append, readSet_plain negated bracket]
        exact maps (.set false) (c :: rest)

theorem readSet_shorter {g : Glob} {after : List Char} (found : readSet rest = some (g, after)) :
    after.length < rest.length := by
  have within (make : List Char → Glob) {body : List Char}
      (found : (closeSet body).map (fun (items, after) => (make items, after)) = some (g, after)) :
      after.length < body.length := by
    obtain ⟨⟨items, after⟩, inner, same⟩ := Option.map_eq_some_iff.mp found
    cases same
    exact closeSet_shorter inner
  cases rest with
  | nil => cases found
  | cons c rest =>
    by_cases negated : c = '!'
    · subst negated
      cases rest with
      | nil => cases found
      | cons d rest =>
        by_cases bracket : d = ']'
        · subst bracket
          have inner := within (fun items => .set true (']' :: items)) found
          simp only [List.length_cons]
          omega
        · rw [readSet_negated bracket] at found
          exact Nat.lt_succ_of_lt (within (.set true) found)
    · by_cases bracket : c = ']'
      · subst bracket
        exact Nat.lt_succ_of_lt (within (fun items => .set false (']' :: items)) found)
      · rw [readSet_plain negated bracket] at found
        exact within (.set false) found

theorem parse_cons (n : Nat) (c : Char) (rest : List Char) :
    parse (n + 1) (c :: rest) =
      if c = '*' then .star :: parse n rest
      else if c = '?' then .one :: parse n rest
      else if c = '[' then
        match readSet rest with
        | some (items, after) => items :: parse n after
        | none => .char '[' :: parse n rest
      else .char c :: parse n rest := by
  by_cases star : c = '*'
  · subst star
    rfl
  by_cases one : c = '?'
  · subst one
    rfl
  by_cases bracket : c = '['
  · subst bracket
    rfl
  rw [if_neg star, if_neg one, if_neg bracket, parse] <;> assumption

theorem parse_nil (n : Nat) : parse n [] = [] := by cases n <;> rfl

/-- The fuel is only there to be enough. -/
theorem parse_fuel {n m : Nat} (enough : text.length ≤ n) (enoughToo : text.length ≤ m) :
    parse n text = parse m text := by
  induction n generalizing m text with
  | zero =>
    obtain rfl := List.length_eq_zero_iff.mp (Nat.le_zero.mp enough)
    rw [parse_nil, parse_nil]
  | succ n ih =>
    cases text with
    | nil => rw [parse_nil, parse_nil]
    | cons c rest =>
      cases m with
      | zero => cases enoughToo
      | succ m =>
        have fits := Nat.le_of_succ_le_succ enough
        have fitsToo := Nat.le_of_succ_le_succ enoughToo
        rw [parse_cons, parse_cons, ih fits fitsToo]
        cases set : readSet rest with
        | none => rfl
        | some found =>
          obtain ⟨g, after⟩ := found
          have shorter := Nat.le_of_lt (readSet_shorter set)
          simp only [ih (shorter.trans fits) (shorter.trans fitsToo)]

/-- How a pattern is read. -/
def read (text : List Char) : List Glob := parse text.length text

theorem read_append (closed : ']' ∉ tail) (text : List Char) :
    read (text ++ tail) = read text ++ read tail := by
  suffices ∀ n, text.length ≤ n → parse (n + tail.length) (text ++ tail) = parse n text ++ read tail by
    rw [read, List.length_append, this text.length (le_refl _)]
    rfl
  intro n enough
  induction n generalizing text with
  | zero =>
    obtain rfl := List.length_eq_zero_iff.mp (Nat.le_zero.mp enough)
    rw [Nat.zero_add]
    rfl
  | succ n ih =>
    cases text with
    | nil =>
      rw [parse_nil]
      exact parse_fuel (Nat.le_add_left _ _) (le_refl _)
    | cons c rest =>
      have fits := Nat.le_of_succ_le_succ enough
      rw [List.cons_append, Nat.succ_add, parse_cons, parse_cons, ih rest fits, readSet_append closed]
      cases set : readSet rest with
      | none => split_ifs <;> rfl
      | some found =>
        obtain ⟨g, after⟩ := found
        have shorter := Nat.le_of_lt (readSet_shorter set)
        simp only [Option.map_some, ih after (shorter.trans fits)]
        split_ifs <;> rfl

def special (c : Char) : Bool := c == '*' || c == '?' || c == '['

def Literal (text : List Char) : Prop := text.any special = false

theorem literal_cons {c : Char} :
    Literal (c :: text) ↔ (c ≠ '*' ∧ c ≠ '?' ∧ c ≠ '[') ∧ Literal text := by
  simp [Literal, special, and_assoc]

theorem read_literal (literal : Literal text) : read text = text.map .char := by
  unfold read
  induction text with
  | nil => rfl
  | cons c text ih =>
    obtain ⟨⟨star, one, bracket⟩, rest⟩ := literal_cons.mp literal
    rw [List.length_cons, parse_cons, if_neg star, if_neg one, if_neg bracket, ih rest]
    rfl

theorem read_star_between {sep : Char} {suffix : List Char} (literal : Literal (sep :: suffix)) :
    read (sep :: '*' :: suffix) = .char sep :: .star :: suffix.map .char := by
  obtain ⟨⟨star, one, bracket⟩, rest⟩ := literal_cons.mp literal
  rw [← read_literal rest, read, List.length_cons, parse_cons, if_neg star, if_neg one, if_neg bracket]
  rfl

theorem accepts_star_between {sep : Char} {suffix : List Char} (literal : Literal (sep :: suffix))
    (closed : ']' ∉ sep :: suffix) :
    accepts (read (text ++ sep :: '*' :: suffix)) name = true ↔
      ∃ s x, name = s ++ sep :: (x ++ suffix) ∧ accepts (read text) s = true := by
  obtain ⟨bracket, brackets⟩ := List.ne_and_not_mem_of_not_mem_cons closed
  have stillClosed : ']' ∉ sep :: '*' :: suffix :=
    List.not_mem_cons_of_ne_of_not_mem bracket (List.not_mem_cons_of_ne_of_not_mem (by decide) brackets)
  have single : Glob.char sep ≠ .star := by simp
  rw [read_append stillClosed, read_star_between literal, accepts_append]
  simp only [accepts_cons single, accepts_star, accepts_literal, takes, beq_iff_eq]
  constructor
  · rintro ⟨s, _, rfl, matched, _, _, rfl, rfl, x, _, rfl, rfl⟩
    exact ⟨s, x, rfl, matched⟩
  · rintro ⟨s, x, rfl, matched⟩
    exact ⟨s, _, rfl, matched, sep, _, rfl, rfl, x, suffix, rfl, rfl⟩

end Daemon.Glob

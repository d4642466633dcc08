import NeuralTts.Provider.Chunker

/-! Where `_split_oversized` cuts a sentence that is too long. -/

namespace Provider

open Library PyText

inductive Reached (hardCap : Int) (sentence : Text) : Text → Prop
  | start : Reached hardCap sentence sentence
  | turn {remaining : Text} : Reached hardCap sentence remaining → hardCap < remaining.length →
      Reached hardCap sentence (restOf hardCap remaining)

def AtSpace (s : Text) (i : Nat) : Prop :=
  (∃ c, s[i - 1]? = some c ∧ isSpace c = true) ∨ ∃ c, s[i]? = some c ∧ isSpace c = true

/-- Every cut falls at whitespace of the sentence, except where the head that is cut has none. -/
def NeverMidWord (hardCap : Int) (sentence : Text) : Prop :=
  ∀ before remaining, Reached hardCap sentence remaining → sentence = before ++ remaining →
    hardCap < remaining.length →
    (∀ c ∈ sliceTo remaining hardCap, isSpace c = false) ∨
      AtSpace sentence (before.length + (cutOf hardCap remaining).toNat)

/-- A head with a break, or without whitespace, or one that ends at whitespace. -/
def Splittable (hardCap : Int) (remaining : Text) : Prop :=
  HasBreak (sliceTo remaining hardCap) ∨ (∀ c ∈ sliceTo remaining hardCap, isSpace c = false) ∨
    AtSpace remaining hardCap.toNat

theorem restOf_suffix (hardCap : Int) (remaining : Text) : restOf hardCap remaining <:+ remaining :=
  (List.dropWhile_suffix isSpace).trans
    ⟨sliceTo remaining (cutOf hardCap remaining), sliceTo_append_sliceFrom remaining _⟩

theorem Reached.suffix {hardCap : Int} {sentence remaining : Text}
    (reached : Reached hardCap sentence remaining) : remaining <:+ sentence := by
  induction reached with
  | start => exact List.suffix_refl sentence
  | turn _ _ ih => exact (restOf_suffix hardCap _).trans ih

theorem Reached.trans {hardCap : Int} {sentence middle remaining : Text}
    (first : Reached hardCap sentence middle) (later : Reached hardCap middle remaining) :
    Reached hardCap sentence remaining := by
  induction later with
  | start => exact first
  | turn _ long ih => exact .turn ih long

theorem reached_iff {hardCap : Int} {sentence remaining : Text} :
    Reached hardCap sentence remaining ↔ remaining = sentence ∨
      hardCap < sentence.length ∧ Reached hardCap (restOf hardCap sentence) remaining := by
  constructor
  · intro reached
    induction reached with
    | start => exact .inl rfl
    | turn before long ih =>
      rcases ih with rfl | ⟨first, rest⟩
      · exact .inr ⟨long, .start⟩
      · exact .inr ⟨first, .turn rest long⟩
  · rintro (rfl | ⟨long, rest⟩)
    · exact .start
    · exact (Reached.turn .start long).trans rest

/-- The pieces that the loop makes are the heads that it cuts off, and the last rest. -/
theorem mem_splitLoop {hardCap : Int} {fuel : Nat} {sentence : Text} {pieces result : List Text}
    (ended : splitLoop hardCap fuel sentence pieces = some result) (p : Text) :
    p ∈ result ↔ p ∈ pieces ∨ ∃ remaining, Reached hardCap sentence remaining ∧
      if hardCap < remaining.length then p = pieceOf hardCap remaining
      else p = remaining ∧ p ≠ [] := by
  induction fuel generalizing sentence pieces with
  | zero => cases ended
  | succ fuel ih =>
    rw [splitLoop] at ended
    by_cases long : hardCap < sentence.length
    · rw [if_pos long] at ended
      rw [ih ended, List.mem_append, List.mem_singleton, or_assoc]
      refine or_congr_right ?_
      constructor
      · rintro (rfl | ⟨remaining, reached, made⟩)
        · exact ⟨sentence, .start, by rw [if_pos long]⟩
        · exact ⟨remaining, reached_iff.mpr (.inr ⟨long, reached⟩), made⟩
      · rintro ⟨remaining, reached, made⟩
        rcases reached_iff.mp reached with rfl | ⟨-, rest⟩
        · rw [if_pos long] at made
          exact .inl made
        · exact .inr ⟨remaining, rest, made⟩
    · rw [if_neg long] at ended
      obtain rfl := Option.some.inj ended
      have only : ∀ {remaining}, Reached hardCap sentence remaining → remaining = sentence := by
        intro remaining reached
        rcases reached_iff.mp reached with same | ⟨first, -⟩
        · exact same
        · exact absurd first long
      by_cases empty : sentence = []
      · rw [if_pos empty]
        refine ⟨.inl, ?_⟩
        rintro (held | ⟨remaining, reached, made⟩)
        · exact held
        · rw [only reached, if_neg long] at made
          exact absurd (made.1.trans empty) made.2
      · rw [if_neg empty, List.mem_append, List.mem_singleton]
        refine or_congr_right ?_
        constructor
        · rintro rfl
          exact ⟨p, .start, by rw [if_neg long]; exact ⟨rfl, empty⟩⟩
        · rintro ⟨remaining, reached, made⟩
          rw [only reached, if_neg long] at made
          exact made.1

theorem atSpace_append {before s : Text} {i : Nat} (positive : 0 < i) :
    AtSpace (before ++ s) (before.length + i) ↔ AtSpace s i := by
  have first : before.length + i - 1 = before.length + (i - 1) := by omega
  simp only [AtSpace, first]
  rw [List.getElem?_append_right (Nat.le_add_right _ _),
    List.getElem?_append_right (Nat.le_add_right _ _), Nat.add_sub_cancel_left,
    Nat.add_sub_cancel_left]

theorem atSpace_cutOf_iff {hardCap : Nat} (positive : 0 < hardCap) {remaining : Text}
    (long : hardCap < remaining.length) :
    ((∀ c ∈ sliceTo remaining hardCap, isSpace c = false) ∨
        AtSpace remaining (cutOf hardCap remaining).toNat) ↔ Splittable hardCap remaining := by
  obtain ⟨cut, atCut, some_cut, within, kind⟩ := cutOf_cases positive long
  rw [Splittable, atCut, sliceTo_natCast]
  rcases kind with ⟨broken, space⟩ | ⟨unbroken, rfl⟩
  · exact ⟨fun _ => .inl broken, fun _ => .inr (.inl space)⟩
  · rw [or_iff_right unbroken]

theorem neverMidWord_iff {hardCap : Nat} (positive : 0 < hardCap) (sentence : Text) :
    NeverMidWord hardCap sentence ↔ ∀ remaining, Reached hardCap sentence remaining →
      (hardCap : Int) < remaining.length → Splittable hardCap remaining := by
  have atCut : ∀ {before remaining : Text}, sentence = before ++ remaining →
      hardCap < remaining.length → (AtSpace sentence (before.length + (cutOf hardCap remaining).toNat) ↔
        AtSpace remaining (cutOf hardCap remaining).toNat) := by
    intro before remaining whole long
    obtain ⟨cut, atCut, some_cut, -⟩ := cutOf_cases positive long
    rw [whole, atSpace_append (by rw [atCut]; exact some_cut)]
  constructor
  · intro never remaining reached long
    obtain ⟨before, whole⟩ := reached.suffix
    have short : hardCap < remaining.length := by exact_mod_cast long
    have cut := never before remaining reached whole.symm long
    rw [atCut whole.symm short] at cut
    exact (atSpace_cutOf_iff positive short).mp cut
  · intro splittable before remaining reached whole long
    have short : hardCap < remaining.length := by exact_mod_cast long
    rw [atCut whole short]
    exact (atSpace_cutOf_iff positive short).mpr (splittable remaining reached long)

theorem spaces_never_midWord {hardCap : Nat} (positive : 0 < hardCap) {sentence : Text}
    (spaces : ∀ c ∈ sentence, isSpace c = true → c = ' ')
    (starts : ∀ c ∈ sentence.head?, isSpace c = false) : NeverMidWord hardCap sentence := by
  have starting : ∀ {remaining}, Reached hardCap sentence remaining →
      ∀ c ∈ remaining.head?, isSpace c = false := by
    intro remaining reached
    cases reached with
    | start => exact starts
    | turn _ _ =>
      intro c first
      obtain ⟨rest, whole⟩ := List.head?_eq_some_iff.mp first
      exact isSpace_of_lstrip whole
  rw [neverMidWord_iff positive]
  intro remaining reached long
  by_cases solid : ∀ c ∈ sliceTo remaining hardCap, isSpace c = false
  · exact .inr (.inl solid)
  · simp only [not_forall, Bool.not_eq_false] at solid
    obtain ⟨c, member, space⟩ := solid
    have inside : c ∈ remaining := by
      rw [sliceTo_natCast] at member
      exact List.mem_of_mem_take member
    obtain rfl := spaces c (reached.suffix.subset inside) space
    obtain ⟨i, found⟩ := List.mem_iff_getElem?.mp member
    refine .inl (.inr ⟨i, ?_, found⟩)
    rcases Nat.eq_zero_or_pos i with rfl | later
    · rw [sliceTo_natCast, List.getElem?_take_of_lt positive, ← List.head?_eq_getElem?] at found
      have visible := starting reached ' ' found
      rw [isSpace_space] at visible
      cases visible
    · exact later

/-- For every sentence: the cuts of `_split_oversized` are all at whitespace, those in solid heads
apart, exactly when every head that it cuts is splittable. -/
theorem splitOversized_neverMidWord_iff (sentence : Text) :
    NeverMidWord hardCapChars sentence ↔ ∀ remaining, Reached hardCapChars sentence remaining →
      hardCapChars < remaining.length → Splittable hardCapChars remaining := by
  have positive : 0 < 400 := by decide
  exact neverMidWord_iff positive sentence

def twoLines : Text := List.replicate 200 'a' ++ '\n' :: List.replicate 300 'b'

theorem second_line_cut_in_word :
    hardCapChars < twoLines.length ∧ '\n' ∈ sliceTo twoLines hardCapChars ∧
      cutOf hardCapChars twoLines = 400 ∧ ¬ AtSpace twoLines 400 ∧
      ¬ NeverMidWord hardCapChars twoLines := by
  have long : hardCapChars < twoLines.length := by decide +kernel
  have newline : '\n' ∈ sliceTo twoLines hardCapChars := by decide +kernel
  have cut : cutOf hardCapChars twoLines = 400 := by decide +kernel
  have before : twoLines[399]? = some 'b' := by decide +kernel
  have after : twoLines[400]? = some 'b' := by decide +kernel
  have inside : ¬ AtSpace twoLines 400 := by
    rintro (⟨c, found, space⟩ | ⟨c, found, space⟩)
    · obtain rfl := Option.some.inj (before.symm.trans found)
      cases space
    · obtain rfl := Option.some.inj (after.symm.trans found)
      cases space
  refine ⟨long, newline, cut, inside, ?_⟩
  intro never
  rcases never [] twoLines .start rfl long with solid | boundary
  · exact absurd (solid '\n' newline) (by decide)
  · rw [cut] at boundary
    exact inside boundary

end Provider

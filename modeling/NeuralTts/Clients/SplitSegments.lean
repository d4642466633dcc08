import NeuralTts.Library.PyText

/-! `split_segments` of `neural-tts-say`: a text in blank-line paragraphs, and each paragraph in
segments that are packed from its sentences. -/

namespace Clients

open Library PyText

abbrev Text := List Char

/-- A match of `\n\s*\n` at the start of the text: its length. -/
def blankLineAt : Text → Option Nat
  | '\n' :: rest =>
    let last := rfind '\n' (rest.takeWhile isSpace)
    if 0 ≤ last then some (last.toNat + 2) else none
  | _ => none

/-- `re.split(r"\n\s*\n", text)`, with `skip` characters of a match still ahead. -/
def splitParagraphs (skip : Nat) (part : Text) : Text → List Text
  | [] => [part]
  | c :: rest =>
    match skip with
    | skip + 1 => splitParagraphs skip part rest
    | 0 =>
      match blankLineAt (c :: rest) with
      | some length => part :: splitParagraphs (length - 1) [] rest
      | none => splitParagraphs 0 (part ++ [c]) rest

def endsSentence (part : Text) : Bool := part.getLast?.any fun c => c ∈ ['.', '!', '?']

/-- `re.split(r"(?<=[.!?])\s+", para)`; `skipping` is within a match. -/
def splitSentences (skipping : Bool) (part : Text) : Text → List Text
  | [] => [part]
  | c :: rest =>
    if isSpace c = true ∧ skipping = true then splitSentences true part rest
    else if isSpace c = true ∧ endsSentence part = true then part :: splitSentences true [] rest
    else splitSentences false (part ++ [c]) rest

structure Draft where
  segments : List Text
  cur : Text

def Draft.flush (d : Draft) : Draft := if d.cur = [] then d else ⟨d.segments ++ [d.cur], []⟩

/-- The loop over a sentence that is too long, for so many turns at most: the draft that it leaves,
and what remains of the sentence. -/
def hardSplit (maxChars : Int) : Nat → Draft → Text → Option (Draft × Text)
  | 0, _, _ => none
  | fuel + 1, d, sentence =>
    if maxChars < sentence.length then
      hardSplit maxChars fuel ⟨d.flush.segments ++ [sliceTo sentence maxChars], d.flush.cur⟩
        (sliceFrom sentence maxChars)
    else some (d, sentence)

def packSentence (maxChars : Int) (d : Draft) (sentence : Text) : Draft :=
  if d.cur = [] then { d with cur := sentence }
  else if (d.cur.length + 1 + sentence.length : Nat) ≤ maxChars then
    { d with cur := d.cur ++ ' ' :: sentence }
  else ⟨d.segments ++ [d.cur], sentence⟩

def addSentence (maxChars : Int) (fuel : Nat) (d : Draft) (sentence : Text) : Option Draft :=
  (hardSplit maxChars fuel d sentence).map fun (d, rest) => packSentence maxChars d rest

def addParagraph (maxChars : Int) (fuel : Nat) (segments : List Text) (para : Text) :
    Option (List Text) :=
  let para := join (split para)
  if para = [] then some segments
  else if para.length ≤ maxChars then some (segments ++ [para])
  else
    ((splitSentences false [] para).foldlM (addSentence maxChars fuel) ⟨segments, []⟩).map
      fun d => d.flush.segments

/-- `split_segments`; `none` when a loop does not end within the fuel. -/
def splitSegments (maxChars : Int) (fuel : Nat) (text : Text) : Option (List Text) :=
  (splitParagraphs 0 [] (strip text)).foldlM (addParagraph maxChars fuel) []

example : splitSegments 9 20 "One. Two.\nSix\n \nSeventyfive. Ten".toList =
    some ["One. Two.".toList, "Six".toList, "Seventyfi".toList, "ve. Ten".toList] := by
  decide

def paragraphs (text : Text) : List Text :=
  ((splitParagraphs 0 [] (strip text)).map fun para => join (split para)).filter (· ≠ [])

def sentences (para : Text) : List Text := splitSentences false [] para

/-- `gap` is a blank line, with the line breaks around it. -/
def BlankLine (gap : Text) : Prop :=
  ∃ spaces, gap = '\n' :: spaces ++ ['\n'] ∧ ∀ c ∈ spaces, isSpace c = true

inductive Separated : List Text → Text → Prop
  | last (part : Text) : Separated [part] part
  | cons {part gap rest : Text} {parts : List Text} (blank : BlankLine gap)
      (others : Separated parts rest) : Separated (part :: parts) (part ++ gap ++ rest)

structure Renders (maxChars : Int) (para : Text) (segments : List Text) : Prop where
  bounded : ∀ s ∈ segments, s ≠ [] ∧ (s.length : Int) ≤ maxChars
  content : segments.flatMap nonSpace = nonSpace para
  whole : (∀ s ∈ sentences para, (s.length : Int) ≤ maxChars) →
    ∃ runs : List (List Text), (∀ run ∈ runs, run ≠ []) ∧ runs.flatten = sentences para ∧
      segments = runs.map join

/-- What the segments of a text are: those of its paragraphs one after another, so that none spans a
blank line, with the characters of the text; and with its words, where no sentence is too long. -/
structure SplitsText (maxChars : Int) (text : Text) (segments : List Text) : Prop where
  separated : Separated (splitParagraphs 0 [] (strip text)) (strip text)
  unbroken : ∀ part ∈ splitParagraphs 0 [] (strip text), ∀ gap, BlankLine gap → ¬ gap <:+: part
  bounded : ∀ s ∈ segments, s ≠ [] ∧ (s.length : Int) ≤ maxChars
  content : segments.flatMap nonSpace = nonSpace text
  grouped : ∃ groups, groups.flatten = segments ∧
    List.Forall₂ (Renders maxChars) (paragraphs text) groups
  words : (∀ para ∈ paragraphs text, ∀ s ∈ sentences para, (s.length : Int) ≤ maxChars) →
    segments.flatMap split = split text

inductive CutTo (maxChars : Int) (sentence : Text) : Text → Prop
  | start : CutTo maxChars sentence sentence
  | turn {remaining : Text} : CutTo maxChars sentence remaining → maxChars < remaining.length →
      CutTo maxChars sentence (sliceFrom remaining maxChars)

structure Terminates (maxChars : Int) (text : Text) : Prop where
  ends : ∃ segments n, ∀ fuel, n < fuel → splitSegments maxChars fuel text = some segments
  shortens : ∀ para ∈ paragraphs text, maxChars < para.length → ∀ s ∈ sentences para, ∀ remaining,
    CutTo maxChars s remaining → maxChars < remaining.length →
    (sliceFrom remaining maxChars).length < remaining.length

structure Draft.Grows (maxChars : Nat) (d d' : Draft) (content : Text) : Prop where
  more : ∃ more, d'.segments = d.segments ++ more ∧ (∀ s ∈ more, s ≠ [] ∧ s.length ≤ maxChars) ∧
    more.flatMap nonSpace ++ nonSpace d'.cur = nonSpace d.cur ++ content
  cur : d'.cur.length ≤ maxChars

namespace Draft

variable {maxChars : Nat} {d d' d'' : Draft} {content content' : Text}

theorem Grows.refl (fits : d.cur.length ≤ maxChars) : Grows maxChars d d [] :=
  ⟨⟨[], by simp, by simp, by simp⟩, fits⟩

theorem Grows.trans (first : Grows maxChars d d' content) (second : Grows maxChars d' d'' content') :
    Grows maxChars d d'' (content ++ content') := by
  obtain ⟨more, atFirst, bounded, kept⟩ := first.more
  obtain ⟨later, atSecond, boundedLater, keptLater⟩ := second.more
  refine ⟨⟨more ++ later, ?_, ?_, ?_⟩, second.cur⟩
  · rw [atSecond, atFirst, List.append_assoc]
  · intro s member
    rcases List.mem_append.mp member with member | member
    · exact bounded s member
    · exact boundedLater s member
  · rw [List.flatMap_append, List.append_assoc, keptLater, ← List.append_assoc, kept,
      List.append_assoc]

theorem grows_flush (fits : d.cur.length ≤ maxChars) : Grows maxChars d d.flush [] := by
  unfold flush
  split
  · exact .refl fits
  · rename_i filled
    refine ⟨⟨[d.cur], rfl, ?_, by simp⟩, Nat.zero_le _⟩
    intro s member
    rw [List.mem_singleton.mp member]
    exact ⟨filled, fits⟩

@[simp] theorem flush_cur : d.flush.cur = [] := by
  unfold flush
  split
  · assumption
  · rfl

theorem grows_segment {segment : Text} (filled : segment ≠ []) (short : segment.length ≤ maxChars)
    (empty : d.cur = []) :
    Grows maxChars d ⟨d.segments ++ [segment], d.cur⟩ (nonSpace segment) := by
  refine ⟨⟨[segment], rfl, ?_, by simp [empty]⟩, by simp [empty]⟩
  intro s member
  rw [List.mem_singleton.mp member]
  exact ⟨filled, short⟩

theorem grows_packSentence {sentence : Text} (fits : d.cur.length ≤ maxChars)
    (short : sentence.length ≤ maxChars) :
    Grows maxChars d (packSentence maxChars d sentence) (nonSpace sentence) := by
  unfold packSentence
  split
  · rename_i empty
    exact ⟨⟨[], by simp, by simp, by simp [empty]⟩, short⟩
  · rename_i filled
    split
    · rename_i room
      refine ⟨⟨[], by simp, by simp, by simp [nonSpace_cons, isSpace_space]⟩, ?_⟩
      simp only [List.length_append, List.length_cons]
      omega
    · refine ⟨⟨[d.cur], rfl, ?_, by simp⟩, short⟩
      intro s member
      rw [List.mem_singleton.mp member]
      exact ⟨filled, fits⟩

end Draft

section

variable {maxChars : Nat} (positive : 0 < maxChars)

include positive

theorem length_sliceFrom_lt {sentence : Text} (long : maxChars < sentence.length) :
    (sliceFrom sentence maxChars).length < sentence.length := by
  rw [sliceFrom_natCast, List.length_drop]
  omega

theorem hardSplit_ends (d : Draft) (fits : d.cur.length ≤ maxChars) (sentence : Text) :
    ∃ d' rest content, (∀ fuel, sentence.length < fuel →
        hardSplit maxChars fuel d sentence = some (d', rest)) ∧
      d.Grows maxChars d' content ∧ content ++ nonSpace rest = nonSpace sentence ∧
      rest.length ≤ maxChars := by
  generalize size : sentence.length = n
  induction n using Nat.strong_induction_on generalizing sentence d with
  | _ n ih =>
    subst size
    by_cases long : maxChars < sentence.length
    · have cut : (sliceTo sentence maxChars).length = maxChars := by
        rw [sliceTo_natCast, List.length_take]
        omega
      have filled : sliceTo sentence maxChars ≠ [] := by
        rw [← List.length_pos_iff, cut]
        exact positive
      have flushed := Draft.grows_flush fits
      have turned := flushed.trans (Draft.grows_segment filled (Nat.le_of_eq cut) Draft.flush_cur)
      obtain ⟨d', rest, content, ends, grows, kept, short⟩ :=
        ih _ (length_sliceFrom_lt positive long) _ turned.cur _ rfl
      refine ⟨d', rest, _, ?_, turned.trans grows, ?_, short⟩
      · intro fuel enough
        obtain ⟨fuel, rfl⟩ : ∃ n, fuel = n + 1 := ⟨fuel - 1, by omega⟩
        have shorter := length_sliceFrom_lt positive long
        rw [hardSplit, if_pos (by exact_mod_cast long)]
        exact ends fuel (by omega)
      · rw [List.nil_append, List.append_assoc, kept, nonSpace_slices]
    · refine ⟨d, sentence, [], ?_, .refl fits, rfl, by omega⟩
      intro fuel enough
      obtain ⟨fuel, rfl⟩ : ∃ n, fuel = n + 1 := ⟨fuel - 1, by omega⟩
      rw [hardSplit, if_neg (by exact_mod_cast long)]

theorem addSentence_ends (d : Draft) (fits : d.cur.length ≤ maxChars) (sentence : Text) :
    ∃ d', (∀ fuel, sentence.length < fuel → addSentence maxChars fuel d sentence = some d') ∧
      d.Grows maxChars d' (nonSpace sentence) := by
  obtain ⟨d', rest, content, ends, grows, kept, short⟩ := hardSplit_ends positive d fits sentence
  refine ⟨packSentence maxChars d' rest, ?_, ?_⟩
  · intro fuel enough
    rw [addSentence, ends fuel enough]
    rfl
  · rw [← kept]
    exact grows.trans (Draft.grows_packSentence grows.cur short)

theorem addSentences_end (d : Draft) (fits : d.cur.length ≤ maxChars) (sentences : List Text) :
    ∃ d', (∀ fuel, sentences.flatten.length < fuel →
        sentences.foldlM (addSentence maxChars fuel) d = some d') ∧
      d.Grows maxChars d' (sentences.flatMap nonSpace) := by
  induction sentences generalizing d with
  | nil => exact ⟨d, fun _ _ => rfl, .refl fits⟩
  | cons sentence sentences ih =>
    obtain ⟨next, ends, grows⟩ := addSentence_ends positive d fits sentence
    obtain ⟨d', endsLater, growsLater⟩ := ih next grows.cur
    refine ⟨d', ?_, ?_⟩
    · intro fuel enough
      rw [List.flatten_cons, List.length_append] at enough
      rw [List.foldlM_cons, ends fuel (by omega)]
      exact endsLater fuel (by omega)
    · rw [List.flatMap_cons]
      exact grows.trans growsLater

end

theorem addSentence_short {maxChars : Int} {fuel : Nat} (some_fuel : 0 < fuel) {sentence : Text}
    (short : (sentence.length : Int) ≤ maxChars) (d : Draft) :
    addSentence maxChars fuel d sentence = some (packSentence maxChars d sentence) := by
  obtain ⟨fuel, rfl⟩ : ∃ n, fuel = n + 1 := ⟨fuel - 1, by omega⟩
  rw [addSentence, hardSplit, if_neg (by omega)]
  rfl

theorem addSentences_short {maxChars : Int} {fuel : Nat} (some_fuel : 0 < fuel) {sentences : List Text}
    (short : ∀ s ∈ sentences, (s.length : Int) ≤ maxChars) (d : Draft) :
    sentences.foldlM (addSentence maxChars fuel) d =
      some (sentences.foldl (packSentence maxChars) d) := by
  induction sentences generalizing d with
  | nil => rfl
  | cons sentence sentences ih =>
    rw [List.foldlM_cons, addSentence_short some_fuel (short sentence (by simp))]
    exact ih (fun s member => short s (List.mem_cons_of_mem _ member)) _

/-- Sentences that fit are packed whole: `run` is what the draft is packing. -/
theorem foldl_packSentence (maxChars : Int) {sentences : List Text} (nonempty : ∀ s ∈ sentences, s ≠ [])
    (d : Draft) (run : List Text) (atRun : d.cur = join run) (filled : ∀ s ∈ run, s ≠ []) :
    ∃ (runs : List (List Text)) (last : List Text),
      sentences.foldl (packSentence maxChars) d = ⟨d.segments ++ runs.map join, join last⟩ ∧
      runs.flatten ++ last = run ++ sentences ∧ (∀ r ∈ runs, r ≠ []) ∧ ∀ s ∈ last, s ≠ [] := by
  induction sentences generalizing d run with
  | nil =>
    refine ⟨[], run, ?_, by simp, by simp, filled⟩
    rw [List.foldl_nil, List.map_nil, List.append_nil, ← atRun]
  | cons sentence sentences ih =>
    have first := nonempty sentence (by simp)
    have later := fun s member => nonempty s (List.mem_cons_of_mem _ member)
    have extended : ∀ s ∈ run ++ [sentence], s ≠ [] := by
      intro s member
      rcases List.mem_append.mp member with member | member
      · exact filled s member
      · rwa [List.mem_singleton.mp member]
    rw [List.foldl_cons, packSentence]
    split
    · rename_i empty
      have none : run = [] := by
        by_contra some_run
        exact join_ne_nil some_run filled (atRun.symm.trans empty)
      subst none
      obtain ⟨runs, last, packed, kept, fine⟩ := ih later ⟨d.segments, sentence⟩ [sentence] rfl extended
      exact ⟨runs, last, packed, kept, fine⟩
    · rename_i some_cur
      have some_run : run ≠ [] := by
        rintro rfl
        exact some_cur atRun
      split
      · obtain ⟨runs, last, packed, kept, fine⟩ :=
          ih later ⟨d.segments, d.cur ++ ' ' :: sentence⟩ (run ++ [sentence])
            (by rw [join_append run sentence some_run, atRun]) extended
        exact ⟨runs, last, packed, by rw [kept, List.append_assoc]; rfl, fine⟩
      · obtain ⟨runs, last, packed, kept, fine, rest⟩ :=
          ih later ⟨d.segments ++ [d.cur], sentence⟩ [sentence] rfl (by simpa using first)
        refine ⟨run :: runs, last, ?_, ?_, ?_, rest⟩
        · rw [packed, atRun, List.map_cons, List.append_assoc]
          rfl
        · rw [List.flatten_cons, List.append_assoc, kept]
          rfl
        · intro r member
          rcases List.mem_cons.mp member with rfl | member
          · exact some_run
          · exact fine r member

/-- Its whitespace is single spaces, each with something visible after it. -/
def Spaced : Text → Prop
  | [] => True
  | c :: rest => (isSpace c = true → c = ' ' ∧ ∃ d ∈ rest.head?, isSpace d = false) ∧ Spaced rest

theorem spaced_append {w s : Text} (visible : ∀ c ∈ w, isSpace c = false) (spaced : Spaced s) :
    Spaced (w ++ s) := by
  induction w with
  | nil => exact spaced
  | cons c w ih =>
    refine ⟨?_, ih fun d member => visible d (List.mem_cons_of_mem _ member)⟩
    intro space
    rw [visible c (by simp)] at space
    cases space

theorem spaced_join {words : List Text} (fine : ∀ w ∈ words, w ≠ [] ∧ ∀ c ∈ w, isSpace c = false) :
    Spaced (join words) ∧ (words ≠ [] → ∃ c ∈ (join words).head?, isSpace c = false) := by
  induction words with
  | nil => exact ⟨trivial, fun some_word => absurd rfl some_word⟩
  | cons w words ih =>
    obtain ⟨filled, visible⟩ := fine w (by simp)
    obtain ⟨c, w', rfl⟩ := List.exists_cons_of_ne_nil filled
    obtain ⟨spaced, starts⟩ := ih fun v member => fine v (List.mem_cons_of_mem _ member)
    cases words with
    | nil =>
      refine ⟨?_, fun _ => ⟨c, rfl, visible c (by simp)⟩⟩
      simpa [join] using spaced_append visible (s := []) trivial
    | cons v words =>
      rw [join_cons_cons]
      refine ⟨spaced_append visible ⟨fun _ => ⟨rfl, starts (by simp)⟩, spaced⟩, ?_⟩
      intro _
      exact ⟨c, rfl, visible c (by simp)⟩

theorem splitSentences_ne_nil (skipping : Bool) (part s : Text) : splitSentences skipping part s ≠ [] := by
  induction s generalizing skipping part with
  | nil => simp [splitSentences]
  | cons c rest ih =>
    rw [splitSentences]
    split
    · exact ih _ _
    · split
      · simp
      · exact ih _ _

/-- Splitting a collapsed paragraph takes out a space between one sentence and the next. -/
theorem splitSentences_spaced {s : Text} (spaced : Spaced s) {part : Text}
    (starts : part ≠ [] ∨ ∃ c ∈ s.head?, isSpace c = false) :
    join (splitSentences false part s) = part ++ s ∧ ∀ p ∈ splitSentences false part s, p ≠ [] := by
  induction s generalizing part with
  | nil =>
    rcases starts with filled | ⟨c, none, -⟩
    · simp [splitSentences, join, filled]
    · cases none
  | cons c rest ih =>
    have more : ∀ part, join (splitSentences false (part ++ [c]) rest) = part ++ c :: rest ∧
        ∀ p ∈ splitSentences false (part ++ [c]) rest, p ≠ [] := by
      intro part
      have whole := @ih spaced.2 (part ++ [c]) (.inl (by simp))
      rwa [List.append_assoc] at whole
    rw [splitSentences, if_neg (by simp)]
    split
    · rename_i ended
      obtain ⟨rfl, d, first, visible⟩ := spaced.1 ended.1
      obtain ⟨rest, rfl⟩ := List.head?_eq_some_iff.mp first
      have next : splitSentences true [] (d :: rest) = splitSentences false [] (d :: rest) := by
        simp [splitSentences, visible]
      obtain ⟨joined, fine⟩ := @ih spaced.2 [] (.inr ⟨d, rfl, visible⟩)
      have some_part : part ≠ [] := by
        rintro rfl
        cases ended.2
      rw [next]
      refine ⟨?_, ?_⟩
      · obtain ⟨s, more, parts⟩ :=
          List.exists_cons_of_ne_nil (splitSentences_ne_nil false [] (d :: rest))
        rw [parts] at joined ⊢
        rw [join_cons_cons, joined, List.nil_append]
      · intro p member
        rcases List.mem_cons.mp member with rfl | member
        · exact some_part
        · exact fine p member
    · exact more part

theorem blankLineAt_some {c : Char} {rest : Text} {length : Nat}
    (found : blankLineAt (c :: rest) = some length) :
    ∃ spaces after, c = '\n' ∧ rest = spaces ++ '\n' :: after ∧ length = spaces.length + 2 ∧
      ∀ d ∈ spaces, isSpace d = true := by
  unfold blankLineAt at found
  split at found
  · rename_i rest' same
    obtain ⟨rfl, rfl⟩ := List.cons.inj same
    simp only at found
    split at found
    · rename_i inside
      rcases rfind_cases '\n' (rest.takeWhile isSpace) with ⟨absent, -⟩ | ⟨i, atLast, newline, -⟩
      · rw [absent] at inside
        exact absurd inside (by decide)
      · rw [atLast, Int.toNat_natCast] at found
        obtain ⟨bound, isNewline⟩ := List.getElem?_eq_some_iff.mp newline
        refine ⟨(rest.takeWhile isSpace).take i,
          (rest.takeWhile isSpace).drop (i + 1) ++ rest.dropWhile isSpace, rfl, ?_, ?_, ?_⟩
        · rw [← List.cons_append, ← isNewline, ← List.append_assoc, List.getElem_cons_drop,
            List.take_append_drop, List.takeWhile_append_dropWhile]
        · rw [← Option.some.inj found, List.length_take]
          omega
        · intro d member
          exact List.mem_takeWhile_imp (List.mem_of_mem_take member)
    · cases found
  · cases found

theorem blankLineAt_append {gap : Text} (blank : BlankLine gap) (s : Text) :
    blankLineAt (gap ++ s) ≠ none := by
  obtain ⟨spaces, rfl, all⟩ := blank
  have run : '\n' ∈ (spaces ++ '\n' :: s).takeWhile isSpace := by
    rw [List.takeWhile_append_of_pos all, List.takeWhile_cons_of_pos (by decide)]
    simp
  have inside : 0 ≤ rfind '\n' ((spaces ++ '\n' :: s).takeWhile isSpace) := by
    rcases rfind_cases '\n' ((spaces ++ '\n' :: s).takeWhile isSpace) with ⟨-, absent⟩ | ⟨i, atLast, -⟩
    · exact absurd run absent
    · omega
  have shape : '\n' :: spaces ++ ['\n'] ++ s = '\n' :: (spaces ++ '\n' :: s) := by simp
  rw [shape, blankLineAt]
  simp only [inside, if_true]
  simp

theorem splitParagraphs_skip (skip : Nat) (part s : Text) :
    splitParagraphs skip part s = splitParagraphs 0 part (s.drop skip) := by
  induction s generalizing skip with
  | nil => simp [splitParagraphs]
  | cons c rest ih =>
    cases skip with
    | zero => rfl
    | succ skip =>
      rw [splitParagraphs, List.drop_succ_cons]
      exact ih skip

/-- One step of the split: a blank line ends the part, any other character is added to it. -/
theorem splitParagraphs_cons (part : Text) (c : Char) (rest : Text) :
    (∃ gap after, BlankLine gap ∧ c :: rest = gap ++ after ∧ after.length < rest.length ∧
        splitParagraphs 0 part (c :: rest) = part :: splitParagraphs 0 [] after) ∨
      blankLineAt (c :: rest) = none ∧
        splitParagraphs 0 part (c :: rest) = splitParagraphs 0 (part ++ [c]) rest := by
  cases found : blankLineAt (c :: rest) with
  | none =>
    refine .inr ⟨rfl, ?_⟩
    simp only [splitParagraphs, found]
  | some length =>
    obtain ⟨spaces, after, rfl, rfl, rfl, all⟩ := blankLineAt_some found
    refine .inl ⟨'\n' :: spaces ++ ['\n'], after, ⟨spaces, rfl, all⟩, by simp, by simp; omega, ?_⟩
    simp only [splitParagraphs, found]
    rw [splitParagraphs_skip]
    simp

theorem separated_splitParagraphs (part s : Text) :
    Separated (splitParagraphs 0 part s) (part ++ s) := by
  generalize size : s.length = n
  induction n using Nat.strong_induction_on generalizing part s with
  | _ n ih =>
    subst size
    cases s with
    | nil =>
      rw [List.append_nil]
      exact .last part
    | cons c rest =>
      rcases splitParagraphs_cons part c rest with ⟨gap, after, blank, whole, shorter, ends⟩ | ⟨-, goes⟩
      · rw [ends, whole, ← List.append_assoc]
        exact .cons blank (ih _ (by simp; omega) [] after rfl)
      · have more := ih _ (by simp) (part ++ [c]) rest rfl
        rw [goes]
        rwa [List.append_assoc] at more

/-- `part` is followed by `s`, and no blank line begins in it. -/
def Unbroken (part s : Text) : Prop :=
  ∀ before after, part = before ++ after → after ≠ [] → blankLineAt (after ++ s) = none

theorem Unbroken.no_gap {part s gap : Text} (unbroken : Unbroken part s) (blank : BlankLine gap) :
    ¬ gap <:+: part := by
  rintro ⟨before, after, rfl⟩
  have none := unbroken before (gap ++ after) (by simp) (by
    obtain ⟨spaces, rfl, -⟩ := blank
    simp)
  rw [List.append_assoc] at none
  exact blankLineAt_append blank _ none

theorem splitParagraphs_unbroken {part s : Text} (unbroken : Unbroken part s) :
    ∀ p ∈ splitParagraphs 0 part s, ∀ gap, BlankLine gap → ¬ gap <:+: p := by
  generalize size : s.length = n
  induction n using Nat.strong_induction_on generalizing part s with
  | _ n ih =>
    subst size
    cases s with
    | nil =>
      intro p member gap blank
      rw [splitParagraphs, List.mem_singleton] at member
      rw [member]
      exact unbroken.no_gap blank
    | cons c rest =>
      rcases splitParagraphs_cons part c rest with ⟨gap, after, blank, whole, shorter, ends⟩ | ⟨none, goes⟩
      · intro p member
        rw [ends] at member
        rcases List.mem_cons.mp member with rfl | member
        · exact fun _ => unbroken.no_gap
        · refine @ih _ (by simp; omega) [] after ?_ rfl p member
          intro before after' empty some_after
          exact absurd (List.append_eq_nil_iff.mp empty.symm).2 some_after
      · rw [goes]
        refine @ih _ (by simp) (part ++ [c]) rest ?_ rfl
        intro before after same some_after
        rcases List.eq_nil_or_concat' after with rfl | ⟨front, d, rfl⟩
        · exact absurd rfl some_after
        · rw [← List.append_assoc] at same
          obtain ⟨whole, last⟩ := List.append_inj' same rfl
          obtain rfl : c = d := (List.cons.inj last).1
          rw [List.append_assoc]
          rcases List.eq_nil_or_concat' front with rfl | ⟨_, _, rfl⟩
          · exact none
          · exact unbroken before _ whole (by simp)

theorem Separated.flatMap_split {parts : List Text} {text : Text} (separated : Separated parts text) :
    parts.flatMap split = split text := by
  induction separated with
  | last part => simp
  | @cons part gap rest _ blank _ ih =>
    obtain ⟨spaces, rfl, all⟩ := blank
    have newline : isSpace '\n' = true := rfl
    have shape : part ++ ('\n' :: spaces ++ ['\n']) ++ rest =
        part ++ '\n' :: (spaces ++ '\n' :: rest) := by simp
    rw [List.flatMap_cons, ih, shape, split_append_space newline, split_append_spaces all,
      split_cons_space newline]

theorem collapse_spaced (para : Text) (filled : join (split para) ≠ []) :
    join (sentences (join (split para))) = join (split para) ∧
      ∀ s ∈ sentences (join (split para)), s ≠ [] := by
  obtain ⟨spaced, starts⟩ := spaced_join fun w (member : w ∈ split para) => mem_split member
  have some_word : split para ≠ [] := by
    intro none
    rw [none] at filled
    exact filled rfl
  exact @splitSentences_spaced _ spaced [] (.inr (starts some_word))

section

variable {maxChars : Nat} (positive : 0 < maxChars)

include positive

theorem addParagraph_ends (segments : List Text) {para : Text} (filled : join (split para) ≠ []) :
    ∃ group n, (∀ fuel, n < fuel →
        addParagraph maxChars fuel segments para = some (segments ++ group)) ∧
      Renders maxChars (join (split para)) group := by
  obtain ⟨joined, nonempty⟩ := collapse_spaced para filled
  have some_sentence : sentences (join (split para)) ≠ [] := splitSentences_ne_nil _ _ _
  have content : (sentences (join (split para))).flatMap nonSpace = nonSpace (join (split para)) := by
    rw [← nonSpace_join, joined]
  by_cases short : (join (split para)).length ≤ maxChars
  · refine ⟨[join (split para)], 0, ?_, ?_, by simp, ?_⟩
    · intro fuel _
      rw [addParagraph, if_neg filled, if_pos (by exact_mod_cast short)]
    · intro s member
      rw [List.mem_singleton.mp member]
      exact ⟨filled, by exact_mod_cast short⟩
    · intro _
      exact ⟨[sentences (join (split para))], by simpa using some_sentence, by simp, by simp [joined]⟩
  · obtain ⟨d, ends, grows⟩ := addSentences_end positive ⟨segments, []⟩ (Nat.zero_le _)
      (sentences (join (split para)))
    have flushed := grows.trans (Draft.grows_flush grows.cur)
    obtain ⟨group, atGroup, bounded, kept⟩ := flushed.more
    refine ⟨group, (sentences (join (split para))).flatten.length, ?_, ?_, ?_, ?_⟩
    · intro fuel enough
      have folded := ends fuel enough
      rw [addParagraph, if_neg filled, if_neg (by exact_mod_cast short)]
      rw [sentences] at folded
      rw [folded, ← atGroup]
      rfl
    · intro s member
      exact ⟨(bounded s member).1, by exact_mod_cast (bounded s member).2⟩
    · simpa [content] using kept
    · intro fit
      obtain ⟨runs, last, packed, whole, some_runs, filledLast⟩ :=
        foldl_packSentence maxChars nonempty ⟨segments, []⟩ [] rfl (by simp)
      have same := (addSentences_short (Nat.succ_pos _) fit ⟨segments, []⟩).symm.trans
        (ends _ (Nat.lt_succ_self _))
      rw [packed, Option.some.injEq] at same
      rw [← same] at atGroup
      rw [List.nil_append] at whole
      by_cases none : last = []
      · subst none
        refine ⟨runs, some_runs, by simpa using whole, ?_⟩
        simpa [Draft.flush, join] using atGroup.symm
      · refine ⟨runs ++ [last], ?_, by simpa using whole, ?_⟩
        · intro run member
          rcases List.mem_append.mp member with member | member
          · exact some_runs run member
          · rwa [List.mem_singleton.mp member]
        · have some_cur := join_ne_nil none filledLast
          simpa [Draft.flush, some_cur] using atGroup.symm

theorem addParagraphs_end (segments : List Text) (parts : List Text) :
    ∃ groups n, (∀ fuel, n < fuel →
        parts.foldlM (addParagraph maxChars fuel) segments = some (segments ++ groups.flatten)) ∧
      List.Forall₂ (Renders maxChars)
        ((parts.map fun para => join (split para)).filter (· ≠ [])) groups := by
  induction parts generalizing segments with
  | nil => exact ⟨[], 0, fun _ _ => by simp, .nil⟩
  | cons para parts ih =>
    by_cases blank : join (split para) = []
    · obtain ⟨groups, n, ends, rendered⟩ := ih segments
      refine ⟨groups, n, ?_, by simpa [blank] using rendered⟩
      intro fuel enough
      rw [List.foldlM_cons, addParagraph, if_pos blank]
      exact ends fuel enough
    · obtain ⟨group, n, ends, rendered⟩ := addParagraph_ends positive segments blank
      obtain ⟨groups, m, endsLater, renderedLater⟩ := ih (segments ++ group)
      refine ⟨group :: groups, max n m, ?_, ?_⟩
      · intro fuel enough
        rw [List.foldlM_cons, ends fuel (by omega), List.flatten_cons, ← List.append_assoc]
        exact endsLater fuel (by omega)
      · simpa [blank] using List.Forall₂.cons rendered renderedLater

end

theorem flatMap_flatten {β : Type} {f : Text → List β} {R : Text → List Text → Prop}
    {paras : List Text} {groups : List (List Text)} (each : List.Forall₂ R paras groups)
    (same : ∀ para ∈ paras, ∀ group, R para group → group.flatMap f = f para) :
    groups.flatten.flatMap f = paras.flatMap f := by
  induction each with
  | nil => rfl
  | cons rendered _ ih =>
    rw [List.flatten_cons, List.flatMap_append, same _ (by simp) _ rendered, List.flatMap_cons,
      ih fun para member => same para (List.mem_cons_of_mem _ member)]

theorem exists_of_mem_groups {R : Text → List Text → Prop} {paras : List Text}
    {groups : List (List Text)} (each : List.Forall₂ R paras groups) {group : List Text}
    (member : group ∈ groups) : ∃ para ∈ paras, R para group := by
  induction each with
  | nil => cases member
  | cons rendered _ ih =>
    rcases List.mem_cons.mp member with rfl | later
    · exact ⟨_, List.mem_cons_self .., rendered⟩
    · obtain ⟨para, inside, others⟩ := ih later
      exact ⟨para, List.mem_cons_of_mem _ inside, others⟩

theorem mem_paragraphs {text para : Text} (member : para ∈ paragraphs text) :
    para ≠ [] ∧ join (split para) = para := by
  obtain ⟨collapsed, filled⟩ := List.mem_filter.mp member
  obtain ⟨part, -, rfl⟩ := List.mem_map.mp collapsed
  exact ⟨by simpa using filled, by rw [split_join_split]⟩

theorem paragraphs_flatMap_split (text : Text) : (paragraphs text).flatMap split = split text := by
  have blankless : ∀ parts : List Text,
      ((parts.map fun para => join (split para)).filter (· ≠ [])).flatMap split =
        parts.flatMap split := by
    intro parts
    induction parts with
    | nil => rfl
    | cons part parts ih =>
      by_cases blank : join (split part) = []
      · have none : split part = [] := by rw [← split_join_split, blank, split_nil]
        rw [List.map_cons, List.filter_cons_of_neg (by simpa using blank), ih, List.flatMap_cons, none,
          List.nil_append]
      · rw [List.map_cons, List.filter_cons_of_pos (by simpa using blank), List.flatMap_cons, ih,
          split_join_split, List.flatMap_cons]
  rw [paragraphs, blankless, (separated_splitParagraphs [] (strip text)).flatMap_split,
    List.nil_append, split_strip]

theorem flatMap_nonSpace_eq (pieces : List Text) :
    pieces.flatMap nonSpace = (pieces.flatMap split).flatten := by
  induction pieces with
  | nil => rfl
  | cons piece pieces ih => rw [List.flatMap_cons, List.flatMap_cons, List.flatten_append, ih, flatten_split]

theorem Renders.flatMap_split {maxChars : Int} {para : Text} {segments : List Text}
    (rendered : Renders maxChars para segments) (fine : para ≠ [] ∧ join (split para) = para)
    (fit : ∀ s ∈ sentences para, (s.length : Int) ≤ maxChars) : segments.flatMap split = split para := by
  obtain ⟨runs, -, whole, rfl⟩ := rendered.whole fit
  have joined := (collapse_spaced para (by rw [fine.2]; exact fine.1)).1
  rw [fine.2] at joined
  have eachRun : ∀ rs : List (List Text), (rs.map join).flatMap split = rs.flatten.flatMap split := by
    intro rs
    induction rs with
    | nil => rfl
    | cons run rs ih =>
      rw [List.map_cons, List.flatMap_cons, ih, split_join, List.flatten_cons, List.flatMap_append]
  rw [eachRun, whole, ← split_join, joined]

/-- For every text and every positive bound: the segments are bounded, lose and add nothing, keep to
their paragraphs, and are whole sentences where the sentences fit. -/
theorem splitSegments_splits (maxChars : Int) (positive : 0 < maxChars) (text : Text) :
    ∃ segments, SplitsText maxChars text segments ∧
      ∃ n, ∀ fuel, n < fuel → splitSegments maxChars fuel text = some segments := by
  obtain ⟨bound, rfl⟩ := Int.eq_ofNat_of_zero_le (Int.le_of_lt positive)
  obtain ⟨groups, n, ends, rendered⟩ :=
    addParagraphs_end (by omega : 0 < bound) [] (splitParagraphs 0 [] (strip text))
  have each : List.Forall₂ (Renders bound) (paragraphs text) groups := rendered
  refine ⟨groups.flatten, ⟨?_, ?_, ?_, ?_, ⟨groups, rfl, each⟩, ?_⟩, n, ends⟩
  · exact separated_splitParagraphs [] (strip text)
  · apply splitParagraphs_unbroken
    intro before after empty some_after
    exact absurd (List.append_eq_nil_iff.mp empty.symm).2 some_after
  · intro s member
    obtain ⟨group, isGroup, inside⟩ := List.mem_flatten.mp member
    obtain ⟨para, -, rendered⟩ := exists_of_mem_groups each isGroup
    exact rendered.bounded s inside
  · rw [flatMap_flatten each fun _ _ _ rendered => rendered.content, flatMap_nonSpace_eq,
      paragraphs_flatMap_split, flatten_split]
  · intro fit
    rw [← paragraphs_flatMap_split]
    apply flatMap_flatten each
    intro para member group rendered
    exact rendered.flatMap_split (mem_paragraphs member) (fit para member)

theorem two_paragraphs_split :
    (0 : Int) < 9 ∧ ∃ segments, SplitsText 9 "One. Two.\nSix\n \nSeventyfive. Ten".toList segments ∧
      ∃ n, ∀ fuel, n < fuel →
        splitSegments 9 fuel "One. Two.\nSix\n \nSeventyfive. Ten".toList = some segments :=
  ⟨by decide, splitSegments_splits 9 (by decide) _⟩

theorem hardSplit_none {maxChars : Int} (low : maxChars ≤ 0) (fuel : Nat) {sentence : Text}
    (filled : maxChars < 0 ∨ sentence ≠ []) (d : Draft) : hardSplit maxChars fuel d sentence = none := by
  induction fuel generalizing sentence d with
  | zero => rfl
  | succ fuel ih =>
    have long : maxChars < sentence.length := by
      rcases filled with negative | filled
      · omega
      · have size := List.length_pos_iff.mpr filled
        omega
    rw [hardSplit, if_pos long]
    apply ih
    rcases Int.lt_or_eq_of_le low with negative | rfl
    · exact .inl negative
    · rw [sliceFrom_zero]
      exact filled

theorem addParagraph_none {maxChars : Int} (low : maxChars ≤ 0) (fuel : Nat) (segments : List Text)
    {para : Text} (filled : join (split para) ≠ []) : addParagraph maxChars fuel segments para = none := by
  have size := List.length_pos_iff.mpr filled
  obtain ⟨s, rest, parts⟩ :=
    List.exists_cons_of_ne_nil (splitSentences_ne_nil false [] (join (split para)))
  have nonempty := (collapse_spaced para filled).2 s (by rw [sentences, parts]; simp)
  rw [addParagraph, if_neg filled, if_neg (by omega), parts, List.foldlM_cons, addSentence,
    hardSplit_none low fuel (.inr nonempty)]
  rfl

theorem addParagraphs_none {maxChars : Int} (low : maxChars ≤ 0) (fuel : Nat) {parts : List Text}
    {para : Text} (member : para ∈ parts) (filled : join (split para) ≠ []) (segments : List Text) :
    parts.foldlM (addParagraph maxChars fuel) segments = none := by
  induction parts with
  | nil => cases member
  | cons part parts ih =>
    rw [List.foldlM_cons]
    by_cases blank : join (split part) = []
    · have later : para ∈ parts := by
        rcases List.mem_cons.mp member with rfl | later
        · exact absurd blank filled
        · exact later
      rw [addParagraph, if_pos blank]
      exact ih later
    · rw [addParagraph_none low fuel segments blank]
      rfl

theorem splitSegments_none {maxChars : Int} (low : maxChars ≤ 0) {text : Text} (filled : strip text ≠ [])
    (fuel : Nat) : splitSegments maxChars fuel text = none := by
  have some_word : split text ≠ [] := by
    intro none
    have visible := flatten_split text
    rw [none] at visible
    exact filled (strip_eq_nil visible.symm)
  obtain ⟨para, inside⟩ : ∃ para, para ∈ paragraphs text := by
    apply List.exists_mem_of_ne_nil
    intro none
    rw [← paragraphs_flatMap_split, none] at some_word
    exact some_word rfl
  obtain ⟨collapsed, kept⟩ := List.mem_filter.mp inside
  obtain ⟨part, member, rfl⟩ := List.mem_map.mp collapsed
  exact addParagraphs_none low fuel member (by simpa using kept) []

/-- For every text and every bound: the call terminates exactly when the bound is positive or the text
is blank. -/
theorem splitSegments_terminates_iff (maxChars : Int) (text : Text) :
    Terminates maxChars text ↔ 0 < maxChars ∨ strip text = [] := by
  constructor
  · intro terminates
    by_contra stuck
    obtain ⟨low, filled⟩ := not_or.mp stuck
    obtain ⟨segments, n, ends⟩ := terminates.ends
    have some_segments := ends (n + 1) (Nat.lt_succ_self n)
    rw [splitSegments_none (by omega) filled] at some_segments
    cases some_segments
  · rintro (positive | blank)
    · obtain ⟨segments, -, ends⟩ := splitSegments_splits maxChars positive text
      obtain ⟨bound, rfl⟩ := Int.eq_ofNat_of_zero_le (Int.le_of_lt positive)
      refine ⟨⟨segments, ends⟩, ?_⟩
      intro _ _ _ _ _ remaining _ long
      exact length_sliceFrom_lt (by omega : 0 < bound) (by exact_mod_cast long)
    · refine ⟨⟨[], 0, ?_⟩, ?_⟩
      · intro fuel _
        rw [splitSegments, blank]
        rfl
      · intro para member
        have none : paragraphs text = [] := by
          rw [paragraphs, blank]
          rfl
        rw [none] at member
        cases member

theorem zero_bound_never_ends :
    (∀ fuel, splitSegments 0 fuel "Hi".toList = none) ∧ ¬ Terminates 0 "Hi".toList := by
  have never : ∀ fuel, splitSegments 0 fuel "Hi".toList = none :=
    splitSegments_none (Int.le_refl 0) (by decide)
  refine ⟨never, ?_⟩
  intro terminates
  obtain ⟨segments, n, ends⟩ := terminates.ends
  have some_segments := ends (n + 1) (Nat.lt_succ_self n)
  rw [never] at some_segments
  cases some_segments

end Clients

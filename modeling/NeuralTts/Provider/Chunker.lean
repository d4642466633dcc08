import Mathlib.Data.List.Chain
import NeuralTts.Library.PyText

/-! `chunker.py` of the providers that synthesize a text in pieces. Those of omnivoice and
longcat-audiodit are the same; that of qwen3-tts has the same code with limits of its own. -/

namespace Provider

open Library PyText

abbrev Text := List Char

/-- A match of `[,;:—–]\s+|\s+—\s+` at the start of the text: its length. -/
def softBreakAt : Text → Option Nat
  | [] => none
  | c :: rest =>
    let spaces := (rest.takeWhile isSpace).length
    if c ∈ [',', ';', ':', '—', '–'] ∧ 0 < spaces then some (1 + spaces)
    else if isSpace c then
      match rest.dropWhile isSpace with
      | '—' :: after =>
        let later := (after.takeWhile isSpace).length
        if 0 < later then some (1 + spaces + 1 + later) else none
      | _ => none
    else none

/-- The ends of the matches that `finditer` finds, with `skip` characters of the last still ahead. -/
def softBreaks (index skip : Nat) : Text → List Nat
  | [] => []
  | c :: rest =>
    match skip with
    | skip + 1 => softBreaks (index + 1) skip rest
    | 0 =>
      match softBreakAt (c :: rest) with
      | some length => (index + length) :: softBreaks (index + 1) (length - 1) rest
      | none => softBreaks (index + 1) 0 rest

/-- Where the loop of `_split_oversized` cuts what remains: behind the last soft break of its head,
or behind its last space, or at the cap. -/
def cutOf (hardCap : Int) (remaining : Text) : Int :=
  let head := sliceTo remaining hardCap
  match (softBreaks 0 0 head).getLast? with
  | some cut => cut
  | none => if 0 < rfind ' ' head then rfind ' ' head + 1 else hardCap

def pieceOf (hardCap : Int) (remaining : Text) : Text :=
  strip (sliceTo remaining (cutOf hardCap remaining))

def restOf (hardCap : Int) (remaining : Text) : Text :=
  lstrip (sliceFrom remaining (cutOf hardCap remaining))

/-- The loop of `_split_oversized`, for so many turns at most. -/
def splitLoop (hardCap : Int) : Nat → Text → List Text → Option (List Text)
  | 0, _, _ => none
  | fuel + 1, remaining, pieces =>
    if hardCap < remaining.length then
      splitLoop hardCap fuel (restOf hardCap remaining) (pieces ++ [pieceOf hardCap remaining])
    else some (if remaining = [] then pieces else pieces ++ [remaining])

def splitOversized (hardCap : Int) (fuel : Nat) (sentence : Text) : Option (List Text) :=
  if sentence.length ≤ hardCap then some [sentence]
  else (splitLoop hardCap fuel sentence []).map fun pieces => pieces.filter (· ≠ [])

def piecesOf (hardCap : Int) (fuel : Nat) (s : Text) : Option (List Text) :=
  if hardCap < s.length then splitOversized hardCap fuel s else some [s]

def expand (hardCap : Int) (fuel : Nat) : List Text → Option (List Text)
  | [] => some []
  | s :: rest => do
    let pieces ← piecesOf hardCap fuel s
    let more ← expand hardCap fuel rest
    some (pieces ++ more)

/-- The packing loop of `chunk`, with the pieces that each chunk is joined of. -/
def pack (target : Int) (buf : List Text) (bufLen : Nat) : List Text → List (List Text)
  | [] => if buf = [] then [] else [buf]
  | s :: rest =>
    let addition := s.length + if buf = [] then 0 else 1
    if buf ≠ [] ∧ target < (bufLen + addition : Nat) then buf :: pack target [s] s.length rest
    else pack target (buf ++ [s]) (bufLen + addition) rest

/-- `chunk`, with what segments its text; `none` when a loop does not end within the fuel. -/
def chunk (target hardCap : Int) (fuel : Nat) (segment : Text → List Text) (text : Text) :
    Option (List Text) :=
  let text := strip text
  if text = [] then some []
  else (expand hardCap fuel (segment text)).map fun pieces => (pack target [] 0 pieces).map join

def targetChars : Int := 220

def hardCapChars : Int := 400

def endsSentence (part : Text) : Bool :=
  part.getLast?.any fun c => c ∈ ['.', '!', '?', '。', '！', '？']

/-- `re.split` at whitespace that follows the end of a sentence; `skipping` is within such. -/
def regexSplit (skipping : Bool) (part : Text) : Text → List Text
  | [] => [part]
  | c :: rest =>
    if isSpace c = true ∧ skipping = true then regexSplit true part rest
    else if isSpace c = true ∧ endsSentence part = true then part :: regexSplit true [] rest
    else regexSplit false (part ++ [c]) rest

def regexSegment (text : Text) : List Text :=
  ((regexSplit false [] (strip text)).map strip).filter (· ≠ [])

/-- The sentences have the characters of the text, are stripped and not empty. -/
structure Segments (text : Text) (sentences : List Text) : Prop where
  content : sentences.flatMap nonSpace = nonSpace text
  nonempty : ∀ s ∈ sentences, s ≠ []
  stripped : ∀ s ∈ sentences, strip s = s

/-- What the chunks of a text are: joined of groups of its pieces, within the limits, and each group
as long as it can be. -/
structure Packed (target hardCap : Int) (pieces : List Text) (text : Text) (chunks : List Text) :
    Prop where
  nonempty : ∀ c ∈ chunks, c ≠ []
  content : chunks.flatMap nonSpace = nonSpace text
  capped : ∀ c ∈ chunks, (c.length : Int) ≤ hardCap
  groups : ∃ groups : List (List Text), groups.flatten = pieces ∧ chunks = groups.map join ∧
    (∀ g ∈ groups, g ≠ [] ∧ (1 < g.length → ((join g).length : Int) ≤ target)) ∧
    groups.IsChain fun g next => ∀ first ∈ next.head?, target < (join g).length + 1 + first.length

theorem softBreakAt_some {s : Text} {length : Nat} (found : softBreakAt s = some length) :
    2 ≤ length ∧ length ≤ s.length ∧ ∃ c, s[length - 1]? = some c ∧ isSpace c = true := by
  cases s with
  | nil => cases found
  | cons c rest =>
    simp only [softBreakAt] at found
    have within := (List.takeWhile_prefix isSpace (l := rest)).length_le
    split at found
    · rename_i punctuation
      obtain rfl := Option.some.inj found
      obtain ⟨x, last, space⟩ := mem_takeWhile_isSpace (s := rest)
        (i := (rest.takeWhile isSpace).length - 1) (by omega)
      refine ⟨by omega, by rw [List.length_cons]; omega, x, ?_, space⟩
      have index : 1 + (rest.takeWhile isSpace).length - 1 =
          ((rest.takeWhile isSpace).length - 1) + 1 := by omega
      rw [index, List.getElem?_cons_succ]
      exact last
    · split at found
      · split at found
        · rename_i after dropped
          split at found
          · rename_i later
            obtain rfl := Option.some.inj found
            obtain ⟨x, last, space⟩ := mem_takeWhile_isSpace (s := after)
              (i := (after.takeWhile isSpace).length - 1) (by omega)
            have whole := List.takeWhile_append_dropWhile (p := isSpace) (l := rest)
            rw [dropped] at whole
            have afterWithin := (List.takeWhile_prefix isSpace (l := after)).length_le
            have lengths := congrArg List.length whole
            rw [List.length_append, List.length_cons] at lengths
            refine ⟨by omega, by rw [List.length_cons]; omega, x, ?_, space⟩
            generalize rest.takeWhile isSpace = front at whole
            have index : 1 + front.length + 1 + (after.takeWhile isSpace).length - 1 =
                (front.length + (((after.takeWhile isSpace).length - 1) + 1)) + 1 := by omega
            rw [index, List.getElem?_cons_succ, ← whole,
              List.getElem?_append_right (Nat.le_add_right _ _), Nat.add_sub_cancel_left,
              List.getElem?_cons_succ]
            exact last
          · cases found
        · cases found
      · cases found

theorem mem_softBreaks {s : Text} {index skip cut : Nat} (found : cut ∈ softBreaks index skip s) :
    ∃ i, cut = index + i ∧ 2 ≤ i ∧ i ≤ s.length ∧ ∃ c, s[i - 1]? = some c ∧ isSpace c = true := by
  induction s generalizing index skip with
  | nil => cases found
  | cons c rest ih =>
    have later : ∀ {skip}, cut ∈ softBreaks (index + 1) skip rest →
        ∃ i, cut = index + i ∧ 2 ≤ i ∧ i ≤ (c :: rest).length ∧
          ∃ x, (c :: rest)[i - 1]? = some x ∧ isSpace x = true := by
      intro skip member
      obtain ⟨i, rfl, two, within, x, last, space⟩ := ih member
      refine ⟨i + 1, by omega, by omega, by rw [List.length_cons]; omega, x, ?_, space⟩
      obtain ⟨j, rfl⟩ : ∃ j, i = j + 1 := ⟨i - 1, by omega⟩
      exact last
    cases skip with
    | succ skip => exact later found
    | zero =>
      simp only [softBreaks] at found
      split at found
      · rename_i length matched
        rcases List.mem_cons.mp found with rfl | member
        · exact ⟨length, rfl, softBreakAt_some matched⟩
        · exact later member
      · exact later found

def HasBreak (head : Text) : Prop := softBreaks 0 0 head ≠ [] ∨ ∃ i, 0 < i ∧ head[i]? = some ' '

theorem cutOf_cases {hardCap : Nat} (positive : 0 < hardCap) {remaining : Text}
    (long : hardCap < remaining.length) :
    ∃ cut : Nat, cutOf hardCap remaining = cut ∧ 0 < cut ∧ cut ≤ hardCap ∧
      (HasBreak (remaining.take hardCap) ∧ (∃ c, remaining[cut - 1]? = some c ∧ isSpace c = true) ∨
        ¬ HasBreak (remaining.take hardCap) ∧ cut = hardCap) := by
  have size : (remaining.take hardCap).length = hardCap := by
    rw [List.length_take]
    omega
  have inHead : ∀ {i : Nat} {c : Char}, (remaining.take hardCap)[i]? = some c →
      remaining[i]? = some c := by
    intro i c found
    rw [List.getElem?_take] at found
    split at found
    · exact found
    · cases found
  simp only [cutOf, sliceTo_natCast]
  split
  · rename_i cut last
    obtain ⟨i, rfl, two, within, c, atIndex, space⟩ := mem_softBreaks (List.mem_of_getLast? last)
    have broken : softBreaks 0 0 (remaining.take hardCap) ≠ [] :=
      List.ne_nil_of_mem (List.mem_of_getLast? last)
    rw [Nat.zero_add]
    exact ⟨i, rfl, by omega, by omega, .inl ⟨.inl broken, c, inHead atIndex, space⟩⟩
  · rename_i none
    have breaks := List.getLast?_eq_none_iff.mp none
    rcases rfind_cases ' ' (remaining.take hardCap) with ⟨absent, nowhere⟩ | ⟨i, found, atIndex, last⟩
    · rw [absent, if_neg (by decide)]
      refine ⟨hardCap, rfl, positive, le_refl _, .inr ⟨?_, rfl⟩⟩
      rintro (broken | ⟨i, -, space⟩)
      · exact broken breaks
      · exact nowhere (List.mem_of_getElem? space)
    · rw [found]
      have inside : i < (remaining.take hardCap).length := (List.getElem?_eq_some_iff.mp atIndex).1
      by_cases later : 0 < i
      · rw [if_pos (by omega)]
        refine ⟨i + 1, rfl, by omega, by omega, .inl ⟨.inr ⟨i, later, atIndex⟩, ' ', ?_, isSpace_space⟩⟩
        exact inHead atIndex
      · rw [if_neg (by omega)]
        refine ⟨hardCap, rfl, positive, le_refl _, .inr ⟨?_, rfl⟩⟩
        rintro (broken | ⟨j, beyond, space⟩)
        · exact broken breaks
        · have dropped : (remaining.take hardCap).drop (i + 1) = (remaining.take hardCap).drop 1 := by
            rw [show i = 0 by omega]
          rw [dropped] at last
          obtain ⟨k, rfl⟩ : ∃ k, j = 1 + k := ⟨j - 1, by omega⟩
          rw [← List.getElem?_drop] at space
          exact last (List.mem_of_getElem? space)

theorem flatMap_nonSpace_filter (pieces : List Text) :
    (pieces.filter (· ≠ [])).flatMap nonSpace = pieces.flatMap nonSpace := by
  induction pieces with
  | nil => rfl
  | cons p pieces ih =>
    by_cases empty : p = []
    · simpa [empty] using ih
    · simpa [empty] using ih

theorem nonSpace_pieceOf_restOf (hardCap : Int) (remaining : Text) :
    nonSpace (pieceOf hardCap remaining) ++ nonSpace (restOf hardCap remaining) =
      nonSpace remaining := by
  rw [pieceOf, restOf, nonSpace_strip, nonSpace_lstrip]
  exact nonSpace_slices remaining (cutOf hardCap remaining)

section

variable {hardCap : Nat} (positive : 0 < hardCap)

include positive

theorem length_pieceOf_le {remaining : Text} (long : hardCap < remaining.length) :
    (pieceOf hardCap remaining).length ≤ hardCap := by
  obtain ⟨cut, atCut, -, within, -⟩ := cutOf_cases positive long
  rw [pieceOf, atCut, sliceTo_natCast]
  have kept := length_strip_le (remaining.take cut)
  rw [List.length_take] at kept
  omega

theorem length_restOf_lt {remaining : Text} (long : hardCap < remaining.length) :
    (restOf hardCap remaining).length < remaining.length := by
  obtain ⟨cut, atCut, some_cut, within, -⟩ := cutOf_cases positive long
  rw [restOf, atCut, sliceFrom_natCast]
  have kept := length_lstrip_le (remaining.drop cut)
  rw [List.length_drop] at kept
  omega

theorem splitLoop_ends (remaining : Text) :
    ∃ more, (∀ fuel pieces, remaining.length < fuel →
        splitLoop hardCap fuel remaining pieces = some (pieces ++ more)) ∧
      more.flatMap nonSpace = nonSpace remaining ∧ ∀ p ∈ more, p.length ≤ hardCap := by
  generalize size : remaining.length = n
  induction n using Nat.strong_induction_on generalizing remaining with
  | _ n ih =>
    subst size
    by_cases long : hardCap < remaining.length
    · obtain ⟨more, ends, content, capped⟩ := ih _ (length_restOf_lt positive long) _ rfl
      refine ⟨pieceOf hardCap remaining :: more, ?_, ?_, ?_⟩
      · intro fuel pieces enough
        obtain ⟨fuel, rfl⟩ : ∃ n, fuel = n + 1 := ⟨fuel - 1, by omega⟩
        have shorter := length_restOf_lt positive long
        rw [splitLoop, if_pos (by exact_mod_cast long), ends fuel _ (by omega), List.append_assoc]
        rfl
      · rw [List.flatMap_cons, content, nonSpace_pieceOf_restOf]
      · intro p member
        rcases List.mem_cons.mp member with rfl | member
        · exact length_pieceOf_le positive long
        · exact capped p member
    · by_cases empty : remaining = []
      · subst empty
        refine ⟨[], ?_, rfl, by simp⟩
        intro fuel pieces enough
        obtain ⟨fuel, rfl⟩ : ∃ n, fuel = n + 1 := ⟨fuel - 1, by omega⟩
        rw [splitLoop, if_neg (by exact_mod_cast long), if_pos rfl, List.append_nil]
      · refine ⟨[remaining], ?_, by simp, ?_⟩
        · intro fuel pieces enough
          obtain ⟨fuel, rfl⟩ : ∃ n, fuel = n + 1 := ⟨fuel - 1, by omega⟩
          rw [splitLoop, if_neg (by exact_mod_cast long), if_neg empty]
        · intro p member
          rw [List.mem_singleton.mp member]
          omega

theorem piecesOf_ends {s : Text} (some_text : s ≠ []) :
    ∃ pieces, (∀ fuel, s.length < fuel → piecesOf hardCap fuel s = some pieces) ∧
      pieces.flatMap nonSpace = nonSpace s ∧ ∀ p ∈ pieces, p ≠ [] ∧ p.length ≤ hardCap := by
  by_cases long : hardCap < s.length
  · obtain ⟨pieces, splits, kept, capped⟩ := splitLoop_ends positive s
    refine ⟨pieces.filter (· ≠ []), ?_, ?_, ?_⟩
    · intro fuel enough
      rw [piecesOf, if_pos (by exact_mod_cast long), splitOversized, if_neg (by omega),
        splits fuel [] enough]
      rfl
    · rw [← kept]
      exact flatMap_nonSpace_filter pieces
    · intro p member
      obtain ⟨member, filled⟩ := List.mem_filter.mp member
      exact ⟨by simpa using filled, capped p member⟩
  · refine ⟨[s], ?_, by simp, ?_⟩
    · intro fuel _
      rw [piecesOf, if_neg (by exact_mod_cast long)]
    · intro p member
      rw [List.mem_singleton.mp member]
      exact ⟨some_text, by omega⟩

theorem expand_ends (sentences : List Text) (nonempty : ∀ s ∈ sentences, s ≠ []) :
    ∃ pieces, (∀ fuel, sentences.flatten.length < fuel →
        expand hardCap fuel sentences = some pieces) ∧
      pieces.flatMap nonSpace = sentences.flatMap nonSpace ∧
      ∀ p ∈ pieces, p ≠ [] ∧ p.length ≤ hardCap := by
  induction sentences with
  | nil => exact ⟨[], fun _ _ => rfl, rfl, by simp⟩
  | cons s rest ih =>
    obtain ⟨more, ends, content, fine⟩ :=
      ih fun s member => nonempty s (List.mem_cons_of_mem _ member)
    obtain ⟨pieces, splits, kept, capped⟩ := piecesOf_ends positive (nonempty s (by simp))
    refine ⟨pieces ++ more, ?_, ?_, ?_⟩
    · intro fuel enough
      rw [List.flatten_cons, List.length_append] at enough
      rw [expand, splits fuel (by omega), ends fuel (by omega)]
      rfl
    · rw [List.flatMap_append, kept, content, List.flatMap_cons]
    · intro p member
      rcases List.mem_append.mp member with member | member
      · exact capped p member
      · exact fine p member

end

/-- What the packing loop holds: its length is that of the joined text, and more than one piece only
within the target. -/
structure Packing (target : Int) (buf : List Text) (bufLen : Nat) : Prop where
  size : bufLen = (join buf).length
  fits : 1 < buf.length → ((join buf).length : Int) ≤ target

def GroupFits (target : Int) (g : List Text) : Prop :=
  g ≠ [] ∧ (1 < g.length → ((join g).length : Int) ≤ target)

def NoRoom (target : Int) (g next : List Text) : Prop :=
  ∀ first ∈ next.head?, target < (join g).length + 1 + first.length

theorem pack_groups (target : Int) (pieces : List Text) (buf : List Text) (bufLen : Nat)
    (packing : Packing target buf bufLen) :
    (pack target buf bufLen pieces).flatten = buf ++ pieces ∧
      (∀ g ∈ pack target buf bufLen pieces, GroupFits target g) ∧
      (pack target buf bufLen pieces).IsChain (NoRoom target) ∧
      (buf ≠ [] → ∃ g ∈ (pack target buf bufLen pieces).head?, g.head? = buf.head?) := by
  induction pieces generalizing buf bufLen with
  | nil =>
    by_cases empty : buf = []
    · subst empty
      simp [pack]
    · simpa [pack, empty, GroupFits] using packing.fits
  | cons s rest ih =>
    by_cases full : buf ≠ [] ∧ target < (bufLen + (s.length + if buf = [] then 0 else 1) : Nat)
    · obtain ⟨flat, fits, chain, first⟩ := ih [s] s.length ⟨rfl, by simp⟩
      rw [pack, if_pos full]
      refine ⟨by simp [flat], ?_, ?_, ?_⟩
      · intro g member
        rcases List.mem_cons.mp member with rfl | member
        · exact ⟨full.1, packing.fits⟩
        · exact fits g member
      · refine chain.cons ?_
        intro next isNext piece isFirst
        obtain ⟨g, isHead, same⟩ := first (by simp)
        obtain rfl : g = next := Option.some.inj (isHead.symm.trans isNext)
        obtain rfl : s = piece := by simpa [same] using isFirst
        have beyond := full.2
        rw [if_neg full.1, packing.size] at beyond
        push_cast at beyond
        omega
      · intro _
        exact ⟨buf, rfl, rfl⟩
    · rw [pack, if_neg full]
      have next : Packing target (buf ++ [s]) (bufLen + (s.length + if buf = [] then 0 else 1)) := by
        by_cases empty : buf = []
        · subst empty
          exact ⟨by simp [packing.size, join], by simp⟩
        · have joined := congrArg List.length (join_append buf s empty)
          rw [List.length_append, List.length_cons] at joined
          refine ⟨?_, ?_⟩
          · rw [if_neg empty, packing.size]
            omega
          · intro _
            rw [if_neg empty, packing.size] at full
            simp only [ne_eq, empty, not_false_eq_true, true_and] at full
            push_cast at full
            rw [joined]
            push_cast
            omega
      obtain ⟨flat, fits, chain, first⟩ := ih (buf ++ [s]) _ next
      refine ⟨by simp [flat], fits, chain, ?_⟩
      intro some_buf
      obtain ⟨g, isHead, same⟩ := first (by simp)
      refine ⟨g, isHead, ?_⟩
      rw [same, List.head?_append_of_ne_nil _ some_buf]

theorem pack_packed {target : Int} {hardCap : Nat} (limits : target ≤ hardCap) {pieces : List Text}
    {text : Text} (content : pieces.flatMap nonSpace = nonSpace text)
    (fine : ∀ p ∈ pieces, p ≠ [] ∧ p.length ≤ hardCap) :
    Packed target hardCap pieces text ((pack target [] 0 pieces).map join) := by
  obtain ⟨flat, fits, chain, -⟩ := pack_groups target pieces [] 0 ⟨rfl, by simp⟩
  rw [List.nil_append] at flat
  have inGroup : ∀ g ∈ pack target [] 0 pieces, ∀ p ∈ g, p ≠ [] ∧ p.length ≤ hardCap := by
    intro g isGroup p member
    exact fine p (flat ▸ List.mem_flatten_of_mem isGroup member)
  refine ⟨?_, ?_, ?_, pack target [] 0 pieces, flat, rfl, fits, chain⟩
  · intro c member
    obtain ⟨g, isGroup, rfl⟩ := List.mem_map.mp member
    exact join_ne_nil (fits g isGroup).1 fun p member => (inGroup g isGroup p member).1
  · have joined : (pack target [] 0 pieces).flatten.flatMap nonSpace = nonSpace text := by
      rw [flat, content]
    rw [List.flatten_eq_flatMap, List.flatMap_assoc] at joined
    rw [← joined, List.flatMap_map]
    simp only [nonSpace_join]
    rfl
  · intro c member
    obtain ⟨g, isGroup, rfl⟩ := List.mem_map.mp member
    by_cases several : 1 < g.length
    · have short := (fits g isGroup).2 several
      omega
    · obtain ⟨p, rfl⟩ : ∃ p, g = [p] := by
        have filled := List.length_pos_iff.mpr (fits g isGroup).1
        exact List.length_eq_one_iff.mp (by omega)
      have short := (inGroup [p] isGroup p (by simp)).2
      exact_mod_cast short

theorem Segments.eq_nil {sentences : List Text} (segments : Segments [] sentences) :
    sentences = [] := by
  rw [List.eq_nil_iff_forall_not_mem]
  intro s member
  have blank : nonSpace s = [] := by
    have none := segments.content
    rw [nonSpace_nil, List.flatMap_eq_nil_iff] at none
    exact none s member
  have empty := strip_eq_nil blank
  rw [segments.stripped s member] at empty
  exact segments.nonempty s member empty

theorem chunk_ends {hardCap : Nat} (positive : 0 < hardCap) (target : Int)
    (segment : Text → List Text) (text : Text) (nonempty : ∀ s ∈ segment (strip text), s ≠ []) :
    ∃ pieces, pieces.flatMap nonSpace = (segment (strip text)).flatMap nonSpace ∧
      (∀ p ∈ pieces, p ≠ [] ∧ p.length ≤ hardCap) ∧
      ∀ fuel, (segment (strip text)).flatten.length < fuel →
        expand hardCap fuel (segment (strip text)) = some pieces ∧
        chunk target hardCap fuel segment text =
          some (if strip text = [] then [] else (pack target [] 0 pieces).map join) := by
  obtain ⟨pieces, ends, content, fine⟩ := expand_ends positive _ nonempty
  refine ⟨pieces, content, fine, ?_⟩
  intro fuel enough
  refine ⟨ends fuel enough, ?_⟩
  unfold chunk
  by_cases empty : strip text = []
  · rw [if_pos empty, if_pos empty]
  · rw [if_neg empty, if_neg empty, ends fuel enough]
    rfl

/-- Whatever segments a text, the chunker ends, and its chunks have the text, keep to the limits and
are packed as full as they can be. -/
theorem chunk_packs_text (segment : Text → List Text) (text : Text)
    (segments : Segments (strip text) (segment (strip text))) :
    ∃ pieces chunks, Packed targetChars hardCapChars pieces text chunks ∧
      ∀ fuel, (segment (strip text)).flatten.length < fuel →
        expand hardCapChars fuel (segment (strip text)) = some pieces ∧
        chunk targetChars hardCapChars fuel segment text = some chunks := by
  have positive : 0 < 400 := by decide
  obtain ⟨pieces, content, fine, ends⟩ :=
    chunk_ends positive targetChars segment text segments.nonempty
  rw [segments.content, nonSpace_strip] at content
  refine ⟨pieces, (pack targetChars [] 0 pieces).map join,
    pack_packed (by decide) content fine, ?_⟩
  intro fuel enough
  refine ⟨(ends fuel enough).1, (ends fuel enough).2.trans ?_⟩
  by_cases empty : strip text = []
  · have none : (segment (strip text)) = [] := by
      rw [empty] at segments ⊢
      exact segments.eq_nil
    have expanded := (ends fuel enough).1
    rw [none] at expanded
    obtain rfl : [] = pieces := Option.some.inj expanded
    rw [if_pos empty]
    rfl
  · rw [if_neg empty]

theorem flatMap_regexSplit (skipping : Bool) (part s : Text) :
    (regexSplit skipping part s).flatMap nonSpace = nonSpace part ++ nonSpace s := by
  induction s generalizing skipping part with
  | nil => simp [regexSplit]
  | cons c rest ih =>
    rw [regexSplit, nonSpace_cons]
    split
    · rename_i skipped
      rw [ih, if_pos skipped.1]
    · split
      · rename_i ended
        rw [List.flatMap_cons, ih, if_pos ended.1]
        rfl
      · rw [ih, nonSpace_append, nonSpace_cons]
        split <;> simp

theorem regexSegment_segments (text : Text) : Segments text (regexSegment text) where
  content := by
    rw [regexSegment, flatMap_nonSpace_filter, List.flatMap_map]
    simp only [nonSpace_strip]
    rw [flatMap_regexSplit, nonSpace_nil, List.nil_append, nonSpace_strip]
  nonempty := by
    intro s member
    simpa using (List.mem_filter.mp member).2
  stripped := by
    intro s member
    obtain ⟨part, -, rfl⟩ := List.mem_map.mp (List.mem_filter.mp member).1
    exact strip_strip part

example : regexSegment "One. Two!  Three\n".toList = ["One.".toList, "Two!".toList, "Three".toList] := by
  decide

theorem two_sentences_packed :
    ∃ pieces chunks, Packed targetChars hardCapChars pieces "One. Two!  Three\n".toList chunks ∧
      ∀ fuel, (regexSegment (strip "One. Two!  Three\n".toList)).flatten.length < fuel →
        expand hardCapChars fuel (regexSegment (strip "One. Two!  Three\n".toList)) = some pieces ∧
        chunk targetChars hardCapChars fuel regexSegment "One. Two!  Three\n".toList = some chunks :=
  chunk_packs_text regexSegment "One. Two!  Three\n".toList (regexSegment_segments _)

end Provider

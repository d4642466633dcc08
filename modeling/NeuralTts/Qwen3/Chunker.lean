import NeuralTts.Provider.ChunkCuts

/-! `chunker.py` of the qwen3-tts provider: the code of the other chunkers, with limits that come
from the environment. -/

namespace Qwen3

open Library PyText Provider

/-- `_env_int`; `parse` is Python's `int`, which raises a `ValueError` where it is `none`. -/
def envInt (parse : Text → Option Int) (raw : Option Text) (default : Int) : Int :=
  match raw with
  | none => default
  | some raw => if raw = [] then default else (parse raw).getD default

structure ChunkLimits where
  targetChars : Int
  hardCapChars : Int

def ChunkLimits.ofEnviron (parse : Text → Option Int) (environ : Text → Option Text) : ChunkLimits where
  targetChars := envInt parse (environ "TTS_QWEN3_CHUNK_TARGET_CHARS".toList) 120
  hardCapChars := envInt parse (environ "TTS_QWEN3_CHUNK_HARD_CAP_CHARS".toList) 240

/-- `_pysbd_segment`; `pysbd` is `none` where the package is missing or raises. -/
def pysbdSegment (pysbd : Text → Option (List Text)) (text : Text) : List Text :=
  match pysbd text with
  | none => regexSegment text
  | some segments =>
    let sents := (segments.map strip).filter (· ≠ [])
    if sents = [] then [strip text] else sents

def chunk (limits : ChunkLimits) (fuel : Nat) (segment : Text → List Text) (text : Text) :
    Option (List Text) :=
  Provider.chunk limits.targetChars limits.hardCapChars fuel segment text

def KeepsCap (limits : ChunkLimits) (segment : Text → List Text) (text : Text) : Prop :=
  ∃ chunks, (∃ n, ∀ fuel, n < fuel → chunk limits fuel segment text = some chunks) ∧
    ∀ c ∈ chunks, (c.length : Int) ≤ limits.hardCapChars

/-- The chunker ends, and each turn of the loop that splits a sentence shortens what remains. -/
structure Terminates (limits : ChunkLimits) (segment : Text → List Text) (text : Text) : Prop where
  ends : ∃ chunks n, ∀ fuel, n < fuel → chunk limits fuel segment text = some chunks
  shortens : strip text ≠ [] → ∀ s ∈ segment (strip text), ∀ remaining,
    Reached limits.hardCapChars s remaining → limits.hardCapChars < remaining.length →
    (restOf limits.hardCapChars remaining).length < remaining.length

theorem three_le_length_join {g : List Text} (several : 1 < g.length) (nonempty : ∀ p ∈ g, p ≠ []) :
    3 ≤ (join g).length := by
  match g with
  | p :: q :: rest =>
    have first := List.length_pos_iff.mpr (nonempty p (by simp))
    have others : join (q :: rest) ≠ [] :=
      join_ne_nil (by simp) fun p member => nonempty p (List.mem_cons_of_mem _ member)
    have second := List.length_pos_iff.mpr others
    rw [join_cons_cons, List.length_append, List.length_cons]
    omega

theorem length_le_of_groupFits {target hardCap : Int} {g : List Text}
    (limits : target ≤ hardCap ∨ hardCap = 1 ∧ target = 2) (fits : GroupFits target g)
    (fine : ∀ p ∈ g, p ≠ [] ∧ (p.length : Int) ≤ hardCap) : ((join g).length : Int) ≤ hardCap := by
  by_cases several : 1 < g.length
  · have short := fits.2 several
    have long := three_le_length_join several fun p member => (fine p member).1
    omega
  · obtain ⟨p, rfl⟩ : ∃ p, g = [p] := by
      have filled := List.length_pos_iff.mpr fits.1
      exact List.length_eq_one_iff.mp (by omega)
    exact (fine p (by simp)).2

theorem keepsCap_of_limits {limits : ChunkLimits} (cap : 0 < limits.hardCapChars)
    (ordered : limits.targetChars ≤ limits.hardCapChars ∨
      limits.hardCapChars = 1 ∧ limits.targetChars = 2)
    {segment : Text → List Text} {text : Text} (nonempty : ∀ s ∈ segment (strip text), s ≠ []) :
    KeepsCap limits segment text := by
  obtain ⟨hardCap, atCap⟩ := Int.eq_ofNat_of_zero_le (Int.le_of_lt cap)
  have positive : 0 < hardCap := by omega
  obtain ⟨pieces, -, fine, ends⟩ := chunk_ends positive limits.targetChars segment text nonempty
  rw [← atCap] at ends
  refine ⟨_, ⟨_, fun fuel enough => (ends fuel enough).2⟩, ?_⟩
  intro c member
  split at member
  · cases member
  · obtain ⟨g, isGroup, rfl⟩ := List.mem_map.mp member
    obtain ⟨flat, fits, -⟩ := pack_groups limits.targetChars pieces [] 0 ⟨rfl, by simp⟩
    refine length_le_of_groupFits ordered (fits g isGroup) ?_
    intro p inside
    have piece : p ∈ pieces := by
      rw [List.nil_append] at flat
      exact flat ▸ List.mem_flatten_of_mem isGroup inside
    have short := (fine p piece).2
    exact ⟨(fine p piece).1, by omega⟩

def overfull (hardCap : Nat) : List Text := [List.replicate (max (hardCap - 1) 1) 'a', ['a']]

theorem visible_of_mem_overfull {hardCap : Nat} {p : Text} (member : p ∈ overfull hardCap) :
    p ≠ [] ∧ p.length ≤ max hardCap 1 ∧ ∀ c ∈ p, isSpace c = false := by
  have letter : isSpace 'a' = false := rfl
  simp only [overfull, List.mem_cons, List.not_mem_nil, or_false] at member
  rcases member with rfl | rfl
  · refine ⟨by simp, by rw [List.length_replicate]; omega, ?_⟩
    intro c inside
    rw [(List.mem_replicate.mp inside).2]
    exact letter
  · refine ⟨by simp, by rw [List.length_singleton]; omega, ?_⟩
    intro c inside
    rw [List.mem_singleton.mp inside]
    exact letter

theorem overfull_segments (hardCap : Nat) :
    Segments (strip (join (overfull hardCap))) (overfull hardCap) where
  content := by rw [nonSpace_strip, nonSpace_join]
  nonempty := fun _ member => (visible_of_mem_overfull member).1
  stripped := fun _ member => strip_of_visible (visible_of_mem_overfull member).2.2

theorem chunk_overfull {limits : ChunkLimits} {hardCap : Nat} (atCap : limits.hardCapChars = hardCap)
    (positive : 0 < hardCap) (room : max (hardCap + 1 : Int) 3 ≤ limits.targetChars) (fuel : Nat) :
    chunk limits fuel (fun _ => overfull hardCap) (join (overfull hardCap)) =
      some [join (overfull hardCap)] := by
  have filled : strip (join (overfull hardCap)) ≠ [] := by
    intro blank
    have content := (overfull_segments hardCap).content
    rw [blank] at content
    have first := List.flatMap_eq_nil_iff.mp content ['a'] (by simp [overfull])
    cases first
  have short : ∀ p ∈ overfull hardCap, piecesOf hardCap fuel p = some [p] := by
    intro p member
    have small := (visible_of_mem_overfull member).2.1
    rw [piecesOf, if_neg (by omega)]
  have expanded : expand hardCap fuel (overfull hardCap) = some (overfull hardCap) := by
    have first := short _ (List.mem_cons_self ..)
    have second := short ['a'] (by simp [overfull])
    simp only [overfull, expand, first, second, Option.bind_eq_bind, Option.bind_some]
    rfl
  rw [chunk, Provider.chunk, if_neg filled, atCap, expanded, overfull]
  simp only [Option.map_some, pack, ne_eq, not_true_eq_false, false_and, if_false, List.nil_append]
  rw [if_neg]
  · rfl
  · simp only [List.length_replicate, List.length_singleton, reduceCtorEq, if_true, if_false]
    omega

/-- Of two positive limits: no text gets a chunk that is longer than the cap exactly when the target
is within the cap, or too small for two letters and the space between them. -/
theorem keepsCap_iff (limits : ChunkLimits) (target : 0 < limits.targetChars)
    (cap : 0 < limits.hardCapChars) :
    (∀ (segment : Text → List Text) (text : Text),
        Segments (strip text) (segment (strip text)) → KeepsCap limits segment text) ↔
      limits.targetChars ≤ limits.hardCapChars ∨
        limits.hardCapChars = 1 ∧ limits.targetChars = 2 := by
  constructor
  · intro keeps
    by_contra beyond
    obtain ⟨hardCap, atCap⟩ := Int.eq_ofNat_of_zero_le (Int.le_of_lt cap)
    have positive : 0 < hardCap := by omega
    obtain ⟨chunks, ⟨n, ends⟩, capped⟩ :=
      keeps (fun _ => overfull hardCap) (join (overfull hardCap)) (overfull_segments hardCap)
    have whole := ends (n + 1) (by omega)
    rw [chunk_overfull atCap positive (by omega)] at whole
    obtain rfl := Option.some.inj whole
    have short := capped _ (List.mem_singleton_self _)
    simp only [overfull, join, List.length_append, List.length_replicate, List.length_cons,
      List.length_nil] at short
    omega
  · intro ordered segment text segments
    exact keepsCap_of_limits cap ordered segments.nonempty

theorem defaults_keep_cap :
    ChunkLimits.ofEnviron (fun _ => none) (fun _ => none) = ⟨120, 240⟩ ∧
      ∀ (segment : Text → List Text) (text : Text),
        Segments (strip text) (segment (strip text)) → KeepsCap ⟨120, 240⟩ segment text :=
  ⟨rfl, (keepsCap_iff ⟨120, 240⟩ (by decide) (by decide)).mpr (.inl (by decide))⟩

theorem wide_target_exceeds_cap :
    Segments (strip "Hi. You.".toList) (regexSegment (strip "Hi. You.".toList)) ∧
      ¬ KeepsCap ⟨10, 5⟩ regexSegment "Hi. You.".toList := by
  refine ⟨regexSegment_segments _, ?_⟩
  rintro ⟨chunks, ⟨n, ends⟩, capped⟩
  obtain ⟨pieces, -, -, sure⟩ := chunk_ends (by decide : 0 < 5) 10 regexSegment "Hi. You.".toList
    (regexSegment_segments _).nonempty
  have one : Provider.chunk 10 (5 : Nat) 8 regexSegment "Hi. You.".toList = some ["Hi. You.".toList] := by
    decide
  have small : (regexSegment (strip "Hi. You.".toList)).flatten.length < 8 := by decide
  have value := (sure 8 small).2.symm.trans one
  have late := (sure (max n 8 + 1) (by omega)).2
  have same := (ends (max n 8 + 1) (by omega)).symm.trans (late.trans value)
  obtain rfl := Option.some.inj same
  exact absurd (capped _ (List.mem_singleton_self _)) (by decide)

theorem nonSpace_restOf_zero (remaining : Text) :
    nonSpace (restOf 0 remaining) = nonSpace remaining := by
  have cut : cutOf 0 remaining = 0 := by
    simp only [cutOf, sliceTo_zero]
    rfl
  have piece : pieceOf 0 remaining = [] := by
    rw [pieceOf, cut, sliceTo_zero]
    rfl
  have whole := nonSpace_pieceOf_restOf 0 remaining
  rwa [piece, nonSpace_nil, List.nil_append] at whole

theorem splitLoop_none {hardCap : Int} (low : hardCap ≤ 0) (fuel : Nat) {remaining : Text}
    (stays : hardCap < 0 ∨ nonSpace remaining ≠ []) (pieces : List Text) :
    splitLoop hardCap fuel remaining pieces = none := by
  induction fuel generalizing remaining pieces with
  | zero => rfl
  | succ fuel ih =>
    have long : hardCap < remaining.length := by
      rcases stays with negative | visible
      · omega
      · have filled : remaining ≠ [] := by
          rintro rfl
          exact visible rfl
        have size := List.length_pos_iff.mpr filled
        omega
    rw [splitLoop, if_pos long]
    apply ih
    rcases stays with negative | visible
    · exact .inl negative
    · rcases Int.lt_or_eq_of_le low with negative | rfl
      · exact .inl negative
      · exact .inr (by rwa [nonSpace_restOf_zero])

theorem nonSpace_ne_nil {s : Text} (filled : s ≠ []) (stripped : strip s = s) : nonSpace s ≠ [] := by
  intro blank
  exact filled (stripped.symm.trans (strip_eq_nil blank))

theorem expand_none {hardCap : Int} (low : hardCap ≤ 0) (fuel : Nat) {sentences : List Text}
    (some_sentence : sentences ≠ []) (fine : ∀ s ∈ sentences, s ≠ [] ∧ strip s = s) :
    expand hardCap fuel sentences = none := by
  cases sentences with
  | nil => exact absurd rfl some_sentence
  | cons s rest =>
    obtain ⟨filled, stripped⟩ := fine s (by simp)
    have size := List.length_pos_iff.mpr filled
    have loops := splitLoop_none low fuel (.inr (nonSpace_ne_nil filled stripped)) []
    rw [expand, piecesOf, if_pos (by omega), splitOversized, if_neg (by omega), loops]
    rfl

theorem pysbdSegment_fine (pysbd : Text → Option (List Text)) {text : Text} (filled : strip text ≠ []) :
    pysbdSegment pysbd text ≠ [] ∧ ∀ s ∈ pysbdSegment pysbd text, s ≠ [] ∧ strip s = s := by
  unfold pysbdSegment
  split
  · have segments := regexSegment_segments text
    refine ⟨?_, fun s member => ⟨segments.nonempty s member, segments.stripped s member⟩⟩
    intro none
    have content := segments.content
    rw [none] at content
    exact filled (strip_eq_nil content.symm)
  · rename_i segments
    simp only
    split
    · refine ⟨by simp, ?_⟩
      intro s member
      rw [List.mem_singleton.mp member]
      exact ⟨filled, strip_strip text⟩
    · rename_i some_sentence
      refine ⟨some_sentence, ?_⟩
      intro s member
      obtain ⟨inside, kept⟩ := List.mem_filter.mp member
      obtain ⟨part, -, rfl⟩ := List.mem_map.mp inside
      exact ⟨by simpa using kept, strip_strip part⟩

/-- Whatever `pysbd` makes of the text: the chunker terminates exactly when its cap is positive or
the text is blank. -/
theorem chunk_terminates_iff (limits : ChunkLimits) (pysbd : Text → Option (List Text)) (text : Text) :
    Terminates limits (pysbdSegment pysbd) text ↔ 0 < limits.hardCapChars ∨ strip text = [] := by
  by_cases blank : strip text = []
  · refine ⟨fun _ => .inr blank, fun _ => ⟨⟨[], 0, ?_⟩, fun filled => absurd blank filled⟩⟩
    intro fuel _
    rw [chunk, Provider.chunk, if_pos blank]
  · have fine := pysbdSegment_fine pysbd (show strip (strip text) ≠ [] by rwa [strip_strip])
    rw [or_iff_left blank]
    constructor
    · intro terminates
      by_contra low
      obtain ⟨chunks, n, ends⟩ := terminates.ends
      have some_chunks := ends (n + 1) (by omega)
      rw [chunk, Provider.chunk, if_neg blank, expand_none (by omega) _ fine.1 fine.2] at some_chunks
      cases some_chunks
    · intro cap
      obtain ⟨hardCap, atCap⟩ := Int.eq_ofNat_of_zero_le (Int.le_of_lt cap)
      have positive : 0 < hardCap := by omega
      obtain ⟨pieces, -, -, ends⟩ := chunk_ends positive limits.targetChars (pysbdSegment pysbd) text
        fun s member => (fine.2 s member).1
      rw [← atCap] at ends
      refine ⟨⟨_, _, fun fuel enough => (ends fuel enough).2⟩, ?_⟩
      intro _ s _ remaining _ long
      rw [atCap] at long ⊢
      exact length_restOf_lt positive (by exact_mod_cast long)

theorem zero_cap_never_ends :
    (∀ fuel, chunk ⟨120, 0⟩ fuel (pysbdSegment fun _ => none) "Hi".toList = none) ∧
      ¬ Terminates ⟨120, 0⟩ (pysbdSegment fun _ => none) "Hi".toList := by
  have never : ∀ fuel, chunk ⟨120, 0⟩ fuel (pysbdSegment fun _ => none) "Hi".toList = none := by
    intro fuel
    have fine := pysbdSegment_fine (fun _ => none) (show strip (strip "Hi".toList) ≠ [] by decide)
    rw [chunk, Provider.chunk, if_neg (by decide), expand_none (Int.le_refl 0) _ fine.1 fine.2]
    rfl
  refine ⟨never, ?_⟩
  intro terminates
  obtain ⟨chunks, n, ends⟩ := terminates.ends
  have some_chunks := ends (n + 1) (Nat.lt_succ_self n)
  rw [never] at some_chunks
  cases some_chunks

end Qwen3

import Mathlib.Tactic.Linarith
import NeuralTts.Library.Collect
import NeuralTts.Qwen3.Bridge
import NeuralTts.Qwen3.Chunker

/-! A request of the buffered path: the settings that it reads, its pieces one after another, and
the rolling stats that they share. -/

namespace Qwen3

open Library Provider

/-- `_env_float`; `parse` is Python's `float`. -/
def envFloat (parse : Text → Option ℚ) (raw : Option Text) (default : ℚ) : ℚ :=
  match raw with
  | none => default
  | some raw => if raw = [] then default else (parse raw).getD default

def bootstrapName : Text := "TTS_QWEN3_CHARS_PER_SEC_BOOTSTRAP".toList

def JitterSettings.ofEnviron (int : Text → Option Int) (float : Text → Option ℚ)
    (environ : Text → Option Text) : JitterSettings ℚ where
  charsPerSecBootstrap := envFloat float (environ bootstrapName) 15
  safetyMs := envInt int (environ "TTS_QWEN3_JITTER_SAFETY_MS".toList) 200
  initialMs := envInt int (environ "TTS_QWEN3_JITTER_INITIAL_MS".toList) 500

/-- The environment sets `TTS_QWEN3_CHARS_PER_SEC_BOOTSTRAP` to something that reads as zero. -/
def BootstrapIsZero (float : Text → Option ℚ) (environ : Text → Option Text) : Prop :=
  ∃ raw, environ bootstrapName = some raw ∧ raw ≠ [] ∧ float raw = some 0

/-- One `(chunk, sr, timing)` of the model. The rate is 0 where `sr` is falsy, the timing missing
where it is no dict. -/
structure Yield where
  chunk : Pcm
  sampleRate : Int
  timing : Option (Timing ℚ)

def noteRate (rate : Int) (y : Yield) : Int :=
  if y.sampleRate ≠ 0 ∧ y.sampleRate ≠ rate then y.sampleRate else rate

def Yield.emitted (y : Yield) : Option (Pcm × Timing ℚ) :=
  if y.chunk = [] then none else some (y.chunk, y.timing.getD ⟨.falsy, .falsy⟩)

/-- One piece of the chunker with what the model yields for it. The thread that runs the model
may be ahead: it is through with `through k` yields when the bridge takes out the item `k`. -/
structure Piece where
  length : Nat
  yields : List Yield
  through : Nat → Nat
  ending : Ending

def Piece.items (rate : Int) (p : Piece) : List (Item ℚ) :=
  (p.yields.filterMap Yield.emitted).mapIdx fun k emitted =>
    ⟨emitted.1, emitted.2, (p.yields.take (p.through k)).foldl noteRate rate⟩

/-- The stats before each item and after the last. -/
def Bridge.visits (target : ℚ) : Bridge ℚ → List (Item ℚ) → List (StreamStats ℚ)
  | b, [] => [b.stats]
  | b, item :: rest =>
    match b.receive target item with
    | .error _ => [b.stats]
    | .ok (next, _) => b.stats :: visits target next rest

/-- The pieces that the request comes to, each as its length and the stats at its start; and all
the stats on the way. -/
structure Trace where
  starts : List (StreamStats ℚ × Nat)
  visited : List (StreamStats ℚ)

/-- The loop over the pieces in `synthesize_stream`, from a rate and the stats so far. -/
def synthesizeStream (j : JitterSettings ℚ) (rate : Int) (stats : StreamStats ℚ) : List Piece → Trace
  | [] => ⟨[], [stats]⟩
  | piece :: rest =>
    match targetSeconds j stats piece.length with
    | .error _ => ⟨[(stats, piece.length)], [stats]⟩
    | .ok target =>
      let start := Bridge.start target stats piece.length
      let visits := stats :: start.visits target (piece.items rate)
      match (start.feed target (piece.items rate)).2, piece.ending with
      | .ok b, .returned =>
        let later := synthesizeStream j (piece.yields.foldl noteRate rate) b.stats rest
        ⟨(stats, piece.length) :: later.starts, visits ++ later.visited⟩
      | _, _ => ⟨[(stats, piece.length)], visits⟩

def TimingValue.Nonneg : TimingValue ℚ → Prop
  | .falsy => True
  | .number ms => 0 ≤ ms
  | .unreadable _ => False

def Timing.Nonneg (timing : Timing ℚ) : Prop := timing.decodeMs.Nonneg ∧ timing.prefillMs.Nonneg

/-- What the model promises of a yield. -/
def Yield.Promised (y : Yield) : Prop := 0 ≤ y.sampleRate ∧ ∀ timing ∈ y.timing, timing.Nonneg

/-- Nothing that the model took time for is without audio. -/
structure StreamStats.Sound (s : StreamStats ℚ) : Prop where
  audio : 0 ≤ s.audioS
  worked : 0 < s.wallS → 0 < s.audioS

/-- Neither the start of a piece nor the stats on the way have a zero that is divided by. -/
structure Trace.Safe (j : JitterSettings ℚ) (t : Trace) : Prop where
  computes : ∀ start ∈ t.starts, Returns (targetSeconds j start.1 start.2)
  worked : ∀ stats ∈ t.visited, 0 < stats.wallS → 0 < stats.audioS

variable {j : JitterSettings ℚ} {rate : Int}

theorem noteRate_pos (positive : 0 < rate) {y : Yield} (promised : y.Promised) :
    0 < noteRate rate y := by
  unfold noteRate
  split
  · rename_i taken
    have nonneg := promised.1
    omega
  · exact positive

theorem foldl_noteRate_pos (positive : 0 < rate) {yields : List Yield}
    (promised : ∀ y ∈ yields, y.Promised) : 0 < yields.foldl noteRate rate := by
  induction yields generalizing rate with
  | nil => exact positive
  | cons y yields ih =>
    apply ih (noteRate_pos positive (promised y (by simp)))
    exact fun later member => promised later (List.mem_cons_of_mem y member)

theorem Yield.emitted_promised {y : Yield} (promised : y.Promised) {pcm : Pcm} {timing : Timing ℚ}
    (out : y.emitted = some (pcm, timing)) : pcm ≠ [] ∧ timing.Nonneg := by
  unfold emitted at out
  split at out
  · cases out
  · rename_i nonempty
    cases out
    refine ⟨nonempty, ?_⟩
    cases given : y.timing with
    | none => exact ⟨trivial, trivial⟩
    | some timing => exact promised.2 timing given

theorem Piece.items_promised (positive : 0 < rate) {p : Piece}
    (promised : ∀ y ∈ p.yields, y.Promised) {item : Item ℚ} (member : item ∈ p.items rate) :
    0 < item.audioS ∧ 0 < item.sampleRate ∧ item.timing.Nonneg := by
  obtain ⟨k, small, rfl⟩ := List.mem_mapIdx.mp member
  have rated : 0 < (p.yields.take (p.through k)).foldl noteRate rate :=
    foldl_noteRate_pos positive fun y taken => promised y (List.mem_of_mem_take taken)
  obtain ⟨y, yielded, out⟩ := List.mem_filterMap.mp (List.getElem_mem small)
  obtain ⟨nonempty, timed⟩ := Yield.emitted_promised (promised y yielded) out
  refine ⟨?_, rated, timed⟩
  have samples : 0 < ((p.yields.filterMap Yield.emitted)[k].1.length : ℚ) := by
    exact_mod_cast List.length_pos_iff.mpr nonempty
  have rational : 0 < (((p.yields.take (p.through k)).foldl noteRate rate : Int) : ℚ) := by
    exact_mod_cast rated
  exact div_pos samples rational

theorem TimingValue.read_nonneg {v : TimingValue ℚ} (nonneg : v.Nonneg) :
    ∃ ms, v.read = .ok ms ∧ 0 ≤ ms := by
  cases v with
  | falsy => exact ⟨0, rfl, le_refl 0⟩
  | number ms => exact ⟨ms, rfl, nonneg⟩
  | unreadable error => exact nonneg.elim

theorem StreamStats.sound_fresh : (StreamStats.fresh : StreamStats ℚ).Sound :=
  ⟨le_refl 0, fun worked => absurd worked (lt_irrefl 0)⟩

theorem StreamStats.Sound.addChars {s : StreamStats ℚ} (sound : s.Sound) (n : Nat) :
    (s.addChars n).Sound := ⟨sound.audio, sound.worked⟩

theorem StreamStats.Sound.update {s : StreamStats ℚ} (sound : s.Sound) {timing : Timing ℚ}
    (nonneg : timing.Nonneg) {chunkAudioS : ℚ} (long : 0 < chunkAudioS) :
    ∃ t, s.updateFromTiming timing chunkAudioS = .ok t ∧ t.Sound := by
  obtain ⟨decode, decoded, -⟩ := TimingValue.read_nonneg nonneg.1
  obtain ⟨prefill, prefilled, -⟩ := TimingValue.read_nonneg nonneg.2
  have more : 0 < s.audioS + chunkAudioS := by linarith [sound.audio]
  refine ⟨{ s with
    audioS := s.audioS + chunkAudioS
    wallS := s.wallS + (decode + prefill) / 1000 }, ?_, le_of_lt more, fun _ => more⟩
  simp only [updateFromTiming, decoded, prefilled]
  rfl

theorem Bridge.receive_sound (target : ℚ) {b : Bridge ℚ} (sound : b.stats.Sound) {item : Item ℚ}
    (long : 0 < item.audioS) (rated : 0 < item.sampleRate) (nonneg : item.timing.Nonneg) :
    ∃ next, b.receive target item = .ok next ∧ next.1.stats.Sound := by
  obtain ⟨stats, updated, sounds⟩ := sound.update nonneg long
  have nonzero : (item.sampleRate : ℚ) ≠ 0 := by exact_mod_cast rated.ne'
  exact ⟨(⟨stats, (b.prebuffer.push target item.pcm item.audioS).1⟩,
    (b.prebuffer.push target item.pcm item.audioS).2),
    bind_eq_ok.mpr ⟨item.audioS, divide_ok nonzero, bind_eq_ok.mpr ⟨stats, updated, rfl⟩⟩, sounds⟩

theorem Bridge.feed_sound (target : ℚ) {b : Bridge ℚ} (sound : b.stats.Sound) {items : List (Item ℚ)}
    (promised : ∀ item ∈ items, 0 < item.audioS ∧ 0 < item.sampleRate ∧ item.timing.Nonneg) :
    (∀ stats ∈ b.visits target items, stats.Sound) ∧
      ∃ last, (b.feed target items).2 = .ok last ∧ last.stats.Sound := by
  induction items generalizing b with
  | nil =>
    refine ⟨fun stats member => ?_, b, rfl, sound⟩
    rw [List.mem_singleton.mp member]
    exact sound
  | cons item rest ih =>
    obtain ⟨long, rated, nonneg⟩ := promised item (by simp)
    obtain ⟨⟨next, yields⟩, received, sounds⟩ := receive_sound target sound long rated nonneg
    obtain ⟨later, last, ended, final⟩ :=
      ih sounds fun later member => promised later (List.mem_cons_of_mem item member)
    simp only [visits, feed, received]
    exact ⟨List.forall_mem_cons.mpr ⟨sound, later⟩, last, ended, final⟩

theorem StreamStats.charsPerSec_ne_zero (s : StreamStats ℚ) {bootstrap : ℚ} (nonzero : bootstrap ≠ 0) :
    s.charsPerSec bootstrap ≠ 0 := by
  unfold charsPerSec
  split
  · exact nonzero
  · rename_i calibrated
    obtain ⟨audio, chars⟩ := not_or.mp calibrated
    have some : (s.chars : ℚ) ≠ 0 := by exact_mod_cast chars
    exact div_ne_zero some (not_le.mp audio).ne'

theorem prebufferTarget_returns (estD initialS safetyS : ℚ) {s : StreamStats ℚ} (sound : s.Sound) :
    Returns (prebufferTarget estD initialS safetyS s.rtf) := by
  unfold StreamStats.rtf
  split
  · exact returns_ok _
  · rename_i worked
    have rtf : s.audioS / s.wallS ≠ 0 :=
      div_ne_zero (sound.worked (not_le.mp worked)).ne' (not_le.mp worked).ne'
    simp only [prebufferTarget]
    split
    · exact returns_ok _
    · exact ⟨_, bind_eq_ok.mpr ⟨_, divide_ok rtf, rfl⟩⟩

theorem targetSeconds_returns (nonzero : j.charsPerSecBootstrap ≠ 0) {s : StreamStats ℚ} (sound : s.Sound)
    (piece : Nat) : Returns (targetSeconds j s piece) := by
  have seconds : Returns (estimatedDuration j s piece) :=
    ⟨_, bind_eq_ok.mpr ⟨_, divide_ok (s.charsPerSec_ne_zero nonzero), rfl⟩⟩
  obtain ⟨estD, estimated⟩ := seconds
  exact returns_bind_iff.mpr ⟨estD, estimated, prebufferTarget_returns _ _ _ sound⟩

/-- The first piece has nothing to go by but the bootstrap. -/
theorem targetSeconds_fresh_error (zero : j.charsPerSecBootstrap = 0) (piece : Nat) :
    targetSeconds j .fresh piece = .error "float division by zero" := by
  have rate : StreamStats.fresh.charsPerSec j.charsPerSecBootstrap = 0 := by
    rw [StreamStats.charsPerSec, if_pos (.inl (le_refl _)), zero]
  rw [targetSeconds, estimatedDuration, rate, divide, if_pos (beq_self_eq_true (0 : ℚ))]
  rfl

theorem synthesizeStream_safe (nonzero : j.charsPerSecBootstrap ≠ 0) {pieces : List Piece}
    (promised : ∀ piece ∈ pieces, ∀ y ∈ piece.yields, y.Promised) (positive : 0 < rate)
    {stats : StreamStats ℚ} (sound : stats.Sound) : (synthesizeStream j rate stats pieces).Safe j := by
  induction pieces generalizing rate stats with
  | nil => exact ⟨by simp [synthesizeStream], by simpa [synthesizeStream] using sound.worked⟩
  | cons piece rest ih =>
    obtain ⟨target, computed⟩ := targetSeconds_returns nonzero sound piece.length
    have first : Returns (targetSeconds j stats piece.length) := ⟨target, computed⟩
    have own := promised piece (by simp)
    obtain ⟨visited, last, fed, sounds⟩ := Bridge.feed_sound target
      (b := Bridge.start target stats piece.length) (sound.addChars piece.length)
      fun item member => Piece.items_promised positive own member
    have here : ∀ s ∈ stats :: (Bridge.start target stats piece.length).visits target (piece.items rate),
        0 < s.wallS → 0 < s.audioS :=
      List.forall_mem_cons.mpr ⟨sound.worked, fun s member => (visited s member).worked⟩
    have later := ih (fun later member => promised later (List.mem_cons_of_mem piece member))
      (foldl_noteRate_pos positive own) sounds
    simp only [synthesizeStream, computed, fed]
    cases piece.ending with
    | returned =>
      refine ⟨List.forall_mem_cons.mpr ⟨first, later.computes⟩, fun s member => ?_⟩
      rcases List.mem_append.mp member with inside | after
      · exact here s inside
      · exact later.worked s after
    | raised error => exact ⟨by simpa using first, here⟩

theorem JitterSettings.ofEnviron_bootstrap (int : Text → Option Int) (float : Text → Option ℚ)
    (environ : Text → Option Text) :
    (ofEnviron int float environ).charsPerSecBootstrap = 0 ↔ BootstrapIsZero float environ := by
  simp only [ofEnviron, envFloat, BootstrapIsZero]
  cases set : environ bootstrapName with
  | none => simp
  | some raw =>
    simp only [Option.some.injEq, exists_eq_left']
    by_cases empty : raw = []
    · simp [empty]
    · cases read : float raw with
      | none => simp [empty]
      | some value => simp [empty]

/-- A request never divides by zero at the start of a piece, whatever the model yields, exactly
when it has no piece or the bootstrap is not zero. -/
theorem synthesizeStream_safe_iff (int : Text → Option Int) (float : Text → Option ℚ)
    (environ : Text → Option Text) {rate : Int} (positive : 0 < rate) {pieces : List Piece}
    (promised : ∀ piece ∈ pieces, ∀ y ∈ piece.yields, y.Promised) :
    (synthesizeStream (.ofEnviron int float environ) rate .fresh pieces).Safe (.ofEnviron int float environ) ↔
      pieces = [] ∨ ¬BootstrapIsZero float environ := by
  rw [← JitterSettings.ofEnviron_bootstrap int float environ]
  constructor
  · intro safe
    cases pieces with
    | nil => exact .inl rfl
    | cons piece rest =>
      refine .inr fun zero => ?_
      have fails := targetSeconds_fresh_error zero piece.length
      have first := safe.computes (.fresh, piece.length) (by simp only [synthesizeStream, fails]; simp)
      obtain ⟨target, computed⟩ := first
      rw [fails] at computed
      cases computed
  · rintro (rfl | nonzero)
    · exact ⟨by simp [synthesizeStream], by simpa [synthesizeStream] using StreamStats.sound_fresh.worked⟩
    · exact synthesizeStream_safe nonzero promised positive StreamStats.sound_fresh

def integers (raw : Text) : Option Int := (String.ofList raw).toInt?

def floats (raw : Text) : Option ℚ := if raw = ['0'] then some 0 else none

def noEnviron : Text → Option Text := fun _ => none

def zeroEnviron (name : Text) : Option Text := if name = bootstrapName then some ['0'] else none

def hello : Piece :=
  ⟨12, [⟨List.replicate 2400 0, 24000, some ⟨.number 80, .falsy⟩⟩], fun _ => 1, .returned⟩

theorem hello_promised : ∀ piece ∈ [hello], ∀ y ∈ piece.yields, y.Promised := by
  intro piece member y yielded
  obtain rfl := List.mem_singleton.mp member
  obtain rfl := List.mem_singleton.mp yielded
  refine ⟨by decide, fun timing given => ?_⟩
  obtain rfl := Option.mem_some_iff.mp given
  exact ⟨by norm_num [TimingValue.Nonneg], trivial⟩

/-- With `TTS_QWEN3_CHARS_PER_SEC_BOOTSTRAP=0` the first piece raises before the model is asked. -/
theorem zeroBootstrap_divides :
    (∀ piece ∈ [hello], ∀ y ∈ piece.yields, y.Promised) ∧ BootstrapIsZero floats zeroEnviron ∧
      targetSeconds (.ofEnviron integers floats zeroEnviron) .fresh hello.length =
        .error "float division by zero" ∧
      ¬(synthesizeStream (.ofEnviron integers floats zeroEnviron) 24000 .fresh [hello]).Safe
        (.ofEnviron integers floats zeroEnviron) := by
  have zero : BootstrapIsZero floats zeroEnviron := ⟨['0'], by simp [zeroEnviron], by decide, by simp [floats]⟩
  have fails : targetSeconds (.ofEnviron integers floats zeroEnviron) .fresh hello.length =
      .error "float division by zero" :=
    targetSeconds_fresh_error ((JitterSettings.ofEnviron_bootstrap _ _ _).mpr zero) _
  refine ⟨hello_promised, zero, fails, fun safe => ?_⟩
  obtain ⟨target, computed⟩ := safe.computes (.fresh, hello.length) (by simp [synthesizeStream, fails])
  rw [fails] at computed
  cases computed

theorem hello_safe :
    (synthesizeStream (.ofEnviron integers floats noEnviron) 24000 .fresh [hello]).Safe
      (.ofEnviron integers floats noEnviron) :=
  (synthesizeStream_safe_iff integers floats noEnviron (by decide) hello_promised).mpr
    (.inr fun ⟨_, unset, _⟩ => by simp [noEnviron] at unset)

end Qwen3

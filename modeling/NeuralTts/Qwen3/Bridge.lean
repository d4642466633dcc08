import Mathlib.Data.Rat.Cast.Order
import Mathlib.Algebra.Order.Ring.Rat
import Mathlib.Tactic.NormNum
import NeuralTts.Library.Prebuffer

/-! The two bridges of the qwen3-tts provider from the thread that synthesizes to the stream of
PCM, `_bridge_stream` and `_bridge_stream_buffered`. The seconds that they add up are of any type
with the operations of Python's floats; no law of arithmetic is used, so that they may round. -/

namespace Qwen3

/-- Float32 samples, by their bits. -/
abbrev Pcm := List (BitVec 32)

/-- Python's floats, as far as the bridges compute with them. -/
class PyFloat (F : Type) extends Zero F, One F, Add F, Sub F, Mul F, Div F, NatCast F, IntCast F, BEq F,
    LE F, LT F where
  [decidableLE : DecidableLE F]
  [decidableLT : DecidableLT F]

attribute [reducible, instance] PyFloat.decidableLE PyFloat.decidableLT

instance : PyFloat ℚ where

/-- What a timing dict holds under a key: nothing or something falsy, something that `float`
reads, or something that it rejects, with the exception. -/
inductive TimingValue (F : Type)
  | falsy
  | number (ms : F)
  | unreadable (error : String)
deriving DecidableEq

structure Timing (F : Type) where
  decodeMs : TimingValue F
  prefillMs : TimingValue F
deriving DecidableEq

structure StreamStats (F : Type) where
  audioS : F
  wallS : F
  chars : Nat
deriving DecidableEq

/-- `TTS_QWEN3_CHARS_PER_SEC_BOOTSTRAP`, `TTS_QWEN3_JITTER_SAFETY_MS` and
`TTS_QWEN3_JITTER_INITIAL_MS`. -/
structure JitterSettings (F : Type) where
  charsPerSecBootstrap : F
  safetyMs : Int
  initialMs : Int

/-- What the producer puts in the queue: a chunk with its timing. With it comes the rate that
`self.sample_rate` has when the chunk is taken out. -/
structure Item (F : Type) where
  pcm : Pcm
  timing : Timing F
  sampleRate : Int

/-- How the producer ends, and how a bridge does. -/
inductive Ending
  | returned
  | raised (error : String)
deriving DecidableEq

structure Outcome where
  yielded : List Pcm
  ending : Ending
deriving DecidableEq

structure Bridge (F : Type) where
  stats : StreamStats F
  prebuffer : Library.Prebuffer Pcm F

section

variable {F : Type} [PyFloat F]

/-- Python's division of floats, which raises for a zero divisor. -/
def divide (a b : F) : Except String F :=
  if b == 0 then .error "float division by zero" else .ok (a / b)

/-- `float(timing.get(key) or 0.0)`. -/
def TimingValue.read : TimingValue F → Except String F
  | .falsy => .ok 0
  | .number ms => .ok ms
  | .unreadable error => .error error

def StreamStats.fresh : StreamStats F := ⟨0, 0, 0⟩

def StreamStats.updateFromTiming (s : StreamStats F) (timing : Timing F) (chunkAudioS : F) :
    Except String (StreamStats F) := do
  let decode ← timing.decodeMs.read
  let prefill ← timing.prefillMs.read
  .ok { s with audioS := s.audioS + chunkAudioS, wallS := s.wallS + (decode + prefill) / (1000 : Nat) }

def StreamStats.addChars (s : StreamStats F) (n : Nat) : StreamStats F := { s with chars := s.chars + n }

def StreamStats.rtf (s : StreamStats F) : Option F :=
  if s.wallS ≤ 0 then none else some (s.audioS / s.wallS)

def StreamStats.charsPerSec (s : StreamStats F) (bootstrap : F) : F :=
  if s.audioS ≤ 0 ∨ s.chars = 0 then bootstrap else s.chars / s.audioS

/-- The estimate of the seconds of audio in a piece of so many characters. -/
def estimatedDuration (j : JitterSettings F) (stats : StreamStats F) (piece : Nat) : Except String F := do
  let seconds ← divide (piece : F) (stats.charsPerSec j.charsPerSecBootstrap)
  .ok (if 1 < seconds then seconds else 1)

/-- The seconds of audio to hold back, from the estimate and the rolling RTF. -/
def prebufferTarget (estD initialS safetyS : F) : Option F → Except String F
  | none => .ok initialS
  | some rtf =>
    if 1 ≤ rtf then .ok 0
    else do
      let deficit ← divide (estD * (1 - rtf)) rtf
      .ok (deficit + safetyS)

def targetSeconds (j : JitterSettings F) (stats : StreamStats F) (piece : Nat) : Except String F := do
  let estD ← estimatedDuration j stats piece
  prebufferTarget estD (j.initialMs / (1000 : Nat)) (j.safetyMs / (1000 : Nat)) stats.rtf

def bridgeStream (items : List (Item F)) (ending : Ending) : Outcome := ⟨items.map Item.pcm, ending⟩

def Bridge.start (target : F) (stats : StreamStats F) (piece : Nat) : Bridge F :=
  ⟨stats.addChars piece, ⟨decide (target ≤ 0), [], 0⟩⟩

/-- One turn of the loop of `_bridge_stream_buffered`: the chunks that it yields. -/
def Bridge.receive (target : F) (b : Bridge F) (item : Item F) : Except String (Bridge F × List Pcm) := do
  let chunkAudioS ← divide (item.pcm.length : F) item.sampleRate
  let stats ← b.stats.updateFromTiming item.timing chunkAudioS
  let pushed := b.prebuffer.push target item.pcm chunkAudioS
  .ok (⟨stats, pushed.1⟩, pushed.2)

/-- What is yielded at each item, up to the first that makes the loop raise. -/
def Bridge.feed (target : F) : Bridge F → List (Item F) → List (List Pcm) × Except String (Bridge F)
  | b, [] => ([], .ok b)
  | b, item :: rest =>
    match b.receive target item with
    | .error e => ([], .error e)
    | .ok (b, yields) => (yields :: (feed target b rest).1, (feed target b rest).2)

/-- The loop from a target on. At the end of the producer what is held is yielded too; an
exception is raised as it is. -/
def bridgeFrom (target : F) (stats : StreamStats F) (piece : Nat) (items : List (Item F))
    (ending : Ending) : Outcome :=
  let fed := (Bridge.start target stats piece).feed target items
  match fed.2, ending with
  | .error e, _ => ⟨fed.1.flatten, .raised e⟩
  | .ok b, .returned => ⟨fed.1.flatten ++ b.prebuffer.buf, .returned⟩
  | .ok _, .raised e => ⟨fed.1.flatten, .raised e⟩

def bridgeStreamBuffered (j : JitterSettings F) (stats : StreamStats F) (piece : Nat)
    (items : List (Item F)) (ending : Ending) : Outcome :=
  match targetSeconds j stats piece with
  | .error e => ⟨[], .raised e⟩
  | .ok target => bridgeFrom target stats piece items ending

def TimingValue.Readable : TimingValue F → Prop
  | .unreadable _ => False
  | _ => True

def Item.Readable (item : Item F) : Prop :=
  ((item.sampleRate : F) == 0) = false ∧ item.timing.decodeMs.Readable ∧ item.timing.prefillMs.Readable

def Item.audioS (item : Item F) : F := item.pcm.length / item.sampleRate

def heldSeconds (items : List (Item F)) : F := (items.map Item.audioS).foldl (· + ·) 0

/-- Some part of the items has as much audio as the target asks. -/
def ReachesTarget (target : F) (items : List (Item F)) : Prop :=
  ∃ k, 0 < k ∧ k ≤ items.length ∧ target ≤ heldSeconds (items.take k)

theorem divide_eq {a b : F} (nonzero : (b == 0) = false) : divide a b = .ok (a / b) := by
  rw [divide, nonzero]
  rfl

theorem TimingValue.read_readable {v : TimingValue F} (readable : v.Readable) :
    ∃ ms, v.read = .ok ms := by
  cases v with
  | falsy => exact ⟨0, rfl⟩
  | number ms => exact ⟨ms, rfl⟩
  | unreadable error => exact readable.elim

theorem TimingValue.read_unreadable {v : TimingValue F} (unreadable : ¬ v.Readable) :
    ∃ e, v.read = .error e := by
  cases v with
  | falsy => exact absurd trivial unreadable
  | number ms => exact absurd trivial unreadable
  | unreadable error => exact ⟨error, rfl⟩

theorem Bridge.receive_readable (target : F) (b : Bridge F) {item : Item F}
    (readable : item.Readable) :
    ∃ stats, b.receive target item =
      .ok (⟨stats, (b.prebuffer.push target item.pcm item.audioS).1⟩,
        (b.prebuffer.push target item.pcm item.audioS).2) := by
  obtain ⟨rate, decodes, prefills⟩ := readable
  obtain ⟨decode, decoded⟩ := TimingValue.read_readable decodes
  obtain ⟨prefill, prefilled⟩ := TimingValue.read_readable prefills
  refine ⟨{ b.stats with
    audioS := b.stats.audioS + item.audioS
    wallS := b.stats.wallS + (decode + prefill) / (1000 : Nat) }, ?_⟩
  simp only [Bridge.receive, divide_eq rate, StreamStats.updateFromTiming, decoded, prefilled]
  rfl

theorem Bridge.receive_unreadable (target : F) (b : Bridge F) {item : Item F}
    (unreadable : ¬ item.Readable) : ∃ e, b.receive target item = .error e := by
  cases rate : (item.sampleRate : F) == 0 with
  | true =>
    refine ⟨"float division by zero", ?_⟩
    simp only [Bridge.receive, divide, rate, if_true]
    rfl
  | false =>
    simp only [Bridge.receive, divide_eq rate, StreamStats.updateFromTiming]
    by_cases decodes : item.timing.decodeMs.Readable
    · obtain ⟨decode, decoded⟩ := TimingValue.read_readable decodes
      have prefills : ¬ item.timing.prefillMs.Readable :=
        fun prefills => unreadable ⟨rate, decodes, prefills⟩
      obtain ⟨e, failed⟩ := TimingValue.read_unreadable prefills
      exact ⟨e, by rw [decoded, failed]; rfl⟩
    · obtain ⟨e, failed⟩ := TimingValue.read_unreadable decodes
      exact ⟨e, by rw [failed]; rfl⟩

theorem Bridge.feed_readable (target : F) (b : Bridge F) {items : List (Item F)}
    (readable : ∀ item ∈ items, item.Readable) :
    (b.feed target items).1 =
        (b.prebuffer.pushAll target (items.map fun item => (item.pcm, item.audioS))).1 ∧
      ∃ stats, (b.feed target items).2 = .ok ⟨stats,
        (b.prebuffer.pushAll target (items.map fun item => (item.pcm, item.audioS))).2⟩ := by
  induction items generalizing b with
  | nil => exact ⟨rfl, b.stats, rfl⟩
  | cons item rest ih =>
    obtain ⟨stats, received⟩ := b.receive_readable target (readable item (by simp))
    obtain ⟨batches, last, ended⟩ := ih
      ⟨stats, (b.prebuffer.push target item.pcm item.audioS).1⟩
      (fun later member => readable later (List.mem_cons_of_mem item member))
    simp only [Bridge.feed, received, List.map_cons, Library.Prebuffer.pushAll]
    exact ⟨by rw [batches], last, ended⟩

theorem Bridge.feed_unreadable (target : F) (b : Bridge F)
    (held : b.prebuffer.passthrough = true → b.prebuffer.buf = []) {items : List (Item F)}
    (unreadable : ¬ ∀ item ∈ items, item.Readable) :
    (b.feed target items).1.flatten.length < b.prebuffer.buf.length + items.length ∧
      ∃ e, (b.feed target items).2 = .error e := by
  induction items generalizing b with
  | nil => simp at unreadable
  | cons item rest ih =>
    by_cases first : item.Readable
    · obtain ⟨stats, received⟩ := b.receive_readable target first
      obtain ⟨kept, still⟩ := Library.Prebuffer.push_conserves target held item.pcm item.audioS
      have later : ¬ ∀ later ∈ rest, later.Readable := by
        intro readable
        exact unreadable (List.forall_mem_cons.mpr ⟨first, readable⟩)
      obtain ⟨fewer, failed⟩ :=
        ih ⟨stats, (b.prebuffer.push target item.pcm item.audioS).1⟩ still later
      simp only [Bridge.feed, received]
      refine ⟨?_, failed⟩
      have lengths := congrArg List.length kept
      simp only [List.length_append, List.length_cons, List.length_nil] at lengths
      simp only [List.flatten_cons, List.length_append, List.length_cons]
      dsimp only at fewer
      omega
    · obtain ⟨e, failed⟩ := b.receive_unreadable target first
      simp only [Bridge.feed, failed]
      exact ⟨by simp, e, rfl⟩

theorem reachesTarget_iff_fills (target : F) (items : List (Item F)) :
    Library.Prebuffer.Fills target (0 : F) (items.map fun item => (item.pcm, item.audioS)) ↔
      ReachesTarget target items := by
  simp only [Library.Prebuffer.Fills, ReachesTarget, heldSeconds, List.length_map, List.map_take,
    List.map_map]
  rfl

theorem bridgeFrom_raised_iff (target : F) (stats : StreamStats F) (piece : Nat) {items : List (Item F)}
    (readable : ∀ item ∈ items, item.Readable) (error : String) :
    bridgeFrom target stats piece items (.raised error) = bridgeStream items (.raised error) ↔
      items = [] ∨ target ≤ 0 ∨ ReachesTarget target items := by
  obtain ⟨batches, last, ended⟩ :=
    (Bridge.start target stats piece).feed_readable target readable
  have held : (Bridge.start target stats piece).prebuffer.passthrough = true →
      (Bridge.start target stats piece).prebuffer.buf = [] := fun _ => rfl
  have conserved := Library.Prebuffer.pushAll_conserves target held
    (items.map fun item => (item.pcm, item.audioS))
  have opened := Library.Prebuffer.pushAll_open_iff target
    (Bridge.start target stats piece).prebuffer (items.map fun item => (item.pcm, item.audioS))
  have starts : (Bridge.start target stats piece).prebuffer.passthrough = true ↔ target ≤ 0 := by
    simp [Bridge.start]
  have chunks : (items.map fun item => (item.pcm, item.audioS)).map Prod.fst =
      items.map Item.pcm := by
    rw [List.map_map]
    rfl
  rw [starts, show (Bridge.start target stats piece).prebuffer.bufS = 0 from rfl,
    reachesTarget_iff_fills] at opened
  rw [chunks, show (Bridge.start target stats piece).prebuffer.buf = [] from rfl,
    List.nil_append] at conserved
  simp only [bridgeFrom, ended, batches, bridgeStream, Outcome.mk.injEq, and_true]
  cases passing : ((Bridge.start target stats piece).prebuffer.pushAll target
      (items.map fun item => (item.pcm, item.audioS))).2.passthrough with
  | true =>
    rw [Library.Prebuffer.pushAll_open target held passing, List.append_nil] at conserved
    exact ⟨fun _ => .inr (opened.mp passing), fun _ => conserved⟩
  | false =>
    have all := Library.Prebuffer.pushAll_closed target held passing
    rw [chunks, show (Bridge.start target stats piece).prebuffer.buf = [] from rfl,
      List.nil_append] at all
    rw [all, List.append_left_eq_self] at conserved
    rw [conserved]
    constructor
    · intro empty
      exact .inl (by simpa using empty.symm)
    · rintro (rfl | open_)
      · rfl
      · rw [opened.mpr open_] at passing
        cases passing

theorem bridgeFrom_returned (target : F) (stats : StreamStats F) (piece : Nat) {items : List (Item F)}
    (readable : ∀ item ∈ items, item.Readable) :
    bridgeFrom target stats piece items .returned = bridgeStream items .returned := by
  obtain ⟨batches, last, ended⟩ :=
    (Bridge.start target stats piece).feed_readable target readable
  have conserved := Library.Prebuffer.pushAll_conserves target
    (p := (Bridge.start target stats piece).prebuffer) (fun _ => rfl)
    (items.map fun item => (item.pcm, item.audioS))
  simp only [bridgeFrom, ended, batches, bridgeStream, Outcome.mk.injEq, and_true]
  rw [conserved, List.map_map]
  rfl

theorem bridgeFrom_unreadable (target : F) (stats : StreamStats F) (piece : Nat)
    {items : List (Item F)} (unreadable : ¬ ∀ item ∈ items, item.Readable) (ending : Ending) :
    bridgeFrom target stats piece items ending ≠ bridgeStream items ending := by
  obtain ⟨fewer, e, failed⟩ :=
    (Bridge.start target stats piece).feed_unreadable target (fun _ => rfl) unreadable
  intro same
  have lengths := congrArg (fun outcome => outcome.yielded.length) same
  simp only [bridgeFrom, failed, bridgeStream, List.length_map] at lengths
  rw [lengths] at fewer
  simp [Bridge.start] at fewer

/-- The buffered bridge does what the fast path does exactly when it can account for every chunk
and, should the producer raise, holds none back then. -/
theorem bridgeStreamBuffered_eq_iff (j : JitterSettings F) (stats : StreamStats F) (piece : Nat)
    (target : F) (computed : targetSeconds j stats piece = .ok target) (items : List (Item F))
    (ending : Ending) :
    bridgeStreamBuffered j stats piece items ending = bridgeStream items ending ↔
      (∀ item ∈ items, item.Readable) ∧
        (ending = .returned ∨ items = [] ∨ target ≤ 0 ∨ ReachesTarget target items) := by
  simp only [bridgeStreamBuffered, computed]
  by_cases readable : ∀ item ∈ items, item.Readable
  · cases ending with
    | returned => simpa [bridgeFrom_returned target stats piece readable] using readable
    | raised error =>
      rw [bridgeFrom_raised_iff target stats piece readable error]
      simp only [reduceCtorEq, false_or]
      exact (and_iff_right readable).symm
  · have differs := bridgeFrom_unreadable target stats piece readable ending
    constructor
    · intro same
      exact absurd same differs
    · rintro ⟨all, -⟩
      exact absurd all readable

end

def JitterSettings.default : JitterSettings ℚ := ⟨15, 200, 500⟩

theorem divide_ok {a b : ℚ} (nonzero : b ≠ 0) : divide a b = .ok (a / b) :=
  divide_eq (beq_eq_false_iff_ne.mpr nonzero)

theorem estimatedDuration_ok {j : JitterSettings ℚ} {stats : StreamStats ℚ}
    (nonzero : stats.charsPerSec j.charsPerSecBootstrap ≠ 0) (piece : Nat) :
    estimatedDuration j stats piece = .ok (max 1 (piece / stats.charsPerSec j.charsPerSecBootstrap)) := by
  rw [estimatedDuration, divide_ok nonzero, max_def_lt]
  rfl

def tenth : Item ℚ := ⟨List.replicate 2400 0, ⟨.number 80, .falsy⟩, 24000⟩

theorem targetSeconds_fresh (piece : Nat) :
    targetSeconds .default .fresh piece = .ok (1 / 2) := by
  have bootstrap : StreamStats.fresh.charsPerSec JitterSettings.default.charsPerSecBootstrap = 15 := rfl
  have seconds : estimatedDuration .default .fresh piece = _ :=
    estimatedDuration_ok (by rw [bootstrap]; norm_num) piece
  have initial : ((JitterSettings.default.initialMs : ℚ) / (1000 : Nat)) = 1 / 2 := by
    norm_num [JitterSettings.default]
  rw [targetSeconds, seconds]
  exact congrArg Except.ok initial

theorem length_tenth : tenth.pcm.length = 2400 := List.length_replicate

theorem tenth_readable : ∀ item ∈ [tenth], item.Readable := by
  intro item member
  obtain rfl := List.mem_singleton.mp member
  exact ⟨by decide, trivial, trivial⟩

/-- The model runs out of memory after the first tenth of a second, which is still held back. -/
theorem buffered_chunk_lost_on_error :
    targetSeconds .default .fresh 40 = .ok (1 / 2) ∧ 0 < tenth.pcm.length ∧
      bridgeStreamBuffered .default .fresh 40 [tenth] (.raised "CUDA out of memory") ≠
        bridgeStream [tenth] (.raised "CUDA out of memory") := by
  refine ⟨targetSeconds_fresh 40, by rw [length_tenth]; decide, ?_⟩
  simp only [bridgeStreamBuffered, targetSeconds_fresh]
  rw [ne_eq, bridgeFrom_raised_iff (1 / 2) .fresh 40 tenth_readable]
  have seconds : tenth.audioS = 1 / 10 := by
    rw [Item.audioS, length_tenth, show tenth.sampleRate = 24000 from rfl]
    norm_num
  rintro (none | low | ⟨k, positive, few, reached⟩)
  · cases none
  · norm_num at low
  · obtain rfl : k = 1 := by simp only [List.length_singleton] at few; omega
    have held : heldSeconds [tenth] = 0 + 1 / 10 := by rw [← seconds]; rfl
    rw [List.take_succ_cons, List.take_zero, held] at reached
    norm_num at reached

theorem buffered_tenth_returns :
    bridgeStreamBuffered .default .fresh 40 [tenth] .returned = bridgeStream [tenth] .returned ↔
      (∀ item ∈ [tenth], item.Readable) ∧ (Ending.returned = .returned ∨ [tenth] = [] ∨
        (1 / 2 : ℚ) ≤ 0 ∨ ReachesTarget (1 / 2) [tenth]) :=
  bridgeStreamBuffered_eq_iff .default .fresh 40 (1 / 2) (targetSeconds_fresh 40) [tenth] .returned

end Qwen3

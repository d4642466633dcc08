import Mathlib.Data.Rat.Floor
import Mathlib.Tactic.FieldSimp
import Mathlib.Tactic.Linarith
import NeuralTts.Qwen3.Bridge

/-! Playing a buffered piece while it is still being synthesized. -/

namespace Qwen3

/-- What the buffered bridge yields, each chunk with the moment when it does: the arrival of the
item that it is yielded at, or `endsAt` for those that the end of the producer lets out. -/
def Bridge.emits (target endsAt : ℚ) : Bridge ℚ → List (ℚ × Item ℚ) → List (ℚ × Pcm)
  | b, [] => b.prebuffer.buf.map fun pcm => (endsAt, pcm)
  | b, (arrival, item) :: rest =>
    match b.receive target item with
    | .error _ => []
    | .ok (b, yields) => (yields.map fun pcm => (arrival, pcm)) ++ emits target endsAt b rest

theorem Bridge.emits_chunks (target endsAt : ℚ) (stats : StreamStats ℚ) (piece : Nat)
    (timed : List (ℚ × Item ℚ)) :
    ((Bridge.start target stats piece).emits target endsAt timed).map Prod.snd =
      (bridgeFrom target stats piece (timed.map Prod.snd) .returned).yielded := by
  have follows : ∀ b : Bridge ℚ, (b.emits target endsAt timed).map Prod.snd =
      match (b.feed target (timed.map Prod.snd)).2 with
      | .error _ => (b.feed target (timed.map Prod.snd)).1.flatten
      | .ok last => (b.feed target (timed.map Prod.snd)).1.flatten ++ last.prebuffer.buf := by
    intro b
    induction timed generalizing b with
    | nil => simp [emits, feed, Function.comp_def]
    | cons first rest ih =>
      obtain ⟨arrival, item⟩ := first
      simp only [emits, List.map_cons, feed]
      cases received : b.receive target item with
      | error e => simp
      | ok next =>
        obtain ⟨next, yields⟩ := next
        simp only [List.map_append, List.map_map, Function.comp_def, List.map_id', ih]
        cases (feed target next (rest.map Prod.snd)).2 <;> simp
  rw [follows]
  simp only [bridgeFrom]
  cases ((Bridge.start target stats piece).feed target (timed.map Prod.snd)).2 <;> rfl

/-- Chunks of `c` seconds each, produced one after another at the real-time factor `r`, after
`k` others. -/
def steady (c r : ℚ) : Nat → List (Item ℚ) → List (ℚ × Item ℚ)
  | _, [] => []
  | k, item :: rest => ((k + 1 : Nat) * c / r, item) :: steady c r (k + 1) rest

def seconds (rate : Int) (pcm : Pcm) : ℚ := pcm.length / rate

/-- Each chunk comes no later than the player is through with those before it. -/
def KeepsUp (rate : Int) : ℚ → List (ℚ × Pcm) → Prop
  | _, [] => True
  | played, (moment, pcm) :: rest => moment ≤ played ∧ KeepsUp rate (played + seconds rate pcm) rest

/-- A player that starts at the first emission is never without audio until the last. -/
def GapFree (rate : Int) : List (ℚ × Pcm) → Prop
  | [] => True
  | (start, pcm) :: rest => KeepsUp rate (start + seconds rate pcm) rest

def Equal (rate : Int) (c : ℚ) (items : List (Item ℚ)) : Prop :=
  ∀ item ∈ items, item.Readable ∧ item.sampleRate = rate ∧ item.audioS = c

variable {rate : Int} {c r target endsAt : ℚ}

theorem keepsUp_batch {batch : List Pcm} (equal : ∀ pcm ∈ batch, seconds rate pcm = c)
    (long : 0 < c) {moment played : ℚ} (began : moment ≤ played) (later : List (ℚ × Pcm)) :
    KeepsUp rate played ((batch.map fun pcm => (moment, pcm)) ++ later) ↔
      KeepsUp rate (played + batch.length * c) later := by
  induction batch generalizing played with
  | nil => simp
  | cons pcm batch ih =>
    have own := equal pcm (by simp)
    have later' : moment ≤ played + c := by linarith
    have next := ih (fun pcm member => equal pcm (List.mem_cons_of_mem _ member)) later'
    simp only [List.map_cons, List.cons_append, KeepsUp, own, next, List.length_cons]
    rw [and_iff_right began, add_assoc]
    push_cast
    rw [show c + batch.length * c = (batch.length + 1) * c by ring]

theorem gapFree_batch (moment : ℚ) {first : Pcm} {batch : List Pcm}
    (equal : ∀ pcm ∈ first :: batch, seconds rate pcm = c) (long : 0 < c)
    (later : List (ℚ × Pcm)) :
    GapFree rate (((first :: batch).map fun pcm => (moment, pcm)) ++ later) ↔
      KeepsUp rate (moment + (batch.length + 1 : Nat) * c) later := by
  have own := equal first (by simp)
  have began : moment ≤ moment + c := by linarith
  have rest := keepsUp_batch (fun pcm member => equal pcm (List.mem_cons_of_mem _ member)) long
    began later
  simp only [List.map_cons, List.cons_append, GapFree, own, rest]
  push_cast
  rw [add_assoc, show c + batch.length * c = (batch.length + 1) * c by ring]

theorem emits_passing {b : Bridge ℚ} (passing : b.prebuffer.passthrough = true)
    (empty : b.prebuffer.buf = []) {items : List (Item ℚ)} (equal : Equal rate c items) (k : Nat) :
    b.emits target endsAt (steady c r k items) =
      (steady c r k items).map fun timed => (timed.1, timed.2.pcm) := by
  induction items generalizing b k with
  | nil => simp [steady, Bridge.emits, empty]
  | cons item rest ih =>
    obtain ⟨stats, received⟩ := b.receive_readable target (equal item (by simp)).1
    rw [Library.Prebuffer.push_passing _ passing] at received
    simp only [steady, Bridge.emits, received, List.map_cons, List.map_nil, List.cons_append,
      List.nil_append]
    rw [ih (b := ⟨stats, b.prebuffer⟩) passing empty
      (fun item member => equal item (List.mem_cons_of_mem _ member))]

theorem keepsUp_steady (positive : 0 < r) (slow : r < 1) (long : 0 < c) {items : List (Item ℚ)}
    (equal : Equal rate c items) (k : Nat) (start : ℚ) :
    KeepsUp rate (start + k * c)
        ((steady c r k items).map fun timed => (timed.1, timed.2.pcm)) ↔
      items = [] ∨ (k + items.length : ℚ) * c / r ≤ start + (k + items.length - 1) * c := by
  induction items generalizing k with
  | nil => simp [steady, KeepsUp]
  | cons item rest ih =>
    obtain ⟨-, atRate, audio⟩ := equal item (by simp)
    have own : seconds rate item.pcm = c := by rw [← audio, ← atRate]; rfl
    have next := ih (fun item member => equal item (List.mem_cons_of_mem _ member)) (k + 1)
    push_cast at next
    simp only [steady, List.map_cons, KeepsUp, own, List.length_cons, reduceCtorEq, false_or]
    push_cast
    rw [add_assoc, show k * c + c = (k + 1) * c by ring, next]
    have count : (0 : ℚ) ≤ rest.length := Nat.cast_nonneg _
    have stretch : c ≤ c / r := by
      rw [le_div_iff₀ positive]
      nlinarith
    constructor
    · rintro ⟨now, rfl | last⟩
      · simpa using now
      · have same : (k + 1 + rest.length : ℚ) = k + (rest.length + 1) := by ring
        rwa [same] at last
    · intro last
      have split : (k + (rest.length + 1) : ℚ) * c / r = (k + 1) * c / r + rest.length * (c / r) := by
        field_simp
        ring
      have grows : rest.length * c ≤ rest.length * (c / r) :=
        mul_le_mul_of_nonneg_left stretch count
      refine ⟨?_, .inr ?_⟩
      · rw [split] at last
        linarith
      · have same : (k + 1 + rest.length : ℚ) = k + (rest.length + 1) := by ring
        rwa [same]

theorem gapFree_release (target endsAt : ℚ) (positive : 0 < r) (slow : r < 1) (long : 0 < c)
    {held : List Pcm} (heldEqual : ∀ pcm ∈ held, seconds rate pcm = c) {item : Item ℚ} {rest : List (Item ℚ)}
    (equal : Equal rate c (item :: rest)) {b : Bridge ℚ} (passing : b.prebuffer.passthrough = true)
    (empty : b.prebuffer.buf = []) :
    GapFree rate (((held ++ [item.pcm]).map fun pcm => ((held.length + 1 : Nat) * c / r, pcm)) ++
        b.emits target endsAt (steady c r (held.length + 1) rest)) ↔
      (held.length + (rest.length + 1) : ℚ) * (1 - r) + r ≤ held.length + 1 := by
  obtain ⟨-, atRate, audio⟩ := equal item (by simp)
  have own : seconds rate item.pcm = c := by rw [← audio, ← atRate]; rfl
  have later : Equal rate c rest := fun item member => equal item (List.mem_cons_of_mem _ member)
  have all : ∀ pcm ∈ held ++ [item.pcm], seconds rate pcm = c := by
    intro pcm member
    rcases List.mem_append.mp member with member | member
    · exact heldEqual pcm member
    · rw [List.mem_singleton.mp member, own]
  have size : (held ++ [item.pcm]).length = held.length + 1 := by simp
  rw [emits_passing passing empty later]
  generalize held ++ [item.pcm] = batch at all size
  obtain _ | ⟨first, batch⟩ := batch
  · simp at size
  have count : batch.length = held.length := by simpa using size
  rw [gapFree_batch _ all long, count, keepsUp_steady positive slow long later]
  have k : (0 : ℚ) ≤ held.length := Nat.cast_nonneg _
  have n : (0 : ℚ) ≤ rest.length := Nat.cast_nonneg _
  push_cast
  constructor
  · rintro (rfl | last)
    · simp only [List.length_nil, Nat.cast_zero]
      nlinarith
    · rw [div_add' _ _ _ positive.ne', div_le_div_iff_of_pos_right positive] at last
      nlinarith
  · intro enough
    refine .inr ?_
    rw [div_add' _ _ _ positive.ne', div_le_div_iff_of_pos_right positive]
    nlinarith

/-- The chunks after which the buffer opens: as many as reach the target, and one at least. -/
def releaseCount (target c : ℚ) : ℤ := max 1 ⌈target / c⌉

theorem releaseCount_eq (long : 0 < c) {k : Nat} (short : k * c < target)
    (reached : target ≤ (k + 1) * c) : releaseCount target c = k + 1 := by
  have ceiling : ⌈target / c⌉ = k + 1 := by
    rw [Int.ceil_eq_iff]
    push_cast
    constructor
    · rw [add_sub_cancel_right, lt_div_iff₀ long]
      exact short
    · rw [div_le_iff₀ long]
      exact reached
  rw [releaseCount, ceiling]
  omega

theorem le_releaseCount (long : 0 < c) {k : Nat} (short : k * c < target) :
    (k : ℚ) ≤ releaseCount target c := by
  have below : (k : ℚ) ≤ target / c := by
    rw [le_div_iff₀ long]
    exact short.le
  have ceiling : (⌈target / c⌉ : ℚ) ≤ releaseCount target c := by
    exact_mod_cast le_max_right 1 ⌈target / c⌉
  exact (below.trans (Int.le_ceil _)).trans ceiling

theorem one_le_releaseCount (target c : ℚ) : (1 : ℚ) ≤ releaseCount target c := by
  exact_mod_cast le_max_left 1 ⌈target / c⌉

theorem gapFree_holding (endsAt : ℚ) (positive : 0 < r) (slow : r < 1) (long : 0 < c)
    {held : List Pcm} (heldEqual : ∀ pcm ∈ held, seconds rate pcm = c) {items : List (Item ℚ)}
    (equal : Equal rate c items) {b : Bridge ℚ}
    (holding : b.prebuffer = ⟨false, held, held.length * c⟩) (short : held.length * c < target) :
    GapFree rate (b.emits target endsAt (steady c r held.length items)) ↔
      (held.length + items.length : ℚ) * (1 - r) + r ≤ releaseCount target c := by
  induction items generalizing b held with
  | nil =>
    have below := le_releaseCount long short
    have one := one_le_releaseCount target c
    simp only [steady, Bridge.emits, holding, List.length_nil, Nat.cast_zero, add_zero]
    cases held with
    | nil =>
      simp only [List.map_nil, GapFree, List.length_nil, Nat.cast_zero, true_iff]
      linarith
    | cons first held =>
      have batch := gapFree_batch endsAt heldEqual long []
      rw [List.append_nil] at batch
      rw [batch]
      simp only [KeepsUp, true_iff]
      have count : (1 : ℚ) ≤ (first :: held).length := by
        rw [List.length_cons]
        push_cast
        linarith [Nat.cast_nonneg (α := ℚ) held.length]
      nlinarith
  | cons item rest ih =>
    obtain ⟨readable, atRate, audio⟩ := equal item (by simp)
    obtain ⟨stats, received⟩ := b.receive_readable target readable
    rw [holding, audio] at received
    simp only [Library.Prebuffer.push, Bool.false_eq_true, if_false] at received
    rw [steady]
    by_cases reached : target ≤ held.length * c + c
    · rw [if_pos reached] at received
      simp only [Bridge.emits, received]
      have opens := releaseCount_eq long short (by linarith)
      rw [gapFree_release target endsAt positive slow long heldEqual equal rfl rfl, opens, List.length_cons]
      push_cast
      rfl
    · rw [if_neg reached] at received
      simp only [Bridge.emits, received, List.map_nil, List.nil_append]
      have own : seconds rate item.pcm = c := by rw [← audio, ← atRate]; rfl
      have size : (held ++ [item.pcm]).length = held.length + 1 := by simp
      have all : ∀ pcm ∈ held ++ [item.pcm], seconds rate pcm = c := by
        intro pcm member
        rcases List.mem_append.mp member with member | member
        · exact heldEqual pcm member
        · rw [List.mem_singleton.mp member, own]
      have more : ((held.length : ℚ) + 1) * c = held.length * c + c := by ring
      have next := ih all (fun item member => equal item (List.mem_cons_of_mem _ member))
        (b := ⟨stats, ⟨false, held ++ [item.pcm], held.length * c + c⟩⟩)
        (by rw [size]; push_cast; rw [more])
        (by rw [size]; push_cast; rw [more]; exact not_le.mp reached)
      rw [size] at next
      rw [next, List.length_cons]
      push_cast
      rw [add_assoc, add_comm 1 (rest.length : ℚ)]

theorem gapFree_target (positive : 0 < r) (slow : r < 1) (long : 0 < c) (stats : StreamStats ℚ)
    (piece : Nat) {items : List (Item ℚ)} (equal : Equal rate c items) :
    GapFree rate ((Bridge.start target stats piece).emits target endsAt (steady c r 0 items)) ↔
      (items.length : ℚ) * (1 - r) + r ≤ releaseCount target c := by
  by_cases low : target ≤ 0
  · have one : releaseCount target c = 1 := by
      have ceiling : ⌈target / c⌉ ≤ 0 := by
        rw [Int.ceil_le, Int.cast_zero]
        exact div_nonpos_of_nonpos_of_nonneg low long.le
      rw [releaseCount]
      omega
    have passing : (Bridge.start target stats piece).prebuffer.passthrough = true := by
      simpa [Bridge.start] using low
    cases items with
    | nil =>
      simp only [steady, Bridge.emits, Bridge.start, List.map_nil, GapFree, List.length_nil, one]
      norm_num
      exact slow.le
    | cons item rest =>
      obtain ⟨later, received⟩ :=
        (Bridge.start target stats piece).receive_readable target (equal item (by simp)).1
      rw [Library.Prebuffer.push_passing _ passing] at received
      have none : ∀ pcm ∈ ([] : List Pcm), seconds rate pcm = c := by simp
      have release := gapFree_release target endsAt positive slow long none equal
        (b := ⟨later, (Bridge.start target stats piece).prebuffer⟩) passing rfl
      simp only [List.length_nil, Nat.cast_zero, zero_add, List.nil_append] at release
      simp only [steady, Bridge.emits, received, zero_add]
      rw [release, one, List.length_cons]
      push_cast
      rfl
  · have none : ∀ pcm ∈ ([] : List Pcm), seconds rate pcm = c := by simp
    have short : ([] : List Pcm).length * c < target := by simpa using low
    have holding := gapFree_holding endsAt positive slow long none equal
      (b := Bridge.start target stats piece) (by simp [Bridge.start, low]) short
    simpa using holding

theorem prebufferTarget_rolling {estD initialS safetyS : ℚ} (positive : 0 < r) (slow : r < 1) :
    prebufferTarget estD initialS safetyS (some r) = .ok (estD * (1 - r) / r + safetyS) := by
  rw [prebufferTarget, if_neg (not_le.mpr slow), divide_ok positive.ne']
  rfl

theorem targetSeconds_rolling {j : JitterSettings ℚ} {stats : StreamStats ℚ} {piece : Nat} {estD : ℚ}
    (estimate : estimatedDuration j stats piece = .ok estD) (rolling : stats.rtf = some r)
    (positive : 0 < r) (slow : r < 1) :
    targetSeconds j stats piece = .ok (estD * (1 - r) / r + j.safetyMs / 1000) := by
  rw [targetSeconds, estimate, rolling]
  show prebufferTarget estD (j.initialMs / 1000) (j.safetyMs / 1000) (some r) = _
  rw [prebufferTarget_rolling positive slow]

/-- A piece of `N` chunks of `c` seconds each, produced at the rolling RTF `r`, plays without a gap
exactly when `N * (1 - r) + r` chunks are no more than those that the prebuffer waits for. -/
theorem buffered_piece_gapFree_iff (rate : Int) (estD initialS safetyS r c endsAt target : ℚ)
    (stats : StreamStats ℚ) (piece : Nat) (items : List (Item ℚ)) (rolling : stats.rtf = some r)
    (positive : 0 < r) (slow : r < 1) (long : 0 < c) (equal : Equal rate c items)
    (computed : prebufferTarget estD initialS safetyS stats.rtf = .ok target) :
    GapFree rate ((Bridge.start target stats piece).emits target endsAt (steady c r 0 items)) ↔
      (items.length : ℚ) * (1 - r) + r ≤
        (max 1 ⌈(estD * (1 - r) / r + safetyS) / c⌉ : ℤ) := by
  rw [rolling, prebufferTarget_rolling positive slow] at computed
  obtain rfl := Except.ok.inj computed
  exact gapFree_target positive slow long stats piece equal

def second : Item ℚ := ⟨List.replicate 24000 0, ⟨.number 1000, .falsy⟩, 24000⟩

theorem second_equal (items : List (Item ℚ)) (same : ∀ item ∈ items, item = second) :
    Equal 24000 1 items := by
  intro item member
  obtain rfl := same item member
  refine ⟨⟨by decide, trivial, trivial⟩, rfl, ?_⟩
  rw [Item.audioS, show second.pcm.length = 24000 from List.length_replicate,
    show second.sampleRate = 24000 from rfl]
  norm_num

/-- At half of real time the third of five chunks opens the buffer. -/
theorem half_rate_piece_gapFree :
    GapFree 24000 ((Bridge.start (11 / 5) ⟨10, 20, 100⟩ 20).emits (11 / 5) 10
      (steady 1 (1 / 2) 0 (List.replicate 5 second))) := by
  have rolling : (⟨10, 20, 100⟩ : StreamStats ℚ).rtf = some (1 / 2) := by
    rw [StreamStats.rtf, if_neg (by norm_num)]
    norm_num
  have same : ∀ item ∈ List.replicate 5 second, item = second := by
    intro item member
    exact (List.mem_replicate.mp member).2
  refine (buffered_piece_gapFree_iff 24000 2 (1 / 2) (1 / 5) (1 / 2) 1 10 (11 / 5) ⟨10, 20, 100⟩ 20
    (List.replicate 5 second) rolling (by norm_num) (by norm_num) (by norm_num)
    (second_equal _ same) ?_).mpr ?_
  · rw [rolling, prebufferTarget_rolling (by norm_num) (by norm_num)]
    norm_num
  · rw [List.length_replicate, show (2 * (1 - 1 / 2) / (1 / 2) + 1 / 5 : ℚ) / 1 = 11 / 5 by norm_num,
      show ⌈(11 / 5 : ℚ)⌉ = 3 by rw [Int.ceil_eq_iff]; norm_num]
    norm_num

/-- At nine tenths of real time the buffer opens with the first of two chunks, though the second
takes longer than the first plays. -/
theorem chunk_granularity_leaves_gap :
    (⟨9, 10, 90⟩ : StreamStats ℚ).rtf = some (9 / 10) ∧
      estimatedDuration .default ⟨9, 10, 90⟩ 20 = .ok 2 ∧
      targetSeconds .default ⟨9, 10, 90⟩ 20 = .ok (19 / 45) ∧
      ¬ GapFree 24000 ((Bridge.start (19 / 45) ⟨9, 10, 90⟩ 20).emits (19 / 45) (20 / 9)
        (steady 1 (9 / 10) 0 [second, second])) := by
  have rolling : (⟨9, 10, 90⟩ : StreamStats ℚ).rtf = some (9 / 10) := by
    rw [StreamStats.rtf, if_neg (by norm_num)]
  have estimate : estimatedDuration .default ⟨9, 10, 90⟩ 20 = .ok 2 := by
    have pace : (⟨9, 10, 90⟩ : StreamStats ℚ).charsPerSec JitterSettings.default.charsPerSecBootstrap = 10 := by
      rw [StreamStats.charsPerSec, if_neg (by norm_num)]
      norm_num
    rw [estimatedDuration_ok (by rw [pace]; norm_num), pace]
    norm_num
  refine ⟨rolling, estimate, ?_, ?_⟩
  · rw [targetSeconds_rolling estimate rolling (by norm_num) (by norm_num)]
    norm_num [JitterSettings.default]
  · rw [gapFree_target (by norm_num) (by norm_num) (by norm_num) _ _ (second_equal _ (by simp)),
      releaseCount, show ⌈(19 / 45 : ℚ) / 1⌉ = 1 by rw [Int.ceil_eq_iff]; norm_num]
    norm_num

end Qwen3

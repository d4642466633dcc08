import Mathlib.Algebra.BigOperators.Group.List.Basic
import Mathlib.Algebra.Order.Ring.Int
import NeuralTts.Library.Collect

/-! The token-level streaming decode of one text chunk by the moss-tts-nano provider
(`_run_streaming_chunk`). -/

namespace MossTtsNano

open Library

abbrev Frame := List Int

/-- Float32 samples, by their bits. -/
abbrev Pcm := List (BitVec 32)

/-- What `run_frames` returns when it is not None: the samples of each channel, and a length. -/
structure Decoded where
  audio : List Pcm
  audioLength : Int
deriving DecidableEq

/-- The codec session, the budget of the vendored runtime, the clock, the mean of numpy and the
consumer of the PCM, over a state of theirs. -/
structure Outside (σ Time : Type) where
  reset : σ → σ
  resolveStreamDecodeFrameBudget : Int → Int → Option Time → σ → Except String (Int × σ)
  runFrames : List Frame → σ → Except String (Option Decoded × σ)
  perfCounter : σ → Time × σ
  mean : List (BitVec 32) → BitVec 32
  emit : Pcm → σ → Except String σ

def frameRows : List Pcm → List (List (BitVec 32))
  | [] => []
  | [only] => only.map fun x => [x]
  | channel :: rest => List.zipWith List.cons channel (frameRows rest)

/-- Mono, up to the length; `np.stack` raises when there is no channel. -/
def downmix (mean : List (BitVec 32) → BitVec 32) (decoded : Decoded) : Except String Pcm :=
  match decoded.audio with
  | [] => .error "need at least one array to stack"
  | [only] => .ok (only.take decoded.audioLength.toNat)
  | channels => .ok ((frameRows (channels.map (List.take decoded.audioLength.toNat))).map mean)

structure ChunkStream (σ Time : Type) where
  outside : σ
  pending : List Frame
  emittedSamplesTotal : Int
  firstAudioAt : Option Time

namespace ChunkStream

variable {σ Time : Type} (env : Outside σ Time) (sampleRate : Int)

def start (outside : σ) : ChunkStream σ Time := ⟨outside, [], 0, none⟩

def noteFirstAudio (s : ChunkStream σ Time) : ChunkStream σ Time :=
  match s.firstAudioAt with
  | some _ => s
  | none => { s with firstAudioAt := some (env.perfCounter s.outside).1, outside := (env.perfCounter s.outside).2 }

/-- `flush` from the return of `run_frames` on. -/
def hear (s : ChunkStream σ Time) : Option Decoded → Except String (ChunkStream σ Time)
  | none => .ok s
  | some decoded =>
    if decoded.audioLength ≤ 0 then .ok s
    else do
      let s := noteFirstAudio env s
      let mono ← downmix env.mean decoded
      let outside ← env.emit mono s.outside
      .ok { s with outside := outside, emittedSamplesTotal := s.emittedSamplesTotal + decoded.audioLength }

/-- `flush` from the slicing of `pending` on. -/
def decode (s : ChunkStream σ Time) (frameBudget : Nat) : Except String (ChunkStream σ Time) := do
  let (decoded, outside) ← env.runFrames (s.pending.take frameBudget) s.outside
  hear env { s with outside := outside, pending := s.pending.drop frameBudget } decoded

def flush (force : Bool) (s : ChunkStream σ Time) : Except String (ChunkStream σ Time) :=
  if s.pending.length ≤ 0 then .ok s
  else do
    let (decodeBudget, outside) ← env.resolveStreamDecodeFrameBudget s.emittedSamplesTotal sampleRate
      s.firstAudioAt s.outside
    let s := { s with outside := outside }
    if force = false ∧ (s.pending.length : Int) < max 1 decodeBudget then .ok s
    else decode env s (if force then s.pending.length else (min (s.pending.length : Int) (max 1 decodeBudget)).toNat)

def onFrame (s : ChunkStream σ Time) (frame : Frame) : Except String (ChunkStream σ Time) :=
  flush env sampleRate false { s with pending := s.pending ++ [frame] }

end ChunkStream

open ChunkStream

/-- `_run_streaming_chunk`, where `generate_audio_frames` delivers these frames. -/
def runStreamingChunk {σ Time : Type} (env : Outside σ Time) (sampleRate : Int) (frames : List Frame)
    (outside : σ) : Except String (ChunkStream σ Time) := do
  let s ← frames.foldlM (onFrame env sampleRate) (start (env.reset outside))
  let s ← flush env sampleRate true s
  .ok { s with outside := env.reset s.outside }

inductive Call
  | runFrames (frameChunk : List Frame) (decoded : Option Decoded)
  | emit (mono : Pcm)
deriving DecidableEq

/-- The same outside, keeping a log of its calls beside its state. -/
def Outside.logged {σ Time : Type} (env : Outside σ Time) : Outside (σ × List Call) Time where
  reset := fun (outside, log) => (env.reset outside, log)
  resolveStreamDecodeFrameBudget total sampleRate firstAudioAt := fun (outside, log) => do
    let (budget, outside) ← env.resolveStreamDecodeFrameBudget total sampleRate firstAudioAt outside
    .ok (budget, outside, log)
  runFrames frameChunk := fun (outside, log) => do
    let (decoded, outside) ← env.runFrames frameChunk outside
    .ok (decoded, outside, log ++ [.runFrames frameChunk decoded])
  perfCounter := fun (outside, log) => ((env.perfCounter outside).1, (env.perfCounter outside).2, log)
  mean := env.mean
  emit mono := fun (outside, log) => do
    let outside ← env.emit mono outside
    .ok (outside, log ++ [.emit mono])

def frameChunks (log : List Call) : List (List Frame) :=
  log.filterMap fun
    | .runFrames frameChunk _ => some frameChunk
    | .emit _ => none

def audible (log : List Call) : List Decoded :=
  log.filterMap fun
    | .runFrames _ decoded => decoded.filter fun decoded => 0 < decoded.audioLength
    | .emit _ => none

def emits (log : List Call) : List Pcm :=
  log.filterMap fun
    | .runFrames _ _ => none
    | .emit mono => some mono

def ChunkStream.withLog {σ Time : Type} (s : ChunkStream σ Time) (log : List Call) :
    ChunkStream (σ × List Call) Time :=
  ⟨(s.outside, log), s.pending, s.emittedSamplesTotal, s.firstAudioAt⟩

/-- What holds of a stream to which these frames were delivered, and of its calls. -/
structure Streamed {σ Time : Type} (env : Outside σ Time) (frames : List Frame) (log : List Call)
    (s : ChunkStream σ Time) : Prop where
  whole : (frameChunks log).flatten ++ s.pending = frames
  given : [] ∉ frameChunks log
  emitted : (emits log).map .ok = (audible log).map (downmix env.mean)
  total : s.emittedSamplesTotal = ((audible log).map Decoded.audioLength).sum

variable {σ Time : Type} {env : Outside σ Time} {sampleRate : Int} {frames : List Frame} {log : List Call}
  {s t : ChunkStream σ Time}

theorem frameChunks_append (log later : List Call) :
    frameChunks (log ++ later) = frameChunks log ++ frameChunks later :=
  List.filterMap_append

theorem audible_append (log later : List Call) : audible (log ++ later) = audible log ++ audible later :=
  List.filterMap_append

theorem emits_append (log later : List Call) : emits (log ++ later) = emits log ++ emits later :=
  List.filterMap_append

theorem noteFirstAudio_same : (noteFirstAudio env s).pending = s.pending ∧
    (noteFirstAudio env s).emittedSamplesTotal = s.emittedSamplesTotal := by
  unfold noteFirstAudio
  split <;> exact ⟨rfl, rfl⟩

theorem noteFirstAudio_logged :
    noteFirstAudio env.logged (s.withLog log) = (noteFirstAudio env s).withLog log := by
  cases noted : s.firstAudioAt with
  | none => simp [noteFirstAudio, ChunkStream.withLog, Outside.logged, noted]
  | some _ => simp [noteFirstAudio, ChunkStream.withLog, noted]

theorem hear_logged {decoded : Option Decoded} (heardOk : hear env s decoded = .ok t) (log : List Call) :
    ∃ sent : List Call, hear env.logged (s.withLog log) decoded = .ok (t.withLog (log ++ sent)) ∧
      frameChunks sent = [] ∧ audible sent = [] ∧ t.pending = s.pending ∧
      (emits sent).map .ok =
        (decoded.filter fun d => 0 < d.audioLength).toList.map (downmix env.mean) ∧
      t.emittedSamplesTotal = s.emittedSamplesTotal +
        ((decoded.filter fun d => 0 < d.audioLength).toList.map Decoded.audioLength).sum := by
  cases decoded with
  | none =>
    cases heardOk
    exact ⟨[], by simp [hear], rfl, rfl, rfl, rfl, by simp⟩
  | some d =>
    simp only [hear] at heardOk
    split at heardOk
    · rename_i silent
      cases heardOk
      have absent : (some d).filter (fun d => 0 < d.audioLength) = none := by simp [silent]
      rw [absent]
      exact ⟨[], by simp [hear, silent], rfl, rfl, rfl, rfl, by simp⟩
    · rename_i loud
      obtain ⟨mono, mixed, rest⟩ := bind_eq_ok.mp heardOk
      obtain ⟨outside, sent, finished⟩ := bind_eq_ok.mp rest
      cases finished
      have present : (some d).filter (fun d => 0 < d.audioLength) = some d := by simpa using loud
      have handed : env.logged.emit mono ((noteFirstAudio env s).outside, log) =
          .ok (outside, log ++ [.emit mono]) := by
        simp only [Outside.logged, sent]
        rfl
      obtain ⟨pending, total⟩ := @noteFirstAudio_same _ _ env s
      rw [present]
      refine ⟨[.emit mono], ?_, rfl, rfl, pending, by simp [emits, mixed], by simp [total]⟩
      rw [hear, if_neg loud, noteFirstAudio_logged]
      exact bind_eq_ok.mpr ⟨mono, mixed, bind_eq_ok.mpr ⟨_, handed, rfl⟩⟩

theorem decode_logged {frameBudget : Nat} (streamed : Streamed env frames log s)
    (some_frame : s.pending ≠ []) (positive : 0 < frameBudget) (decoded : decode env s frameBudget = .ok t) :
    ∃ log', decode env.logged (s.withLog log) frameBudget = .ok (t.withLog log') ∧
      Streamed env frames log' t ∧ t.pending = s.pending.drop frameBudget := by
  obtain ⟨⟨outcome, outside⟩, ran, hearing⟩ := bind_eq_ok.mp decoded
  let call := Call.runFrames (s.pending.take frameBudget) outcome
  obtain ⟨sent, heard, noChunk, noOutcome, pending, mixed, total⟩ := hear_logged hearing (log ++ [call])
  have handed : env.logged.runFrames (s.pending.take frameBudget) (s.outside, log) =
      .ok (outcome, outside, log ++ [call]) := by
    simp only [Outside.logged, ran]
    rfl
  have nowHeard : audible [call] = (outcome.filter fun d => 0 < d.audioLength).toList := by
    simp only [audible, call, List.filterMap_cons, List.filterMap_nil]
    cases outcome.filter fun d => 0 < d.audioLength <;> rfl
  have chunks : frameChunks (log ++ [call] ++ sent) = frameChunks log ++ [s.pending.take frameBudget] := by
    rw [frameChunks_append, frameChunks_append, noChunk, List.append_nil]
    rfl
  have outcomes : audible (log ++ [call] ++ sent) =
      audible log ++ (outcome.filter fun d => 0 < d.audioLength).toList := by
    rw [audible_append, audible_append, noOutcome, List.append_nil, nowHeard]
  have monos : emits (log ++ [call] ++ sent) = emits log ++ emits sent := by
    rw [emits_append, emits_append]
    exact congrArg (· ++ emits sent) (List.append_nil _)
  refine ⟨log ++ [call] ++ sent, bind_eq_ok.mpr ⟨_, handed, heard⟩, ⟨?_, ?_, ?_, ?_⟩, pending⟩
  · rw [chunks, pending, ← streamed.whole]
    simp
  · rw [chunks, List.mem_append, List.mem_singleton, not_or, eq_comm, List.take_eq_nil_iff, not_or]
    exact ⟨streamed.given, positive.ne', some_frame⟩
  · rw [monos, outcomes, List.map_append, List.map_append, streamed.emitted, mixed]
  · rw [total, outcomes, List.map_append, List.sum_append, streamed.total]

theorem flush_logged {force : Bool} (streamed : Streamed env frames log s)
    (flushed : flush env sampleRate force s = .ok t) :
    ∃ log', flush env.logged sampleRate force (s.withLog log) = .ok (t.withLog log') ∧
      Streamed env frames log' t ∧ (force = true → t.pending = []) := by
  rw [flush] at flushed
  split at flushed
  · rename_i no_frame
    cases flushed
    refine ⟨log, ?_, streamed, fun _ => List.eq_nil_of_length_eq_zero (Nat.le_zero.mp no_frame)⟩
    rw [flush]
    exact if_pos no_frame
  · rename_i some_frame
    have filled : s.pending ≠ [] := fun none => some_frame (by simp [none])
    obtain ⟨⟨decodeBudget, outside⟩, resolved, rest⟩ := bind_eq_ok.mp flushed
    have asked : env.logged.resolveStreamDecodeFrameBudget s.emittedSamplesTotal sampleRate s.firstAudioAt
        (s.outside, log) = .ok (decodeBudget, outside, log) := by
      simp only [Outside.logged, resolved]
      rfl
    have moved : Streamed env frames log { s with outside := outside } :=
      ⟨streamed.whole, streamed.given, streamed.emitted, streamed.total⟩
    have begun (log' : List Call) (later : (if force = false ∧
        (s.pending.length : Int) < max 1 decodeBudget then .ok ({ s with outside := outside }.withLog log)
        else decode env.logged ({ s with outside := outside }.withLog log) (if force then s.pending.length
          else (min (s.pending.length : Int) (max 1 decodeBudget)).toNat)) = .ok (t.withLog log')) :
        flush env.logged sampleRate force (s.withLog log) = .ok (t.withLog log') := by
      rw [flush]
      exact (if_neg some_frame).trans (bind_eq_ok.mpr ⟨_, asked, later⟩)
    dsimp only at rest
    split at rest
    · rename_i waits
      cases rest
      exact ⟨log, begun log (if_pos waits), moved, fun forced => absurd (waits.1.symm.trans forced) nofun⟩
    · rename_i decodes
      have positive : 0 < (if force then s.pending.length else
          (min (s.pending.length : Int) (max 1 decodeBudget)).toNat) := by
        split <;> omega
      obtain ⟨log', decoded, kept, left⟩ := decode_logged moved filled positive rest
      refine ⟨log', begun log' ((if_neg decodes).trans decoded), kept, fun forced => ?_⟩
      rw [left, if_pos forced]
      exact List.drop_length

theorem onFrame_logged {frame : Frame} (streamed : Streamed env frames log s)
    (delivered : onFrame env sampleRate s frame = .ok t) :
    ∃ log', onFrame env.logged sampleRate (s.withLog log) frame = .ok (t.withLog log') ∧
      Streamed env (frames ++ [frame]) log' t := by
  have waiting : Streamed env (frames ++ [frame]) log { s with pending := s.pending ++ [frame] } := by
    refine ⟨?_, streamed.given, streamed.emitted, streamed.total⟩
    rw [← streamed.whole, List.append_assoc]
  obtain ⟨log', flushed, kept, -⟩ := flush_logged waiting delivered
  exact ⟨log', flushed, kept⟩

theorem foldlM_onFrame_logged {outside : σ}
    (delivered : frames.foldlM (onFrame env sampleRate) (start outside) = .ok s) :
    ∃ log, frames.foldlM (onFrame env.logged sampleRate) (start (outside, [])) = .ok (s.withLog log) ∧
      Streamed env frames log s := by
  let holds (before : List Frame) (s : ChunkStream σ Time) : Prop :=
    ∃ log, before.foldlM (onFrame env.logged sampleRate) (start (outside, [])) = .ok (s.withLog log) ∧
      Streamed env before log s
  have begun : holds [] (start outside) := ⟨[], rfl, rfl, List.not_mem_nil, rfl, rfl⟩
  have grows : ∀ {before frame s t}, holds before s → onFrame env sampleRate s frame = .ok t →
      holds (before ++ [frame]) t := by
    rintro before frame s t ⟨log, folded, streamed⟩ now
    obtain ⟨log', next, kept⟩ := onFrame_logged streamed now
    refine ⟨log', ?_, kept⟩
    rw [List.foldlM_append]
    exact bind_eq_ok.mpr ⟨_, folded, bind_eq_ok.mpr ⟨_, next, rfl⟩⟩
  have delivers : holds frames s := foldlM_grows grows begun delivered
  exact delivers

/-- A chunk that was streamed without raising is streamed the same way where the calls are logged,
and the log says what `run_frames` and `emit` were given. -/
theorem runStreamingChunk_exact {outside : σ}
    (finished : runStreamingChunk env sampleRate frames outside = .ok s) :
    ∃ log, runStreamingChunk env.logged sampleRate frames (outside, []) = .ok (s.withLog log) ∧
      [] ∉ frameChunks log ∧ (frameChunks log).flatten = frames ∧ s.pending = [] ∧
      (emits log).map .ok = (audible log).map (downmix env.mean) ∧
      s.emittedSamplesTotal = ((audible log).map Decoded.audioLength).sum := by
  obtain ⟨before, delivered, rest⟩ := bind_eq_ok.mp finished
  obtain ⟨after, flushed, last⟩ := bind_eq_ok.mp rest
  cases last
  obtain ⟨log, folded, once⟩ := foldlM_onFrame_logged delivered
  obtain ⟨log', forced, streamed, empty⟩ := flush_logged once flushed
  have whole := streamed.whole
  rw [empty rfl, List.append_nil] at whole
  exact ⟨log', bind_eq_ok.mpr ⟨_, folded, bind_eq_ok.mpr ⟨_, forced, rfl⟩⟩, streamed.given, whole, empty rfl,
    streamed.emitted, streamed.total⟩

def scripted : Outside (List Int × List (Option Decoded)) Unit where
  reset := id
  resolveStreamDecodeFrameBudget _ _ _ script := .ok (script.1.headD 0, script.1.tail, script.2)
  runFrames _ script := .ok (script.2.headD none, script.1, script.2.tail)
  perfCounter script := ((), script)
  mean channels := channels.headD 0
  emit _ script := .ok script

theorem scripted_exact :
    ∃ (s : ChunkStream (List Int × List (Option Decoded)) Unit) (log : List Call),
      runStreamingChunk scripted.logged 48000 [[1], [2], [3], [4]]
        (([2, 2, -1, 7, 7], [some ⟨[[5, 6, 7]], 2⟩, none, some ⟨[[8], [9]], 1⟩]), []) = .ok (s.withLog log) ∧
      [] ∉ frameChunks log ∧ (frameChunks log).flatten = [[1], [2], [3], [4]] ∧ s.pending = [] ∧
      (emits log).map .ok = (audible log).map (downmix scripted.mean) ∧
      s.emittedSamplesTotal = ((audible log).map Decoded.audioLength).sum ∧ s.emittedSamplesTotal = 3 := by
  obtain ⟨s, finished, total⟩ : ∃ s, runStreamingChunk scripted 48000 [[1], [2], [3], [4]]
      ([2, 2, -1, 7, 7], [some ⟨[[5, 6, 7]], 2⟩, none, some ⟨[[8], [9]], 1⟩]) = .ok s ∧
      s.emittedSamplesTotal = 3 := ⟨_, rfl, rfl⟩
  obtain ⟨log, logged, given, whole, empty, emitted, added⟩ := runStreamingChunk_exact finished
  exact ⟨s, log, logged, given, whole, empty, emitted, added, total⟩

end MossTtsNano

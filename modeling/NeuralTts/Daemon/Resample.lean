import NeuralTts.Daemon.Protocol
import NeuralTts.Library.Transducer

/-! The streaming resampler (`resample.py`) over numpy and soxr. -/

namespace Daemon

open Library

/-- The bits of a float32. -/
abbrev Sample := BitVec 32

/-- What the daemon takes from soxr and numpy, and Python's `repr`. -/
structure Runtime where
  /-- The states of a `soxr.ResampleStream`. -/
  Stream : Type
  soxr : Transducer Stream Sample Sample
  /-- `soxr.ResampleStream(in_rate, out_rate, ...)`; `none` is an exception. -/
  resampleStream (inRate outRate : Int) : Option Stream
  resample (inRate outRate : Int) : List Sample → List Sample
  /-- The streamed output, with the flush, is the resampling of the whole input. -/
  streams (inRate outRate : Int) (s : Stream) :
    resampleStream inRate outRate = some s → soxr.Computes s (resample inRate outRate)
  toS16 : Sample → BitVec 16
  repr : String → String

/-- `np.frombuffer(chunk, dtype=np.float32)`, which raises when a sample is cut off. -/
def frombuffer : Bytes → Option (List Sample)
  | [] => some []
  | a :: b :: c :: d :: rest =>
    (frombuffer rest).map fun samples => (d.toBitVec ++ c.toBitVec ++ b.toBitVec ++ a.toBitVec) :: samples
  | _ => none

def s16leBytes (w : BitVec 16) : Bytes := [⟨w.extractLsb' 0 8⟩, ⟨w.extractLsb' 8 8⟩]

/-- `Resampler`, by the implementation that it picks. -/
inductive Resampler (rt : Runtime)
  | same
  | soxr (s : rt.Stream)

namespace Runtime

variable (rt : Runtime)

def float32ToS16leBytes (samples : List Sample) : Bytes := samples.flatMap fun x => s16leBytes (rt.toS16 x)

/-- What `Resampler` computes of a whole input. -/
def resampled (inRate outRate : Int) (samples : List Sample) : List Sample :=
  if inRate = outRate then samples else rt.resample inRate outRate samples

theorem float32ToS16leBytes_append (xs ys : List Sample) :
    rt.float32ToS16leBytes (xs ++ ys) = rt.float32ToS16leBytes xs ++ rt.float32ToS16leBytes ys :=
  List.flatMap_append

theorem float32ToS16leBytes_length (xs : List Sample) :
    (rt.float32ToS16leBytes xs).length = 2 * xs.length := by
  induction xs with
  | nil => rfl
  | cons x rest ih =>
    have size : (s16leBytes (rt.toS16 x)).length = 2 := rfl
    have step : rt.float32ToS16leBytes (x :: rest) =
        s16leBytes (rt.toS16 x) ++ rt.float32ToS16leBytes rest := rfl
    rw [step, List.length_append, size, ih, List.length_cons]
    omega

end Runtime

namespace Resampler

variable {rt : Runtime}

def new (rt : Runtime) (inRate outRate : Int) : Option (Resampler rt) :=
  if inRate = outRate then some .same else (rt.resampleStream inRate outRate).map .soxr

def process : Resampler rt → List Sample → Resampler rt × List Sample
  | .same, samples => (.same, samples)
  | .soxr s, samples => (.soxr (rt.soxr.step s samples).1, (rt.soxr.step s samples).2)

def flush : Resampler rt → List Sample
  | .same => []
  | .soxr s => rt.soxr.finish s

def transducer (rt : Runtime) : Transducer (Resampler rt) Sample Sample := ⟨process, flush⟩

theorem computes {inRate outRate : Int} {r : Resampler rt} (built : new rt inRate outRate = some r) :
    (transducer rt).Computes r (rt.resampled inRate outRate) := by
  unfold new at built
  split at built
  · rename_i same
    cases built
    have whole : rt.resampled inRate outRate = id := by
      funext samples
      exact if_pos same
    rw [whole]
    exact Transducer.computes_id (fun _ => rfl) rfl
  · rename_i differ
    obtain ⟨s, opened, rfl⟩ := Option.map_eq_some_iff.mp built
    have whole : rt.resampled inRate outRate = rt.resample inRate outRate := by
      funext samples
      exact if_neg differ
    rw [whole]
    exact Transducer.Computes.map _ (rt.streams inRate outRate s opened) Resampler.soxr (fun _ _ => rfl)
      fun _ => rfl

end Resampler

end Daemon

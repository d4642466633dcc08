import NeuralTts.Daemon.Protocol

/-! How `neural-tts-say` reads the answer to one segment (`synth_segment`). -/

namespace Clients

open Daemon

/-- The loop after the header; `none` is an exception, a closed connection included. -/
def segmentLoop (nbytes : Nat) : List Response → Option Nat
  | .audioChunk pcm :: rest => segmentLoop (nbytes + pcm.length) rest
  | .audioEnd :: _ => some nbytes
  | _ => none

/-- The byte count that `synth_segment` returns for these frames, if its own output takes them. -/
def synthSegment : List Response → Option Nat
  | .synthesizeHeader _ :: rest => segmentLoop 0 rest
  | _ => none

theorem audioEnd_of_segmentLoop {nbytes n : Nat} {frames : List Response}
    (returned : segmentLoop nbytes frames = some n) : .audioEnd ∈ frames := by
  induction frames generalizing nbytes with
  | nil => cases returned
  | cons frame rest ih =>
    cases frame with
    | audioChunk pcm => exact List.mem_cons_of_mem _ (ih returned)
    | audioEnd => exact List.mem_cons_self
    | _ => cases returned

theorem audioEnd_of_synthSegment {n : Nat} {frames : List Response}
    (returned : synthSegment frames = some n) : .audioEnd ∈ frames := by
  cases frames with
  | nil => cases returned
  | cons frame rest =>
    cases frame with
    | synthesizeHeader rate => exact List.mem_cons_of_mem _ (audioEnd_of_segmentLoop returned)
    | _ => cases returned

end Clients

import NeuralTts.Daemon.ProviderProcess
import NeuralTts.Daemon.Resample
import NeuralTts.Daemon.VoiceIndex

/-! The speechd side of the daemon (`proxy.py`): one client connection from its request to its
last frame, with the frames that the provider sends for it known beforehand. -/

namespace Daemon

open Library

def wireSampleRate : Int := 24000

/-- How `ensure_ready` ends. -/
inductive Readiness
  | notInstalled
  | failed (text : String)
  | ready (proc : ProviderProcess)

/-- A client that stays gets every frame; one that goes away gets some of them, never the last,
and may make the drains of the daemon raise, by the number of frames written before. -/
structure Client where
  leaves : Option Nat
  drainRaises : Nat → Bool
  patient : leaves = none → ∀ written, drainRaises written = false

structure Connection where
  /-- `none`: the request is malformed. -/
  request : Option Request
  /-- The populated index; `none` is an exception. -/
  index : Option VoiceIndex
  ensureReady : String → Readiness
  /-- The index as it is after `ensure_ready`. -/
  later : VoiceIndex
  /-- The frames that `synthesize` reads before a read raises; `none` if it raises before. -/
  frames : Option (List Response)
  client : Client

def Client.received (c : Client) (written : List Response) : List Response :=
  match c.leaves with
  | none => written
  | some n => written.dropLast.take n

/-- `request.WhichOneof("op")` -/
def Request.op : Request → Option String
  | .warmup => some "warmup"
  | .synthesize _ => some "synthesize"
  | .listVoices => some "list_voices"
  | .shutdown => some "shutdown"
  | .registerClonedVoice _ _ _ _ => some "register_cloned_voice"
  | .removeClonedVoice _ => some "remove_cloned_voice"
  | .unset => none

/-- `_send_and_close`; a frame that is too large is not sent. -/
def sendAndClose (message : String) : List Response :=
  if errorLength message > maxFrameBytes then [] else [.error message]

section

variable (rt : Runtime)

/-- The handler up to the header: the frames that it sends instead, or the process that it got. -/
def obtainProcess (conn : Connection) : Except (List Response) ProviderProcess :=
  match conn.request with
  | none => .error []
  | some (.synthesize synth) =>
    if synth.voice = "" then .error (sendAndClose "missing 'voice'")
    else
      match conn.index with
      | none => .error []
      | some idx =>
        match idx.providerFor synth.voice with
        | none => .error (sendAndClose ("unknown voice " ++ rt.repr synth.voice ++
            " (not found in any enabled provider; try `bin/neural-tts-ctl reload-voices`)"))
        | some target =>
          match conn.ensureReady target with
          | .notInstalled => .error (sendAndClose ("provider " ++ rt.repr target ++
              " venv not found; run `mise run install-provider " ++ target ++ "` to install it"))
          | .failed text => .error (sendAndClose ("provider unavailable: " ++ text))
          | .ready proc =>
            if conn.later.localIdFor synth.voice ∈ proc.voices.map Voice.id then .ok proc
            else .error (sendAndClose ("voice " ++ rt.repr synth.voice ++ " no longer available in " ++
              rt.repr target))
  | some request =>
    .error (sendAndClose ("unsupported op " ++ (request.op.map rt.repr).getD "None"))

/-- The frames of `synthesize` after its header, unless it raises. -/
def synthesizeStart : Option (List Response) → Option (List Response)
  | some (.synthesizeHeader _ :: frames) => some frames
  | _ => none

/-- `_pump`, whose every exception is logged: the frames that it writes, and whether the generator
has read `audio_end`. `written` counts the frames before. -/
def pump (client : Client) (written : Nat) (r : Resampler rt) : List Response → List Response × Bool
  | [] => ([], false)
  | .audioChunk pcm :: rest =>
    match frombuffer pcm with
    | none => ([], false)
    | some samples =>
      let resampled := (r.process samples).2
      if resampled = [] then pump client written (r.process samples).1 rest
      else
        let payload := rt.float32ToS16leBytes resampled
        if audioChunkLength payload > maxFrameBytes then ([], false)
        else if client.drainRaises (written + 1) then ([.audioChunk payload], false)
        else
          let pumped := pump client (written + 1) (r.process samples).1 rest
          (.audioChunk payload :: pumped.1, pumped.2)
  | .audioEnd :: _ =>
    if r.flush = [] then ([], true)
    else
      let payload := rt.float32ToS16leBytes r.flush
      if audioChunkLength payload > maxFrameBytes then ([], true) else ([.audioChunk payload], true)
  | .error _ :: _ => ([], false)
  | _ :: rest => pump client written r rest

/-- `handle_speechd_connection`: the frames that it writes before it closes the connection, and
whether `synthesize` has read `audio_end`. -/
def handleSpeechdConnection (conn : Connection) : List Response × Bool :=
  match obtainProcess rt conn with
  | .error frames => (frames, false)
  | .ok proc =>
    match Resampler.new rt proc.sampleRate wireSampleRate with
    | none => ([.synthesizeHeader wireSampleRate], false)
    | some r =>
      let pumped :=
        match synthesizeStart conn.frames with
        | none => ([], false)
        | some frames => pump rt conn.client 1 r frames
      (.synthesizeHeader wireSampleRate :: pumped.1 ++ [.audioEnd], pumped.2)

def Connection.received (conn : Connection) : List Response :=
  conn.client.received (handleSpeechdConnection rt conn).1

end

end Daemon

import NeuralTts.Daemon.Voices

/-! The messages of `proto/neural_tts.proto` and the framing limit of `protocol.py`. -/

namespace Daemon

abbrev Bytes := List UInt8

structure SynthesizeRequest where
  voice : String
  /-- The bits of the message's float. -/
  speed : BitVec 32
  lang : String
  text : String
deriving DecidableEq

/-- `Request`, by the field of its `op` that is set. -/
inductive Request
  | warmup
  | synthesize (synth : SynthesizeRequest)
  | listVoices
  | shutdown
  | registerClonedVoice (id displayName language : String) (referenceAudioWav : Bytes)
  | removeClonedVoice (id : String)
  | unset
deriving DecidableEq

/-- `Response`, by the field of its `body` that is set. -/
inductive Response
  | error (message : String)
  | warmup (sampleRate : Int) (voices : List PbVoice)
  | synthesizeHeader (sampleRate : Int)
  | audioChunk (pcm : Bytes)
  | audioEnd
  | listVoices (voices : List PbVoice)
  | shutdown
  | registerClonedVoice (voice : PbVoice)
  | removeClonedVoice
  | unset
deriving DecidableEq

def maxFrameBytes : Nat := 16 * 1024 * 1024

/-- Bytes of a protobuf varint. -/
def varintLength (n : Nat) : Nat := n.log2 / 7 + 1

/-- Bytes of a length-delimited field with a one-byte tag. -/
def fieldLength (payload : Nat) : Nat := 1 + varintLength payload + payload

/-- A bytes or string field; an empty one is not written. -/
def contentLength (payload : Nat) : Nat := if payload = 0 then 0 else fieldLength payload

def audioChunkLength (pcm : Bytes) : Nat := fieldLength (contentLength pcm.length)

/-- Bytes of a serialized `Request` that asks for synthesis. -/
def synthesizeLength (r : SynthesizeRequest) : Nat :=
  fieldLength (contentLength r.voice.utf8ByteSize + (if r.speed = 0 then 0 else 5) +
    contentLength r.lang.utf8ByteSize + contentLength r.text.utf8ByteSize)

def errorLength (message : String) : Nat := fieldLength (contentLength message.utf8ByteSize)

end Daemon

import NeuralTts.Daemon.Framing

/-! The framing as the bundled providers have it: `_read_request` and `_write` of their
`__main__.py`. -/

namespace Provider

open Daemon

variable {μ : Type}

/-- What leaves `_read_request`: a `_ProtocolError`, or the `IncompleteReadError` of a body that is
cut short, which it does not catch. -/
inductive ReadError
  | protocol (message : String)
  | incompleteRead (e : IncompleteReadError)
deriving DecidableEq

def readRequestErrors : FrameErrors ReadError where
  beforeFrame _ := .protocol "eof before frame"
  badLength length := .protocol s!"bad frame length: {length}"
  midFrame e := .incompleteRead e
  decode e := .protocol s!"protobuf decode: {e}"

def readRequest (c : Codec μ) : Bytes → Except ReadError μ × Bytes :=
  readFrame c readRequestErrors

def write (c : Codec μ) : Bytes → μ → Except ReadError Bytes :=
  writeFrame c fun length => .protocol s!"frame too large: {length}"

/-- Frames as `_write` writes them and `_read_request` reads them. -/
def requestFraming (c : Codec μ) : Library.Framing ReadError μ UInt8 where
  frame := c.frame
  read := readRequest c

/-- Whichever end wrote the messages, and wherever the stream is cut, either reader returns
exactly those whose frames lie wholly before the cut, and then fails for good. -/
theorem framed_messages_survive_cut (c : Codec μ) (msgs : List μ)
    (faithful : ∀ msg ∈ msgs, c.Faithful msg) (set : ∀ msg ∈ msgs, c.oneofSet msg = true)
    (wire : Bytes)
    (written : msgs.foldlM (writeMessage c) [] = .ok wire ∨ msgs.foldlM (write c) [] = .ok wire)
    (cut : Nat) :
    wire = (messageFraming c).wire msgs ∧ ∃ n, (messageFraming c).FramesWithin msgs cut n ∧
      (messageFraming c).Delivers readMessageErrors.AtEnd msgs n (wire.take cut) ∧
      (requestFraming c).Delivers readRequestErrors.AtEnd msgs n (wire.take cut) := by
  have accepted : (∀ msg ∈ msgs, c.Framed msg) ∧ wire = msgs.flatMap c.frame := by
    rcases written with written | written
    · exact writeFrame_all faithful set written
    · exact writeFrame_all faithful set written
  obtain ⟨framed, rfl⟩ := accepted
  obtain ⟨n, within, daemon⟩ :=
    (framing_lawful c readMessageErrors).delivers_take msgs framed cut
  obtain ⟨n', within', provider⟩ :=
    (framing_lawful c readRequestErrors).delivers_take msgs framed cut
  have same : n' = n := within'.unique within rfl
  subst same
  exact ⟨rfl, n', within, daemon, provider⟩

def sampleCodec : Codec Response where
  serializeToString
    | .audioEnd => [0x2a, 0x00]
    | .synthesizeHeader 24000 => [0x1a, 0x04, 0x08, 0xc0, 0xbb, 0x01]
    | _ => []
  parseFromString raw :=
    if raw = [0x2a, 0x00] then .ok .audioEnd
    else if raw = [0x1a, 0x04, 0x08, 0xc0, 0xbb, 0x01] then .ok (.synthesizeHeader 24000)
    else .error "Error parsing message"
  oneofSet msg := decide (msg ≠ .unset)

def sampleWire : Bytes :=
  [0, 0, 0, 6, 0x1a, 0x04, 0x08, 0xc0, 0xbb, 0x01, 0, 0, 0, 2, 0x2a, 0x00]

theorem sampleCodec_faithful :
    ∀ msg ∈ [.synthesizeHeader 24000, .audioEnd], sampleCodec.Faithful msg := by
  intro msg member
  rcases List.mem_cons.mp member with rfl | member
  · exact ⟨rfl, by decide⟩
  · obtain rfl := List.mem_singleton.mp member
    exact ⟨rfl, by decide⟩

theorem framed_header_survives_cut :
    sampleWire = (messageFraming sampleCodec).wire [.synthesizeHeader 24000, .audioEnd] ∧
      ∃ n, (messageFraming sampleCodec).FramesWithin [.synthesizeHeader 24000, .audioEnd] 12 n ∧
        (messageFraming sampleCodec).Delivers readMessageErrors.AtEnd
          [.synthesizeHeader 24000, .audioEnd] n (sampleWire.take 12) ∧
        (requestFraming sampleCodec).Delivers readRequestErrors.AtEnd
          [.synthesizeHeader 24000, .audioEnd] n (sampleWire.take 12) :=
  framed_messages_survive_cut sampleCodec [.synthesizeHeader 24000, .audioEnd]
    sampleCodec_faithful (by decide) sampleWire (.inl rfl) 12

end Provider

import NeuralTts.Library.Framing
import NeuralTts.Daemon.Protocol

/-! The framing of `protocol.py`: a message is its length in four bytes, most significant first,
and then its bytes. -/

namespace Daemon

/-- `asyncio.IncompleteReadError`: how many bytes there were, and how many were wanted. -/
structure IncompleteReadError where
  available : Nat
  expected : Nat
deriving DecidableEq

/-- `StreamReader.readexactly` on the bytes that are left before the end of the stream. When they
are too few they are all consumed. -/
def readexactly (reader : Bytes) (n : Nat) : Except IncompleteReadError Bytes × Bytes :=
  if n ≤ reader.length then (.ok (reader.take n), reader.drop n)
  else (.error ⟨reader.length, n⟩, [])

def packLength (n : Nat) : Bytes :=
  [UInt8.ofNat (n / 256 ^ 3), UInt8.ofNat (n / 256 ^ 2), UInt8.ofNat (n / 256), UInt8.ofNat n]

def unpackLength (raw : Bytes) : Nat := raw.foldl (fun n byte => 256 * n + byte.toNat) 0

/-- What the generated protobuf code does for a message class. -/
structure Codec (μ : Type) where
  serializeToString : μ → Bytes
  parseFromString : Bytes → Except String μ
  /-- `WhichOneof` is not `None`. -/
  oneofSet : μ → Bool

/-- Parsing undoes serializing, and a message with its oneof set has bytes. -/
structure Codec.Faithful {μ : Type} (c : Codec μ) (msg : μ) : Prop where
  inverse : c.parseFromString (c.serializeToString msg) = .ok msg
  nonempty : c.oneofSet msg = true → c.serializeToString msg ≠ []

/-- What a reader of frames raises at each place where it can fail. -/
structure FrameErrors (ε : Type) where
  beforeFrame : IncompleteReadError → ε
  badLength : Nat → ε
  midFrame : IncompleteReadError → ε
  decode : String → ε

variable {μ ε : Type}

def readFrame (c : Codec μ) (errors : FrameErrors ε) (reader : Bytes) : Except ε μ × Bytes :=
  match readexactly reader 4 with
  | (.error e, rest) => (.error (errors.beforeFrame e), rest)
  | (.ok head, rest) =>
    let length := unpackLength head
    if length = 0 ∨ length > maxFrameBytes then (.error (errors.badLength length), rest)
    else
      match readexactly rest length with
      | (.error e, rest) => (.error (errors.midFrame e), rest)
      | (.ok raw, rest) => ((c.parseFromString raw).mapError errors.decode, rest)

def writeFrame (c : Codec μ) (tooLarge : Nat → ε) (writer : Bytes) (msg : μ) : Except ε Bytes :=
  let raw := c.serializeToString msg
  if raw.length > maxFrameBytes then .error (tooLarge raw.length)
  else .ok (writer ++ packLength raw.length ++ raw)

structure ProtocolError where
  message : String
deriving DecidableEq

def readMessageErrors : FrameErrors ProtocolError where
  beforeFrame _ := ⟨"connection closed before frame"⟩
  badLength length := ⟨s!"bad frame length: {length}"⟩
  midFrame _ := ⟨"connection closed mid-frame"⟩
  decode e := ⟨s!"protobuf decode failed: {e}"⟩

def readMessage (c : Codec μ) : Bytes → Except ProtocolError μ × Bytes :=
  readFrame c readMessageErrors

def writeMessage (c : Codec μ) : Bytes → μ → Except ProtocolError Bytes :=
  writeFrame c fun length => ⟨s!"frame too large to send: {length} > {maxFrameBytes}"⟩

def Codec.frame (c : Codec μ) (msg : μ) : Bytes :=
  packLength (c.serializeToString msg).length ++ c.serializeToString msg

def framing (c : Codec μ) (errors : FrameErrors ε) : Library.Framing ε μ UInt8 where
  frame := c.frame
  read := readFrame c errors

/-- Frames as `write_message` writes them and `read_message` reads them. -/
def messageFraming (c : Codec μ) : Library.Framing ProtocolError μ UInt8 where
  frame := c.frame
  read := readMessage c

@[simp] theorem length_packLength (n : Nat) : (packLength n).length = 4 := rfl

theorem length_frame (c : Codec μ) (msg : μ) :
    (c.frame msg).length = 4 + (c.serializeToString msg).length := by
  simp [Codec.frame]

theorem unpackLength_packLength (n : Nat) (small : n < 256 ^ 4) :
    unpackLength (packLength n) = n := by
  simp only [unpackLength, packLength, List.foldl_cons, List.foldl_nil, UInt8.toNat_ofNat']
  omega

theorem readexactly_append (front rest : Bytes) :
    readexactly (front ++ rest) front.length = (.ok front, rest) := by
  simp [readexactly]

theorem readexactly_short {reader : Bytes} {n : Nat} (short : reader.length < n) :
    readexactly reader n = (.error ⟨reader.length, n⟩, []) := by
  rw [readexactly, if_neg (by omega)]

theorem writeFrame_ok {c : Codec μ} {tooLarge : Nat → ε} {writer wire : Bytes} {msg : μ}
    (written : writeFrame c tooLarge writer msg = .ok wire) :
    (c.serializeToString msg).length ≤ maxFrameBytes ∧ wire = writer ++ c.frame msg := by
  simp only [writeFrame] at written
  split at written
  · cases written
  · rename_i fits
    refine ⟨by omega, ?_⟩
    rw [Codec.frame, ← List.append_assoc]
    exact (Except.ok.inj written).symm

/-- A message that can cross the framing: its bytes are not none and fit, and parse back. -/
structure Codec.Framed (c : Codec μ) (msg : μ) : Prop where
  inverse : c.parseFromString (c.serializeToString msg) = .ok msg
  positive : 0 < (c.serializeToString msg).length
  fits : (c.serializeToString msg).length ≤ maxFrameBytes

theorem writeFrame_all {c : Codec μ} {tooLarge : Nat → ε} {msgs : List μ}
    (faithful : ∀ msg ∈ msgs, c.Faithful msg) (set : ∀ msg ∈ msgs, c.oneofSet msg = true)
    {writer wire : Bytes} (written : msgs.foldlM (writeFrame c tooLarge) writer = .ok wire) :
    (∀ msg ∈ msgs, c.Framed msg) ∧ wire = writer ++ msgs.flatMap c.frame := by
  induction msgs generalizing writer with
  | nil =>
    refine ⟨by simp, ?_⟩
    simpa using (Except.ok.inj written).symm
  | cons msg rest ih =>
    rw [List.foldlM_cons] at written
    cases first : writeFrame c tooLarge writer msg with
    | error e => rw [first] at written; cases written
    | ok next =>
      rw [first] at written
      obtain ⟨fits, rfl⟩ := writeFrame_ok first
      obtain ⟨framed, bytes⟩ := ih (fun m member => faithful m (List.mem_cons_of_mem msg member))
        (fun m member => set m (List.mem_cons_of_mem msg member)) written
      have own := faithful msg (by simp)
      refine ⟨?_, ?_⟩
      · intro m member
        rcases List.mem_cons.mp member with rfl | member
        · exact ⟨own.inverse, List.length_pos_iff.mpr (own.nonempty (set m (by simp))), fits⟩
        · exact framed m member
      · rw [bytes, List.flatMap_cons, List.append_assoc]

def FrameErrors.AtEnd (errors : FrameErrors ε) (e : ε) : Prop :=
  ∃ i, e = errors.beforeFrame i ∨ e = errors.midFrame i

theorem readFrame_short (c : Codec μ) (errors : FrameErrors ε) {reader : Bytes}
    (short : reader.length < 4) :
    readFrame c errors reader = (.error (errors.beforeFrame ⟨reader.length, 4⟩), []) := by
  rw [readFrame, readexactly_short short]

theorem readFrame_body {c : Codec μ} (errors : FrameErrors ε) {msg : μ} (framed : c.Framed msg)
    (reader : Bytes) :
    readFrame c errors (packLength (c.serializeToString msg).length ++ reader) =
      match readexactly reader (c.serializeToString msg).length with
      | (.error e, rest) => (.error (errors.midFrame e), rest)
      | (.ok raw, rest) => ((c.parseFromString raw).mapError errors.decode, rest) := by
  have positive := framed.positive
  have fits := framed.fits
  have small : (c.serializeToString msg).length < 256 ^ 4 := by
    unfold maxFrameBytes at fits
    omega
  have head := readexactly_append (packLength (c.serializeToString msg).length) reader
  rw [length_packLength] at head
  simp only [readFrame, head, unpackLength_packLength _ small]
  rw [if_neg (by omega)]

theorem framing_lawful (c : Codec μ) (errors : FrameErrors ε) :
    (framing c errors).Lawful c.Framed errors.AtEnd where
  whole := by
    intro msg rest framed
    show readFrame c errors (c.frame msg ++ rest) = _
    rw [Codec.frame, List.append_assoc, readFrame_body errors framed, readexactly_append]
    simp only [framed.inverse]
    rfl
  broken := by
    intro msg part framed isPart shorter
    show ∃ e, errors.AtEnd e ∧ readFrame c errors part = (.error e, [])
    change part <+: c.frame msg at isPart
    change part.length < (c.frame msg).length at shorter
    by_cases short : part.length < 4
    · exact ⟨_, ⟨_, .inl rfl⟩, readFrame_short c errors short⟩
    · obtain ⟨body, rfl⟩ : packLength (c.serializeToString msg).length <+: part :=
        List.prefix_of_prefix_length_le (List.prefix_append _ _) isPart
          (by rw [length_packLength]; omega)
      rw [length_frame, List.length_append, length_packLength] at shorter
      refine ⟨errors.midFrame ⟨body.length, (c.serializeToString msg).length⟩, ⟨_, .inr rfl⟩, ?_⟩
      rw [readFrame_body errors framed, readexactly_short (by omega)]
  ended := by
    have short : ([] : Bytes).length < 4 := by decide
    exact ⟨_, ⟨_, .inl rfl⟩, readFrame_short c errors short⟩

end Daemon

import NeuralTts.Daemon.Protocol

/-! What a provider writes in answer to a synthesize request: `_handle_synthesize`, with the
`except` of `_serve` around it, as the bundled providers share it. -/

namespace Provider

open Daemon

/-- What `provider.synthesize_stream` does: the chunks that it yields, as bytes, and then the
exception that it raises, if any, as the text of the error frame. -/
structure Synthesis where
  samples : List Bytes
  raised : Option String

def frameTooLarge (length : Nat) : String := s!"_ProtocolError: frame too large: {length}"

/-- The error frame of a failure; when that is itself too large, `_serve` reports this instead. -/
def errorFrame (message : String) : Response :=
  if errorLength message > maxFrameBytes then .error (frameTooLarge (errorLength message))
  else .error message

def streamBody (raised : Option String) : List Bytes → List Response
  | [] =>
    match raised with
    | none => [.audioEnd]
    | some message => [errorFrame message]
  | pcm :: rest =>
    if audioChunkLength pcm > maxFrameBytes then [errorFrame (frameTooLarge (audioChunkLength pcm))]
    else .audioChunk pcm :: streamBody raised rest

def handleSynthesize (sampleRate : Int) (s : Synthesis) : List Response :=
  .synthesizeHeader sampleRate :: streamBody s.raised s.samples

/-- Synthesis raises nothing, and each of its chunks fits a frame. -/
def Synthesis.Completes (s : Synthesis) : Prop :=
  s.raised = none ∧ ∀ pcm ∈ s.samples, audioChunkLength pcm ≤ maxFrameBytes

instance (s : Synthesis) : Decidable s.Completes := inferInstanceAs (Decidable (_ ∧ _))

theorem errorFrame_ne_audioEnd (message : String) : errorFrame message ≠ .audioEnd := by
  unfold errorFrame
  split <;> nofun

theorem audioEnd_mem_streamBody (s : Synthesis) :
    .audioEnd ∈ streamBody s.raised s.samples ↔ s.Completes := by
  obtain ⟨samples, raised⟩ := s
  unfold Synthesis.Completes
  induction samples with
  | nil =>
    cases raised with
    | none => simp [streamBody]
    | some message => simp [streamBody, (errorFrame_ne_audioEnd message).symm]
  | cons pcm rest ih =>
    simp only [streamBody]
    split
    · rename_i large
      have ends := (errorFrame_ne_audioEnd (frameTooLarge (audioChunkLength pcm))).symm
      simp only [List.mem_singleton, ends, false_iff, not_and]
      intro _ fits
      have small := fits pcm List.mem_cons_self
      omega
    · rename_i small
      simp only [List.mem_cons, reduceCtorEq, false_or, ih]
      have fits : audioChunkLength pcm ≤ maxFrameBytes := by omega
      simp [fits]

theorem audioEnd_last_body (raised : Option String) (samples : List Bytes)
    {before after : List Response} (split : streamBody raised samples = before ++ .audioEnd :: after) :
    after = [] := by
  induction samples generalizing before with
  | nil =>
    have single : ∃ frame, streamBody raised [] = [frame] := by
      cases raised with
      | none => exact ⟨_, rfl⟩
      | some message => exact ⟨_, rfl⟩
    obtain ⟨frame, body⟩ := single
    have count := congrArg List.length (body.symm.trans split)
    simp at count
    exact List.eq_nil_of_length_eq_zero (by omega)
  | cons pcm rest ih =>
    simp only [streamBody] at split
    split at split
    · have count := congrArg List.length split
      simp at count
      exact List.eq_nil_of_length_eq_zero (by omega)
    · cases before with
      | nil => cases split
      | cons first more => exact ih (List.cons.inj split).2

theorem audioEnd_last {rate : Int} {s : Synthesis} {before after : List Response}
    (split : handleSynthesize rate s = before ++ .audioEnd :: after) : after = [] := by
  cases before with
  | nil => cases split
  | cons first more => exact audioEnd_last_body s.raised s.samples (List.cons.inj split).2

theorem audioEnd_mem_handleSynthesize (rate : Int) (s : Synthesis) :
    .audioEnd ∈ handleSynthesize rate s ↔ s.Completes := by
  rw [← audioEnd_mem_streamBody s]
  simp [handleSynthesize]

theorem streamBody_shape (raised : Option String) (samples : List Bytes) :
    ∃ (chunks : List Bytes) (last : Response), streamBody raised samples = chunks.map .audioChunk ++ [last] ∧
      (last = .audioEnd ∨ ∃ message, last = .error message) := by
  have failed (message : String) : ∃ text, errorFrame message = .error text := by
    unfold errorFrame
    split <;> exact ⟨_, rfl⟩
  induction samples with
  | nil =>
    cases raised with
    | none => exact ⟨[], .audioEnd, rfl, .inl rfl⟩
    | some message => exact ⟨[], errorFrame message, rfl, .inr (failed message)⟩
  | cons pcm rest ih =>
    rw [streamBody]
    split
    · exact ⟨[], _, rfl, .inr (failed _)⟩
    · obtain ⟨chunks, last, same, terminates⟩ := ih
      exact ⟨pcm :: chunks, last, by rw [same]; rfl, terminates⟩

theorem mem_streamBody {raised : Option String} {samples : List Bytes} {frame : Response}
    (member : frame ∈ streamBody raised samples) :
    frame = .audioEnd ∨ (∃ pcm, frame = .audioChunk pcm ∧ audioChunkLength pcm ≤ maxFrameBytes) ∨
      (∃ message ∈ raised, frame = errorFrame message) ∨
      ∃ pcm ∈ samples, frame = errorFrame (frameTooLarge (audioChunkLength pcm)) := by
  induction samples with
  | nil =>
    cases raised with
    | none => exact .inl (List.mem_singleton.mp member)
    | some message => exact .inr (.inr (.inl ⟨message, rfl, List.mem_singleton.mp member⟩))
  | cons pcm rest ih =>
    rw [streamBody] at member
    split at member
    · exact .inr (.inr (.inr ⟨pcm, List.mem_cons_self, List.mem_singleton.mp member⟩))
    · rename_i fits
      rcases List.mem_cons.mp member with rfl | later
      · exact .inr (.inl ⟨pcm, rfl, Nat.not_lt.mp fits⟩)
      · rcases ih later with ended | sent | failed | ⟨large, there, same⟩
        · exact .inl ended
        · exact .inr (.inl sent)
        · exact .inr (.inr (.inl failed))
        · exact .inr (.inr (.inr ⟨large, List.mem_cons_of_mem _ there, same⟩))

theorem fieldLength_le (payload : Nat) : fieldLength payload ≤ 2 * payload + 2 := by
  have small := Nat.log2_le_self payload
  have quotient := Nat.div_le_self payload.log2 7
  unfold fieldLength varintLength
  omega

theorem utf8ByteSize_ofList_le (text : List Char) : (String.ofList text).utf8ByteSize ≤ 4 * text.length := by
  induction text with
  | nil => simp
  | cons c rest ih =>
    have first : String.ofList (c :: rest) = String.singleton c ++ String.ofList rest := by simp
    have width := c.utf8Size_le_four
    rw [first, String.utf8ByteSize_append, String.utf8ByteSize_singleton, List.length_cons]
    omega

theorem errorLength_frameTooLarge {length : Nat} (finite : length < 10 ^ 20) :
    errorLength (frameTooLarge length) ≤ maxFrameBytes := by
  have text : frameTooLarge length = "_ProtocolError: frame too large: " ++ length.repr := rfl
  have words : "_ProtocolError: frame too large: ".utf8ByteSize ≤ 100 := by decide
  have digits : (Nat.toDigits 10 length).length ≤ 20 :=
    (Nat.length_toDigits_le_iff (by decide) (by decide)).mpr finite
  have number := utf8ByteSize_ofList_le (Nat.toDigits 10 length)
  have message : (frameTooLarge length).utf8ByteSize ≤ 180 := by
    rw [text, String.utf8ByteSize_append, Nat.repr_eq_ofList_toDigits]
    omega
  have content : contentLength (frameTooLarge length).utf8ByteSize ≤ 362 := by
    unfold contentLength
    split
    · omega
    · have field := fieldLength_le (frameTooLarge length).utf8ByteSize
      omega
  have field := fieldLength_le (contentLength (frameTooLarge length).utf8ByteSize)
  unfold errorLength maxFrameBytes
  omega

theorem errorFrame_fits {message : String} (finite : errorLength message < 10 ^ 20) :
    ∃ text, errorFrame message = .error text ∧ errorLength text ≤ maxFrameBytes := by
  unfold errorFrame
  split
  · exact ⟨_, rfl, errorLength_frameTooLarge finite⟩
  · rename_i small
    exact ⟨message, rfl, Nat.not_lt.mp small⟩

end Provider

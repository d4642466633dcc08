import NeuralTts.Daemon.Resample
import NeuralTts.Library.Handoff
import NeuralTts.Provider.Chunker
import NeuralTts.Provider.HandleSynthesize

/-! How the providers make a stream of audio of a text (`synthesize_stream`): in threads that hand over what
their models decode, or with one call of a model for each chunk. -/

namespace Provider

open Daemon Library PyText Handoff

def tobytes (samples : List Sample) : Bytes :=
  samples.flatMap fun x =>
    [⟨x.extractLsb' 0 8⟩, ⟨x.extractLsb' 8 8⟩, ⟨x.extractLsb' 16 8⟩, ⟨x.extractLsb' 24 8⟩]

/-- The work of the pieces that `synthesize_stream` goes through, or what it raises before the first. -/
abbrev Plan := Except String (List (Work (List Sample) String))

/-- `if pcm.size: yield pcm` -/
def heard (arrays : List (List Sample)) : List Bytes := (arrays.filter (· ≠ [])).map tobytes

def raisedBy : Ending String → Option String
  | .raised e => some e
  | _ => none

def synthesis : Plan → Synthesis
  | .error raised => ⟨[], some raised⟩
  | .ok works => ⟨heard (outcome works).1, raisedBy (outcome works).2⟩

structure Backstage where
  load : Except String Unit
  voices : List String
  repr : String → String

/-- `unknown voice {voice!r}; available: {sorted(self._voices) or none}` -/
def Backstage.unknownVoice (none : String) (b : Backstage) (voice : String) : String :=
  "RuntimeError: unknown voice " ++ b.repr voice ++ "; available: " ++
    if b.voices = [] then none else "[" ++ ", ".intercalate (b.voices.map b.repr) ++ "]"

def Backstage.admit (none : String) (b : Backstage) (voice : String) : Except String Unit := do
  b.load
  if voice ∈ b.voices then pure () else throw (b.unknownVoice none voice)

structure PocketTts (State : Type) extends Backstage where
  getVoiceState : String → Except String State
  generateAudioStream : State → Text → Work (List Sample) String

def PocketTts.synthesizeStream {State : Type} (p : PocketTts State) (voice : String) (text : Text) : Plan := do
  p.admit "NONE" voice
  let text := strip text
  if text = [] then pure []
  else
    let state ← p.getVoiceState voice
    pure [p.generateAudioStream state text]

structure MossTts (Codes : Type) extends Backstage where
  prepareSynthesisText : Text → Except String Text
  splitVoiceCloneText : Text → Except String (List Text)
  getPromptCodes : String → Except String Codes
  runStreamingChunk : Codes → Text → Work (List Sample) String

def MossTts.synthesizeStream {Codes : Type} (p : MossTts Codes) (voice : String) (text : Text) : Plan := do
  p.admit "NONE — drop clips into the voices/moss-tts-nano dir" voice
  let prepared ← p.prepareSynthesisText text
  if prepared = [] then pure []
  else
    let chunks ← p.splitVoiceCloneText prepared
    if chunks = [] then pure []
    else
      let codes ← p.getPromptCodes voice
      pure (chunks.map (p.runStreamingChunk codes))

structure QwenTts extends Backstage where
  runStreaming : Text → Work (List Sample) String

/-- Without the chunker. -/
def QwenTts.synthesizeStream (p : QwenTts) (voice : String) (text : Text) : Plan := do
  p.admit "NONE — drop clips into the voices/qwen3-tts dir" voice
  pure [p.runStreaming text]

inductive Threaded
  | pocketTts {State : Type} (p : PocketTts State)
  | mossTtsNano {Codes : Type} (p : MossTts Codes)
  | qwen3Tts (p : QwenTts)

namespace Threaded

/-- Whether the thread is told when its audio is not wanted any more. -/
def cancels : Threaded → Bool
  | qwen3Tts _ => true
  | _ => false

end Threaded

/-- A provider that makes one call for each chunk: omnivoice, or longcat-audiodit. -/
structure OneShot extends Backstage where
  noVoices : String
  segment : String → Text → List Text
  /-- What comes of a call that so many others come before. -/
  synthOne : Nat → String → Text → Except String (List Sample)

def workOf : Except String (List Sample) → Work (List Sample) String
  | .ok samples => ⟨[samples], none⟩
  | .error e => ⟨[], some e⟩

/-- `chunks` is what the chunker makes of the text. -/
def OneShot.synthesizeStream (p : OneShot) (voice : String) (chunks : List Text) : Plan := do
  p.admit p.noVoices voice
  pure (chunks.mapIdx fun call c => workOf (p.synthOne call voice c))

def OneShot.sent (p : OneShot) (voice : String) (call : Nat) (c : Text) : Except String (List Sample) :=
  match p.synthOne call voice c with
  | .error e => .error e
  | .ok samples =>
    if audioChunkLength (tobytes samples) > maxFrameBytes then .error (frameTooLarge (audioChunkLength (tobytes samples)))
    else .ok samples

/-- The frames for chunks one after another: up to the first that fails, or all of them. -/
inductive OneShot.Speaks (p : OneShot) (voice : String) : List Text → List Response → Prop
  | all (chunks : List Text) (outs : List (List Sample)) (said : chunks.mapIdx (p.sent voice) = outs.map .ok) :
    Speaks p voice chunks ((heard outs).map .audioChunk ++ [.audioEnd])
  | cut (spoken : List Text) (c : Text) (rest : List Text) (outs : List (List Sample)) (e : String)
    (said : spoken.mapIdx (p.sent voice) = outs.map .ok) (failed : p.sent voice spoken.length c = .error e) :
    Speaks p voice (spoken ++ c :: rest) ((heard outs).map .audioChunk ++ [errorFrame e])

def OneShot.frames (p : OneShot) (rate : Int) (voice : String) (chunks : List Text) : List Response :=
  handleSynthesize rate (synthesis (p.synthesizeStream voice chunks))

section

variable {p : OneShot} {voice : String} {chunks : List Text} {outs : List (List Sample)} {samples : List Sample}
  {raised : Option String} {frames : List Response}

theorem heard_cons (samples : List Sample) (outs : List (List Sample)) :
    heard (samples :: outs) = if samples = [] then heard outs else tobytes samples :: heard outs := by
  by_cases silent : samples = []
  · rw [if_pos silent, silent]
    rfl
  · rw [if_neg silent, heard, List.filter_cons_of_pos (by simpa using silent)]
    rfl

def OneShot.later (p : OneShot) : OneShot := { p with synthOne := fun call => p.synthOne (call + 1) }

theorem OneShot.Speaks.cons {c : Text} (sent : p.sent voice 0 c = .ok samples) (speaks : p.later.Speaks voice chunks frames) :
    p.Speaks voice (c :: chunks) ((heard [samples]).map .audioChunk ++ frames) := by
  have joined (outs : List (List Sample)) : heard [samples] ++ heard outs = heard (samples :: outs) := by
    rw [heard_cons, heard_cons]
    split <;> rfl
  cases speaks with
  | all _ outs said =>
    rw [← List.append_assoc, ← List.map_append, joined]
    refine .all (c :: chunks) (samples :: outs) ?_
    rw [List.mapIdx_cons, sent, List.map_cons, ← said]
    rfl
  | cut spoken failing rest outs e said failed =>
    rw [← List.append_assoc, ← List.map_append, joined]
    refine .cut (c :: spoken) failing rest (samples :: outs) e ?_ failed
    rw [List.mapIdx_cons, sent, List.map_cons, ← said]
    rfl

theorem outcome_cons (w : Work (List Sample) String) (rest : List (Work (List Sample) String)) (fine : w.raises = none) :
    outcome (w :: rest) = (w.emits ++ (outcome rest).1, (outcome rest).2) := by
  rw [outcome, fine]

/-- The induction is on the chunks: a chunk that is sent comes before the frames for the others. -/
theorem speaks_chunks (p : OneShot) (voice : String) (chunks : List Text) : p.Speaks voice chunks
    (streamBody (raisedBy (outcome (chunks.mapIdx fun call c => workOf (p.synthOne call voice c))).2)
      (heard (outcome (chunks.mapIdx fun call c => workOf (p.synthOne call voice c))).1)) := by
  induction chunks generalizing p with
  | nil => exact .all [] [] rfl
  | cons c rest ih =>
    have others := ih p.later
    cases said : p.synthOne 0 voice c with
    | error e =>
      have failed : p.sent voice 0 c = .error e := by
        unfold OneShot.sent
        rw [said]
      rw [List.mapIdx_cons, said]
      exact .cut [] c rest [] e rfl failed
    | ok samples =>
      rw [List.mapIdx_cons, said, workOf, outcome_cons ⟨[samples], none⟩ _ rfl]
      dsimp only
      rw [List.singleton_append, heard_cons]
      by_cases large : audioChunkLength (tobytes samples) > maxFrameBytes
      · have failed : p.sent voice 0 c = .error (frameTooLarge (audioChunkLength (tobytes samples))) := by
          unfold OneShot.sent
          rw [said]
          exact if_pos large
        have some_sound : samples ≠ [] := by
          rintro rfl
          revert large
          decide
        rw [if_neg some_sound, streamBody, if_pos large]
        exact .cut [] c rest [] _ rfl failed
      · have sent : p.sent voice 0 c = .ok samples := by
          unfold OneShot.sent
          rw [said]
          exact if_neg large
        have speaks := OneShot.Speaks.cons sent others
        rw [heard_cons] at speaks
        by_cases silent : samples = []
        · rw [if_pos silent] at speaks ⊢
          exact speaks
        · rw [if_neg silent] at speaks ⊢
          rw [streamBody, if_neg large]
          exact speaks

theorem OneShot.Speaks.audioEnd_mem_iff (speaks : p.Speaks voice chunks frames) :
    .audioEnd ∈ frames ↔ ∀ call c, chunks[call]? = some c → ∃ samples, p.sent voice call c = .ok samples := by
  cases speaks with
  | all _ outs said =>
    refine iff_of_true (by simp) ?_
    intro call c here
    have sent : (outs.map Except.ok)[call]? = some (p.sent voice call c) := by
      rw [← said, List.getElem?_mapIdx, here, Option.map_some]
    rw [List.getElem?_map] at sent
    obtain ⟨samples, -, same⟩ := Option.map_eq_some_iff.mp sent
    exact ⟨samples, same.symm⟩
  | cut spoken c rest outs e said failed =>
    refine iff_of_false ?_ ?_
    · simp [(errorFrame_ne_audioEnd e).symm]
    · intro all
      obtain ⟨samples, sent⟩ := all spoken.length c (by simp)
      rw [failed] at sent
      cases sent

theorem frames_refused {refused : String} (admitted : p.admit p.noVoices voice = .error refused) (rate : Int)
    (chunks : List Text) : p.frames rate voice chunks = [.synthesizeHeader rate, errorFrame refused] := by
  unfold OneShot.frames OneShot.synthesizeStream
  rw [admitted]
  rfl

theorem frames_admitted (admitted : p.admit p.noVoices voice = .ok ()) (rate : Int) (chunks : List Text) :
    ∃ body, p.Speaks voice chunks body ∧ p.frames rate voice chunks = .synthesizeHeader rate :: body := by
  refine ⟨_, speaks_chunks p voice chunks, ?_⟩
  unfold OneShot.frames OneShot.synthesizeStream
  rw [admitted]
  rfl

/-- What a provider of one call for each chunk answers to a text: the chunks have all of it, the frames are the
audio of the chunks up to the first that fails, and `audio_end` is sent where the voice is there and none fails. -/
structure OneShot.Answers (p : OneShot) (rate : Int) (voice : String) (text : Text) (chunks : List Text) : Prop where
  made : ∀ fuel, (p.segment voice (strip text)).flatten.length < fuel →
    chunk targetChars hardCapChars fuel (p.segment voice) text = some chunks
  content : chunks.flatMap nonSpace = nonSpace text
  refused : ∀ refused, p.admit p.noVoices voice = .error refused →
    p.frames rate voice chunks = [.synthesizeHeader rate, errorFrame refused]
  spoken : p.admit p.noVoices voice = .ok () → ∃ body, p.Speaks voice chunks body ∧
    p.frames rate voice chunks = .synthesizeHeader rate :: body
  ended : .audioEnd ∈ p.frames rate voice chunks ↔ p.admit p.noVoices voice = .ok () ∧
    ∀ call c, chunks[call]? = some c → ∃ samples, p.sent voice call c = .ok samples

theorem oneShot_answers (p : OneShot) (rate : Int) (voice : String) (text : Text)
    (segments : Segments (strip text) (p.segment voice (strip text))) : ∃ chunks, p.Answers rate voice text chunks := by
  have positive : 0 < 400 := by decide
  obtain ⟨pieces, content, fine, ends⟩ := chunk_ends positive targetChars (p.segment voice) text segments.nonempty
  rw [segments.content, nonSpace_strip] at content
  have packed := pack_packed (by decide : targetChars ≤ ((400 : Nat) : Int)) content fine
  refine ⟨if strip text = [] then [] else (pack targetChars [] 0 pieces).map join, fun fuel enough => (ends fuel enough).2,
    ?_, fun refused admitted => frames_refused admitted rate _, fun admitted => frames_admitted admitted rate _, ?_⟩
  · split
    · rename_i empty
      rw [← nonSpace_strip, empty]
      rfl
    · exact packed.content
  · cases admitted : p.admit p.noVoices voice with
    | error refused =>
      rw [frames_refused admitted]
      simp [(errorFrame_ne_audioEnd refused).symm]
    | ok _ =>
      obtain ⟨body, speaks, frames⟩ := frames_admitted admitted rate _
      rw [frames, List.mem_cons, speaks.audioEnd_mem_iff]
      simp

def unsure : OneShot where
  load := .ok ()
  voices := ["ann"]
  repr id := id
  noVoices := "NONE"
  segment _ := regexSegment
  synthOne _ _ c := if '?' ∈ c then .error "RuntimeError: no" else .ok (c.map fun x => BitVec.ofNat 32 x.toNat)

theorem unsure_answers : ∃ chunks, unsure.Answers 24000 "ann" "One. Two?  Three\n".toList chunks :=
  oneShot_answers unsure 24000 "ann" "One. Two?  Three\n".toList (regexSegment_segments _)

end

end Provider

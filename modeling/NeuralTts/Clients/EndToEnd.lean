import NeuralTts.Clients.CmdSay
import NeuralTts.Clients.SplitSegments
import NeuralTts.Daemon.CompleteReply
import NeuralTts.Provider.Streams

/-! From a text to the samples in a WAV file: `neural-tts-say` over the daemon over a provider, when
nothing goes wrong on the way. -/

namespace Clients

open Daemon Library PyText
open Provider (tobytes)

/-- The synthesis that yields these arrays and raises nothing. -/
def synthesisOf (chunks : List (List Sample)) : Provider.Synthesis := ⟨chunks.map tobytes, none⟩

/-- The frames after the header of a provider that yields these arrays. -/
def spokenFrames (chunks : List (List Sample)) : List Response :=
  (chunks.map fun chunk => .audioChunk (tobytes chunk)) ++ [.audioEnd]

/-- What the resampler returns for each of these chunks, and for the flush after them. -/
def outputs {rt : Runtime} (r : Resampler rt) : List (List Sample) → List (List Sample)
  | [] => [r.flush]
  | chunk :: rest => (r.process chunk).2 :: outputs (r.process chunk).1 rest

/-- A reply of the daemon: the connection, the rate of the provider's process, and what it yields. -/
structure Rendition where
  conn : Connection
  rate : Int
  chunks : List (List Sample)

/-- The daemon passes the request for this text on to a provider that speaks it, and no frame on the
way is too large. -/
structure Speaks (rt : Runtime) (text : Text) (said : Rendition) : Prop where
  stays : said.conn.client.leaves = none
  asked : ∃ synth, said.conn.request = some (.synthesize synth) ∧ synth.text = String.ofList text
  admitted : ∃ proc, obtainProcess rt said.conn = .ok proc ∧ proc.sampleRate = said.rate
  spoken : ∃ sampleRate, said.conn.frames =
    some (Provider.handleSynthesize sampleRate (synthesisOf said.chunks))
  sends : ∀ chunk ∈ said.chunks, audioChunkLength (tobytes chunk) ≤ maxFrameBytes
  fits : ∃ r, Resampler.new rt said.rate wireSampleRate = some r ∧ ∀ out ∈ outputs r said.chunks, Fits rt out

/-- What `neural-tts-say` reads of this connection; the ending comes after `audio_end`. -/
def heard (rt : Runtime) (conn : Connection) : Exchange :=
  ⟨.ok (), conn.received rt, .osError "short read from daemon"⟩

def Rendition.pcm (rt : Runtime) (said : Rendition) : Bytes :=
  rt.float32ToS16leBytes (rt.resampled said.rate wireSampleRate said.chunks.flatten)

def opened (out : Target) (encoder : Encoder) (file : File UInt8) (pcm : Bytes) : Output :=
  ⟨out, true, encoder, some (.wav ⟨WavSink.streamed file wireRate pcm, wireRate, pcm.length, true⟩)⟩

section

variable {rt : Runtime} {text : Text} {said : Rendition} {r : Resampler rt} {chunks : List (List Sample)}

theorem sample_of_bytes (x : Sample) : x.extractLsb' 24 8 ++ x.extractLsb' 16 8 ++ x.extractLsb' 8 8 ++
    x.extractLsb' 0 8 = x := by
  have third : x.extractLsb' 24 8 ++ x.extractLsb' 16 8 = x.extractLsb' 16 16 :=
    BitVec.extractLsb'_append_extractLsb'_eq_extractLsb' rfl
  have second : x.extractLsb' 16 16 ++ x.extractLsb' 8 8 = x.extractLsb' 8 24 :=
    BitVec.extractLsb'_append_extractLsb'_eq_extractLsb' rfl
  have first : x.extractLsb' 8 24 ++ x.extractLsb' 0 8 = x.extractLsb' 0 32 :=
    BitVec.extractLsb'_append_extractLsb'_eq_extractLsb' rfl
  rw [third, second, first]
  exact BitVec.extractLsb'_eq_self

theorem frombuffer_tobytes (samples : List Sample) : frombuffer (tobytes samples) = some samples := by
  induction samples with
  | nil => rfl
  | cons x rest ih =>
    have bytes : tobytes (x :: rest) = ⟨x.extractLsb' 0 8⟩ :: ⟨x.extractLsb' 8 8⟩ :: ⟨x.extractLsb' 16 8⟩ ::
        ⟨x.extractLsb' 24 8⟩ :: tobytes rest := rfl
    rw [bytes, frombuffer, ih, Option.map_some, sample_of_bytes]

theorem streamBody_sends (sends : ∀ chunk ∈ chunks, audioChunkLength (tobytes chunk) ≤ maxFrameBytes) :
    Provider.streamBody none (chunks.map tobytes) = spokenFrames chunks := by
  induction chunks with
  | nil => rfl
  | cons chunk rest ih =>
    have small := sends chunk List.mem_cons_self
    rw [List.map_cons, Provider.streamBody, if_neg (Nat.not_lt.mpr small),
      ih fun later member => sends later (List.mem_cons_of_mem _ member)]
    rfl

theorem completes_spokenFrames (fits : ∀ out ∈ outputs r chunks, Fits rt out) :
    Completes rt r (spokenFrames chunks) := by
  induction chunks generalizing r with
  | nil => exact fits _ List.mem_cons_self
  | cons chunk rest ih =>
    have later := @ih (r.process chunk).1 fun out member => fits out (List.mem_cons_of_mem _ member)
    exact ⟨chunk, frombuffer_tobytes chunk, fits _ List.mem_cons_self, later⟩

theorem sentChunks_spokenFrames : sentChunks (spokenFrames chunks) = chunks.map tobytes := by
  induction chunks with
  | nil => rfl
  | cons chunk rest ih =>
    rw [List.map_cons, ← ih]
    rfl

theorem mapM_frombuffer : (chunks.map tobytes).mapM frombuffer = some chunks := by
  induction chunks with
  | nil => rfl
  | cons chunk rest ih =>
    rw [List.map_cons, List.mapM_cons, frombuffer_tobytes, ih]
    rfl

theorem pcmOf_chunks (payloads : List Bytes) : pcmOf (payloads.map .audioChunk ++ [.audioEnd]) = payloads.flatten := by
  induction payloads with
  | nil => rfl
  | cons pcm rest ih => rw [List.map_cons, List.cons_append, pcmOf_audioChunk, ih, List.flatten_cons]

/-- A client that stays reads the header, the rendering of its text in chunks, and the end. -/
theorem Speaks.received (speaks : Speaks rt text said) : ∃ payloads : List Bytes,
    said.conn.received rt = .synthesizeHeader wireSampleRate :: (payloads.map .audioChunk ++ [.audioEnd]) ∧
      payloads.flatten = said.pcm rt := by
  obtain ⟨proc, admitted, rated⟩ := speaks.admitted
  obtain ⟨sampleRate, frames⟩ := speaks.spoken
  obtain ⟨r, built, fits⟩ := speaks.fits
  rw [← rated] at built
  have started : synthesizeStart said.conn.frames = some (spokenFrames said.chunks) := by
    rw [frames, Provider.handleSynthesize, synthesisOf, streamBody_sends speaks.sends]
    rfl
  have handled : handleSpeechdConnection rt said.conn = (.synthesizeHeader wireSampleRate ::
      (pump rt said.conn.client 1 r (spokenFrames said.chunks)).1 ++ [.audioEnd],
      (pump rt said.conn.client 1 r (spokenFrames said.chunks)).2) := by
    simp only [handleSpeechdConnection, admitted, built, started]
  obtain ⟨payloads, written, -⟩ := @pump_eq_chunks rt said.conn.client 1 r (spokenFrames said.chunks)
  have reply : said.conn.received rt =
      .synthesizeHeader wireSampleRate :: (payloads.map .audioChunk ++ [.audioEnd]) := by
    rw [Connection.received, Client.received, speaks.stays, handled, written]
    rfl
  refine ⟨payloads, reply, ?_⟩
  have rendered := (rendered_iff speaks.stays admitted built).mpr ⟨_, started, completes_spokenFrames fits⟩
  obtain ⟨-, _, _, chunks, admitted', started', sent, pcm⟩ := rendered
  cases admitted.symm.trans admitted'
  cases started.symm.trans started'
  rw [sentChunks_spokenFrames, mapM_frombuffer] at sent
  cases sent
  have heard : pcmOf (said.conn.received rt) = payloads.flatten := by
    rw [reply]
    exact pcmOf_chunks payloads
  rw [← heard, pcm, rated]
  rfl

end

section

variable {rt : Runtime} {text : Text} {said : Rendition} {out : Target} {encoder : Encoder}
  {file : File UInt8} {pcm : Bytes} {o : Output}

theorem ensure_opened : (Output.ensure wireRate).run (opened out encoder file pcm) =
    .ok () (opened out encoder file pcm) := rfl

theorem ensure_new (opens : out.file = .ok file) (seekable : file.seekable = true) :
    (Output.ensure wireRate).run (Output.new out true encoder) = .ok () (opened out encoder file []) := by
  have fileobj : (raising out.file).run (Output.new out true encoder) = .ok file (Output.new out true encoder) := by
    rw [opens]
    rfl
  have made := WavSink.init_of_fits file wireRate (by decide)
  rw [Output.ensure, run_bind_ok (EStateM.run_get _)]
  simp only [Output.new, Option.isSome_none, Bool.false_eq_true, ↓reduceIte]
  rw [Output.new] at fileobj
  rw [run_bind_ok fileobj, made, WavSink.eq_of_init seekable made]
  rfl

theorem write_opened (more : Bytes) : (Output.write more).run (opened out encoder file pcm) =
    .ok () (opened out encoder file (pcm ++ more)) := by
  have written : (Output.write more).run (opened out encoder file pcm) = .ok () ⟨out, true, encoder, some (.wav
      ⟨(WavSink.streamed file wireRate pcm).write 0 more, wireRate, pcm.length + more.length, true⟩)⟩ := rfl
  rw [written, WavSink.write_streamed, ← List.length_append]
  rfl

theorem receive_opened (ending : Raised) (nbytes : Nat) (payloads : List Bytes) :
    (Output.receive ending nbytes (payloads.map .audioChunk ++ [.audioEnd])).run (opened out encoder file pcm) =
      .ok (nbytes + payloads.flatten.length) (opened out encoder file (pcm ++ payloads.flatten)) := by
  induction payloads generalizing nbytes pcm with
  | nil =>
    rw [List.flatten_nil, List.append_nil]
    rfl
  | cons payload rest ih =>
    rw [List.map_cons, List.cons_append, Output.receive, run_bind_ok (write_opened payload), ih, List.flatten_cons,
      List.length_append, Nat.add_assoc, List.append_assoc]

theorem synthSegment_heard (speaks : Speaks rt text said)
    (ensured : (Output.ensure wireRate).run o = .ok () (opened out encoder file pcm)) :
    ∃ n, (Output.synthSegment (heard rt said.conn)).run o =
      .ok n (opened out encoder file (pcm ++ said.pcm rt)) := by
  obtain ⟨payloads, reply, whole⟩ := speaks.received
  rw [heard, reply]
  have begins (ending : Raised) (rest : List Response) :
      (Output.synthSegment ⟨.ok (), .synthesizeHeader wireSampleRate :: rest, ending⟩).run o =
        (do
          Output.ensure wireRate
          Output.receive ending 0 rest).run o := rfl
  rw [begins, run_bind_ok ensured, receive_opened, whole]
  exact ⟨_, rfl⟩

theorem segments_heard {texts : List Text} {replies : List Rendition}
    (speaks : List.Forall₂ (Speaks rt) texts replies) (some_text : texts ≠ []) (total : Nat)
    (ensured : (Output.ensure wireRate).run o = .ok () (opened out encoder file pcm)) :
    ∃ n, (Output.segments total (replies.map fun said => heard rt said.conn)).run o =
      .ok n (opened out encoder file (pcm ++ replies.flatMap (Rendition.pcm rt))) := by
  induction speaks generalizing o pcm total with
  | nil => exact absurd rfl some_text
  | @cons text said texts replies first rest ih =>
    obtain ⟨nbytes, ran⟩ := synthSegment_heard first ensured
    have counted : (do let nbytes ← Output.synthSegment (heard rt said.conn); pure (total + nbytes)).run o =
        .ok (total + nbytes) (opened out encoder file (pcm ++ said.pcm rt)) := by
      rw [run_bind_ok ran]
      rfl
    rw [List.map_cons, Output.segments, List.foldlM_cons, run_bind_ok counted, List.flatMap_cons, ← List.append_assoc]
    by_cases last : texts = []
    · subst last
      cases rest
      exact ⟨_, by rw [List.flatMap_nil, List.append_nil]; rfl⟩
    · exact ih last (total + nbytes) ensure_opened

theorem close_opened (fits : 36 + pcm.length < 2 ^ 32) : Output.close.run (opened out encoder file pcm) =
    .ok () ⟨out, true, encoder, some (.wav
      ⟨WavSink.patched (WavSink.streamed file wireRate pcm) pcm.length, wireRate, pcm.length, true⟩)⟩ := by
  rw [Output.close, run_bind_ok (EStateM.run_get _)]
  exact Output.onWav_run_of_ok (WavSink.close_run_of_fits rfl fits)

theorem cmdSay_run {exchanges : List Exchange} {n : Nat} {s t : Output}
    (ran : (Output.segments 0 exchanges).run o = .ok n s) (closed : Output.close.run s = .ok () t) :
    (Output.cmdSay exchanges).run o = .ok 0 t := by
  have finished : (do let _ ← Output.segments 0 exchanges; Output.close; pure 0 : EStateM Raised Output Int).run o =
      .ok 0 t := by
    rw [run_bind_ok ran, run_bind_ok closed]
    rfl
  exact run_tryCatch_ok finished

/-- What `split_segments` comes to, as far as its caller can tell. -/
theorem splitSegments_content {maxChars : Int} (positive : 0 < maxChars) (text : Text) :
    ∃ segments n, (∀ fuel, n < fuel → splitSegments maxChars fuel text = some segments) ∧
      segments.flatMap nonSpace = nonSpace text := by
  obtain ⟨bound, rfl⟩ := Int.eq_ofNat_of_zero_le (Int.le_of_lt positive)
  obtain ⟨groups, n, ends, rendered⟩ :=
    addParagraphs_end (by omega : 0 < bound) [] (splitParagraphs 0 [] (strip text))
  have each : List.Forall₂ (Renders bound) (paragraphs text) groups := rendered
  refine ⟨groups.flatten, n, ends, ?_⟩
  rw [flatMap_flatten each fun _ _ _ rendered => rendered.content, flatMap_nonSpace_eq, paragraphs_flatMap_split,
    flatten_split]

/-- For every text with something to say: its segments lose none of its characters, and when the
provider speaks each of them, `cmd_say` returns 0 and the file is their renderings under a header that
declares them. -/
theorem cmdSay_speaks (rt : Runtime) (encoder : Encoder) (text : Text) (visible : nonSpace text ≠ [])
    (maxChars : Int) (positive : 0 < maxChars) :
    ∃ segments n, (∀ fuel, n < fuel → splitSegments maxChars fuel text = some segments) ∧
      segments.flatMap nonSpace = nonSpace text ∧
      ∀ replies, List.Forall₂ (Speaks rt) segments replies →
        36 + (replies.flatMap (Rendition.pcm rt)).length < 2 ^ 32 →
        ∃ t, (Output.cmdSay (replies.map fun said => heard rt said.conn)).run
            (Output.new (.path (.ok true)) true encoder) = .ok 0 t ∧
          t.content = header wireRate (36 + (replies.flatMap (Rendition.pcm rt)).length)
            (replies.flatMap (Rendition.pcm rt)).length ++ replies.flatMap (Rendition.pcm rt) := by
  obtain ⟨segments, n, ends, content⟩ := splitSegments_content positive text
  have some_segment : segments ≠ [] := by
    intro none
    rw [none] at content
    exact visible content.symm
  refine ⟨segments, n, ends, content, ?_⟩
  intro replies speaks fits
  obtain ⟨total, ran⟩ := segments_heard speaks some_segment 0 (@ensure_new (.path (.ok true)) encoder _ rfl rfl)
  rw [List.nil_append] at ran
  refine ⟨_, cmdSay_run ran (close_opened fits), ?_⟩
  apply WavSink.content_patched
  · exact File.write_appends
  · exact WavSink.content_streamed rfl (Nat.zero_le _)

end

def spokenGreeting : Rendition where
  conn :=
    { failedMidway with
      request := some (.synthesize ⟨"af", 0, "", "Hello you."⟩)
      frames := some (Provider.handleSynthesize 24000 (synthesisOf [[1, 2], [3]])) }
  rate := 24000
  chunks := [[1, 2], [3]]

theorem speaks_greeting : Speaks silence "Hello you.".toList spokenGreeting where
  stays := rfl
  asked := ⟨_, rfl, rfl⟩
  admitted := ⟨_, rfl, rfl⟩
  spoken := ⟨24000, rfl⟩
  sends := by decide
  fits := ⟨.same, rfl, by unfold Fits; decide⟩

theorem greeting_written : ∃ t, (Output.cmdSay [heard silence spokenGreeting.conn]).run
      (Output.new (.path (.ok true)) true unusedEncoder) = .ok 0 t ∧
    t.content = header 24000 42 6 ++ [0, 0, 0, 0, 0, 0] := by
  obtain ⟨segments, n, ends, -, writes⟩ := cmdSay_speaks silence unusedEncoder
    "Hello  you.".toList (by decide) 2000 (by decide)
  have whole (fuel : Nat) : splitSegments 2000 fuel "Hello  you.".toList = some ["Hello you.".toList] := rfl
  have only := (ends (n + 1) (Nat.lt_succ_self n)).symm.trans (whole (n + 1))
  cases only
  exact writes [spokenGreeting] (.cons speaks_greeting .nil) (by decide)

end Clients

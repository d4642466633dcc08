import NeuralTts.Clients.SynthSegment
import NeuralTts.Clients.WavSink

/-! What `neural-tts-say` has written when `cmd_say` returns. -/

namespace Clients

open Daemon Library

/-- `args.output`: a path with what comes of `open(path, "wb")`, whether the file is seekable
if it opens; or `-`, with the file behind standard output. -/
inductive Target
  | path (opens : Except Raised Bool)
  | stdout (buffer : File UInt8)

def Target.file : Target → Except Raised (File UInt8)
  | .path opens => openWb <$> opens
  | .stdout buffer => .ok buffer

/-- The `ffmpeg` of an `FfmpegSink`, by what it was given so far. -/
structure Encoder where
  start : Except Raised Unit
  take : Bytes → Bytes → Except Raised Unit
  exit : Bytes → Except Raised Unit

inductive Sink
  | wav (sink : WavSink)
  | ffmpeg (given : Bytes)

/-- `Output`; `wav` is that its `fmt` is `"wav"`. -/
structure Output where
  out : Target
  wav : Bool
  encoder : Encoder
  sink : Option Sink

/-- `SynthConnection()` and `send_request`, the frames that `read_response` returns, and what it
raises after these. -/
structure Exchange where
  opening : Except Raised Unit
  frames : List Response
  ending : Raised

/-- `WhichOneof("body")` -/
def bodyName : Response → String
  | .error _ => "'error'"
  | .warmup _ _ => "'warmup'"
  | .synthesizeHeader _ => "'synthesize_header'"
  | .audioChunk _ => "'audio_chunk'"
  | .audioEnd => "'audio_end'"
  | .listVoices _ => "'list_voices'"
  | .shutdown => "'shutdown'"
  | .registerClonedVoice _ => "'register_cloned_voice'"
  | .removeClonedVoice => "'remove_cloned_voice'"
  | .unset => "None"

def wireRate : Int := 24000

def raising {σ α : Type} : Except Raised α → EStateM Raised σ α
  | .ok value => pure value
  | .error raised => throw raised

namespace Output

def new (out : Target) (wav : Bool) (encoder : Encoder) : Output := ⟨out, wav, encoder, none⟩

/-- A method of the `WavSink` that is the sink. -/
def onWav (sink : WavSink) (method : EStateM Raised WavSink Unit) : EStateM Raised Output Unit := do
  let self ← get
  match method.run sink with
  | .ok () sink => set { self with sink := some (.wav sink) }
  | .error raised sink =>
    set { self with sink := some (.wav sink) }
    throw raised

def ensure (rate : Int) : EStateM Raised Output Unit := do
  let self ← get
  if self.sink.isSome then return
  if self.wav then
    let fileobj ← raising self.out.file
    match WavSink.init fileobj rate with
    | .ok () sink => modify fun self => { self with sink := some (.wav sink) }
    | .error raised _ => throw raised
  else
    raising self.encoder.start
    modify fun self => { self with sink := some (.ffmpeg []) }

def write (pcm : Bytes) : EStateM Raised Output Unit := do
  let self ← get
  match self.sink with
  | none => throw (.other "AssertionError")
  | some (.wav sink) => onWav sink (WavSink.write pcm)
  | some (.ffmpeg given) =>
    raising (self.encoder.take given pcm)
    set { self with sink := some (.ffmpeg (given ++ pcm)) }

/-- To close `_own_file` adds nothing to what the sink has flushed. -/
def close : EStateM Raised Output Unit := do
  let self ← get
  match self.sink with
  | none => pure ()
  | some (.wav sink) => onWav sink WavSink.close
  | some (.ffmpeg given) => raising (self.encoder.exit given)

def receive (ending : Raised) (nbytes : Nat) : List Response → EStateM Raised Output Nat
  | [] => throw ending
  | .audioChunk pcm :: rest => do
    write pcm
    receive ending (nbytes + pcm.length) rest
  | .audioEnd :: _ => pure nbytes
  | .error message :: _ => throw (.runtimeError message)
  | other :: _ => throw (.osError ("unexpected response " ++ bodyName other ++ " mid-stream"))

def synthSegment (exchange : Exchange) : EStateM Raised Output Nat := do
  raising exchange.opening
  match exchange.frames with
  | [] => throw exchange.ending
  | .error message :: _ => throw (.runtimeError message)
  | .synthesizeHeader sampleRate :: rest => do
    ensure (if sampleRate = 0 then wireRate else sampleRate)
    receive exchange.ending 0 rest
  | other :: _ => throw (.osError ("expected synthesize_header, got " ++ bodyName other))

/-- The exceptions that `cmd_say` reports before it returns 1. -/
def reported : Raised → Bool
  | .fileNotFoundError | .connectionRefusedError | .runtimeError _ | .osError _ => true
  | .structError | .other _ => false

def segments (totalBytes : Nat) (exchanges : List Exchange) : EStateM Raised Output Nat :=
  exchanges.foldlM (fun totalBytes exchange => do
    let nbytes ← synthSegment exchange
    pure (totalBytes + nbytes)) totalBytes

/-- `cmd_say` from the `try` on. -/
def cmdSay (exchanges : List Exchange) : EStateM Raised Output Int :=
  tryCatch (do
      let _ ← segments 0 exchanges
      close
      pure 0)
    fun raised => if reported raised then pure 1 else throw raised

end Output

def chunksPcm : List Response → Bytes
  | .audioChunk pcm :: rest => pcm ++ chunksPcm rest
  | _ => []

/-- Every frame up to an `audio_end` is what it should be. -/
def Exchange.Complete (e : Exchange) : Prop :=
  e.opening = .ok () ∧ (synthSegment e.frames).isSome

instance (e : Exchange) : Decidable e.Complete :=
  match h : e.opening with
  | .ok () => decidable_of_iff ((synthSegment e.frames).isSome = true) (by simp [Exchange.Complete, h])
  | .error _ => isFalse (by simp [Exchange.Complete, h])

def Exchange.pcm (e : Exchange) : Bytes :=
  match e.opening, e.frames with
  | .ok (), .synthesizeHeader _ :: rest => chunksPcm rest
  | _, _ => []

def receivedPcm : List Exchange → Bytes
  | [] => []
  | e :: rest => if e.Complete then e.pcm ++ receivedPcm rest else e.pcm

/-- A WAV output to a seekable file to which `pcm` was written so far. -/
structure Holds (file : File UInt8) (pcm : Bytes) (o : Output) : Prop where
  wav : o.wav = true
  opens : o.out.file = .ok file
  written : o.sink = none ∧ pcm = [] ∨
    ∃ rate, o.sink = some (.wav ⟨WavSink.streamed file rate pcm, rate, pcm.length, true⟩)

variable {file : File UInt8} {pcm more : Bytes} {o t : Output} {rate : Int}

namespace Output

theorem ensure_run (rate : Int) (seekable : file.seekable = true) (holds : Holds file pcm o) :
    (∃ t, (ensure rate).run o = .ok () t ∧ Holds file pcm t ∧ t.sink.isSome) ∨
      ∃ raised t, (ensure rate).run o = .error raised t ∧ t.sink = none := by
  rcases holds.written with ⟨none, nothing⟩ | ⟨was, some⟩
  · have fileobj : (raising o.out.file).run o = .ok file o := by
      rw [holds.opens]
      rfl
    rw [ensure, run_bind_ok (EStateM.run_get o)]
    simp only [none, Option.isSome_none, Bool.false_eq_true, ↓reduceIte, holds.wav]
    rw [run_bind_ok fileobj]
    cases made : WavSink.init file rate with
    | ok _ sink =>
      left
      rw [WavSink.eq_of_init seekable made, nothing]
      exact ⟨_, rfl, ⟨holds.wav, holds.opens, .inr ⟨rate, rfl⟩⟩, rfl⟩
    | error raised sink =>
      right
      exact ⟨raised, o, rfl, none⟩
  · left
    refine ⟨o, ?_, holds, by simp [some]⟩
    rw [ensure, run_bind_ok (EStateM.run_get o), some]
    rfl

theorem write_run (more : Bytes) (holds : Holds file pcm o) (opened : o.sink.isSome) :
    ∃ t, (write more).run o = .ok () t ∧ Holds file (pcm ++ more) t ∧ t.sink.isSome := by
  rcases holds.written with ⟨none, -⟩ | ⟨rate, some⟩
  · rw [none] at opened
    cases opened
  · have written : (write more).run o = .ok () { o with sink := Option.some (.wav
        ⟨(WavSink.streamed file rate pcm).write 0 more, rate, pcm.length + more.length, true⟩) } := by
      rw [write, run_bind_ok (EStateM.run_get o), some]
      rfl
    rw [WavSink.write_streamed, ← List.length_append] at written
    exact ⟨_, written, ⟨holds.wav, holds.opens, .inr ⟨rate, rfl⟩⟩, rfl⟩

theorem receive_run (ending : Raised) (nbytes : Nat) (frames : List Response) (holds : Holds file pcm o)
    (opened : o.sink.isSome) :
    (∃ n t, (receive ending nbytes frames).run o = .ok n t ∧ segmentLoop nbytes frames = some n ∧
        Holds file (pcm ++ chunksPcm frames) t) ∨
      ∃ raised t, (receive ending nbytes frames).run o = .error raised t ∧ segmentLoop nbytes frames = none ∧
        Holds file (pcm ++ chunksPcm frames) t := by
  have here : Holds file (pcm ++ []) o := by rwa [List.append_nil]
  induction frames generalizing nbytes pcm o with
  | nil => exact .inr ⟨_, o, rfl, rfl, here⟩
  | cons frame rest ih =>
    cases frame with
    | audioChunk chunk =>
      obtain ⟨next, first, held, still⟩ := write_run chunk holds opened
      rw [receive, run_bind_ok first, chunksPcm, ← List.append_assoc]
      exact ih (nbytes + chunk.length) held still (by rwa [List.append_nil])
    | audioEnd => exact .inl ⟨_, o, rfl, rfl, here⟩
    | _ => exact .inr ⟨_, o, rfl, rfl, here⟩

/-- A segment fails, unless its output does, exactly when its exchange is not complete. -/
theorem synthSegment_run {e : Exchange} (seekable : file.seekable = true) (holds : Holds file pcm o) :
    (∃ n t, (synthSegment e).run o = .ok n t ∧ e.Complete ∧ Holds file (pcm ++ e.pcm) t) ∨
      (∃ raised t, (synthSegment e).run o = .error raised t ∧ ¬e.Complete ∧ Holds file (pcm ++ e.pcm) t) ∨
      ∃ raised t, (synthSegment e).run o = .error raised t ∧ t.sink = none := by
  have here : Holds file (pcm ++ []) o := by rwa [List.append_nil]
  obtain ⟨opening, frames, ending⟩ := e
  cases opening with
  | error raised => exact .inr (.inl ⟨raised, o, rfl, (fun complete => nomatch complete.1), here⟩)
  | ok _ =>
    cases frames with
    | nil => exact .inr (.inl ⟨ending, o, rfl, (fun complete => nomatch complete.2), here⟩)
    | cons frame rest =>
      cases frame with
      | synthesizeHeader sampleRate =>
        have begins : (synthSegment ⟨.ok (), .synthesizeHeader sampleRate :: rest, ending⟩).run o =
            (do ensure (if sampleRate = 0 then wireRate else sampleRate); receive ending 0 rest).run o := rfl
        rw [begins]
        rcases ensure_run (if sampleRate = 0 then wireRate else sampleRate) seekable holds with
          ⟨next, first, held, opened⟩ | ⟨raised, t, first, none⟩
        · rw [run_bind_ok first]
          rcases receive_run ending 0 rest held opened with
            ⟨n, t, ran, ends, after⟩ | ⟨raised, t, ran, breaks, after⟩
          · exact .inl ⟨n, t, ran, ⟨rfl, Option.isSome_iff_exists.mpr ⟨n, ends⟩⟩, after⟩
          · refine .inr (.inl ⟨raised, t, ran, fun complete => ?_, after⟩)
            have ends : (segmentLoop 0 rest).isSome := complete.2
            rw [breaks] at ends
            cases ends
        · rw [run_bind_error first]
          exact .inr (.inr ⟨raised, t, rfl, none⟩)
      | _ => exact .inr (.inl ⟨_, o, rfl, (fun complete => nomatch complete.2), here⟩)

theorem segments_run (exchanges : List Exchange) (total : Nat) (seekable : file.seekable = true)
    (holds : Holds file pcm o) :
    (∃ n t, (segments total exchanges).run o = .ok n t ∧ (∀ e ∈ exchanges, e.Complete) ∧
        Holds file (pcm ++ receivedPcm exchanges) t) ∨
      (∃ raised t, (segments total exchanges).run o = .error raised t ∧ (¬∀ e ∈ exchanges, e.Complete) ∧
        Holds file (pcm ++ receivedPcm exchanges) t) ∨
      ∃ raised t, (segments total exchanges).run o = .error raised t ∧ t.sink = none := by
  induction exchanges generalizing pcm o total with
  | nil => exact .inl ⟨total, o, rfl, by simp, by rwa [receivedPcm, List.append_nil]⟩
  | cons e rest ih =>
    rw [segments, List.foldlM_cons]
    rcases synthSegment_run (e := e) seekable holds with
      ⟨n, next, first, complete, held⟩ | ⟨raised, t, first, breaks, held⟩ | ⟨raised, t, first, none⟩
    · have counted : (do let nbytes ← synthSegment e; pure (total + nbytes)).run o = .ok (total + n) next := by
        rw [run_bind_ok first]
        rfl
      rw [run_bind_ok counted]
      have all : (∀ e' ∈ e :: rest, e'.Complete) ↔ ∀ e' ∈ rest, e'.Complete := by
        rw [List.forall_mem_cons, and_iff_right complete]
      rw [receivedPcm, if_pos complete, ← List.append_assoc, all]
      exact ih (total + n) held
    · have stops : (do let nbytes ← synthSegment e; pure (total + nbytes)).run o = .error raised t :=
        run_bind_error first
      rw [run_bind_error stops, receivedPcm, if_neg breaks]
      exact .inr (.inl ⟨raised, t, rfl, fun all => breaks (all e List.mem_cons_self), held⟩)
    · have stops : (do let nbytes ← synthSegment e; pure (total + nbytes)).run o = .error raised t :=
        run_bind_error first
      rw [run_bind_error stops]
      exact .inr (.inr ⟨raised, t, rfl, none⟩)

theorem onWav_run_of_ok {sink changed : WavSink} {method : EStateM Raised WavSink Unit}
    (ran : method.run sink = .ok () changed) :
    (onWav sink method).run o = .ok () { o with sink := some (.wav changed) } := by
  rw [onWav, run_bind_ok (EStateM.run_get o), ran]
  rfl

theorem onWav_run_of_error {sink changed : WavSink} {method : EStateM Raised WavSink Unit} {raised : Raised}
    (ran : method.run sink = .error raised changed) :
    (onWav sink method).run o = .error raised { o with sink := some (.wav changed) } := by
  rw [onWav, run_bind_ok (EStateM.run_get o), ran]
  rfl

theorem close_run (holds : Holds file pcm o) :
    (o.sink = none ∧ close.run o = .ok () o) ∨
      (∃ rate, 36 + pcm.length < 2 ^ 32 ∧ close.run o = .ok () { o with sink := some (.wav
        ⟨WavSink.patched (WavSink.streamed file rate pcm) pcm.length, rate, pcm.length, true⟩) }) ∨
      ∃ t, close.run o = .error .structError t := by
  rcases holds.written with ⟨none, -⟩ | ⟨rate, some⟩
  · refine .inl ⟨none, ?_⟩
    rw [close, run_bind_ok (EStateM.run_get o), none]
    rfl
  · right
    rw [close, run_bind_ok (EStateM.run_get o), some]
    by_cases fits : 36 + pcm.length < 2 ^ 32
    · exact .inl ⟨rate, fits, onWav_run_of_ok (WavSink.close_run_of_fits rfl fits)⟩
    · exact .inr ⟨_, onWav_run_of_error (WavSink.close_run_of_overflow rfl (Nat.le_of_not_lt fits))⟩

theorem cmdSay_cases {exchanges : List Exchange} {code : Int} (returned : (cmdSay exchanges).run o = .ok code t) :
    (∃ n s, (segments 0 exchanges).run o = .ok n s ∧ close.run s = .ok () t) ∨
      (∃ n s raised, (segments 0 exchanges).run o = .ok n s ∧ close.run s = .error raised t ∧ reported raised) ∨
      ∃ raised, (segments 0 exchanges).run o = .error raised t := by
  have fails {raised : Raised} {s : Output} (x : EStateM Raised Output Int) (ran : x.run o = .error raised s)
      (same : cmdSay exchanges = tryCatch x fun raised => if reported raised then pure 1 else throw raised) :
      reported raised ∧ t = s := by
    rw [same, run_tryCatch_error ran] at returned
    by_cases report : reported raised
    · rw [if_pos report] at returned
      cases returned
      exact ⟨report, rfl⟩
    · rw [if_neg report] at returned
      cases returned
  cases ran : (segments 0 exchanges).run o with
  | error raised s =>
    obtain ⟨-, rfl⟩ := fails _ (run_bind_error ran) rfl
    exact .inr (.inr ⟨raised, rfl⟩)
  | ok n s =>
    cases closed : close.run s with
    | error raised u =>
      obtain ⟨report, rfl⟩ := fails _ ((run_bind_ok ran).trans (run_bind_error closed)) rfl
      exact .inr (.inl ⟨n, s, raised, rfl, closed, report⟩)
    | ok _ u =>
      have finished : (do let _ ← segments 0 exchanges; close; pure 0 : EStateM Raised Output Int).run o = .ok 0 u := by
        rw [run_bind_ok ran, run_bind_ok closed]
        rfl
      have same := returned.symm.trans (run_tryCatch_ok finished)
      cases same
      exact .inl ⟨n, s, rfl, closed⟩

end Output

open Output

def Output.content (o : Output) : Bytes :=
  match o.sink with
  | some (.wav sink) => sink.f.content
  | _ => []

theorem holds_new {out : Target} (encoder : Encoder) (opens : out.file = .ok file) :
    Holds file [] (Output.new out true encoder) :=
  ⟨rfl, opens, .inl ⟨rfl, rfl⟩⟩

/-- `cmd_say` leaves a closed file if every exchange is complete, and else one that is not closed. -/
theorem cmdSay_leaves {out : Target} {encoder : Encoder} {exchanges : List Exchange} {code : Int}
    (opens : out.file = .ok file) (seekable : file.seekable = true)
    (returned : (cmdSay exchanges).run (Output.new out true encoder) = .ok code t) (opened : t.sink.isSome) :
    (∃ rate, (∀ e ∈ exchanges, e.Complete) ∧ 36 + (receivedPcm exchanges).length < 2 ^ 32 ∧
      t.content = (WavSink.patched (WavSink.streamed file rate (receivedPcm exchanges))
        (receivedPcm exchanges).length).content) ∨
    ∃ rate, (¬∀ e ∈ exchanges, e.Complete) ∧
      t.content = (WavSink.streamed file rate (receivedPcm exchanges)).content := by
  have absent {s : Output} (none : s.sink = none) (same : t = s) : False := by
    rw [same, none] at opened
    cases opened
  have ran := segments_run exchanges 0 seekable (holds_new encoder opens)
  rw [List.nil_append] at ran
  rcases ran with ⟨n, s, rendered, complete, holds⟩ | ⟨raised, s, failed, breaks, holds⟩ | ⟨raised, s, failed, none⟩
  · left
    rcases cmdSay_cases returned with ⟨_, s', rendered', closed⟩ | ⟨_, s', raised, rendered', closed, report⟩ |
      ⟨raised, failed⟩
    · cases rendered.symm.trans rendered'
      rcases close_run holds with ⟨none, ends⟩ | ⟨rate, fits, ends⟩ | ⟨_, ends⟩
      · cases closed.symm.trans ends
        exact (absent none rfl).elim
      · cases closed.symm.trans ends
        exact ⟨rate, complete, fits, rfl⟩
      · cases closed.symm.trans ends
    · cases rendered.symm.trans rendered'
      rcases close_run holds with ⟨none, ends⟩ | ⟨rate, fits, ends⟩ | ⟨_, ends⟩
      · cases closed.symm.trans ends
      · cases closed.symm.trans ends
      · cases closed.symm.trans ends
        cases report
    · cases rendered.symm.trans failed
  · right
    rcases cmdSay_cases returned with ⟨_, _, rendered, -⟩ | ⟨_, _, _, rendered, -⟩ | ⟨_, failed'⟩
    · cases failed.symm.trans rendered
    · cases failed.symm.trans rendered
    · cases failed.symm.trans failed'
      rcases holds.written with ⟨none, -⟩ | ⟨rate, some⟩
      · exact (absent none rfl).elim
      · refine ⟨rate, breaks, ?_⟩
        rw [Output.content, some]
  · rcases cmdSay_cases returned with ⟨_, _, rendered, -⟩ | ⟨_, _, _, rendered, -⟩ | ⟨_, failed'⟩
    · cases failed.symm.trans rendered
    · cases failed.symm.trans rendered
    · cases failed.symm.trans failed'
      exact (absent none rfl).elim

/-- When the file that `cmd_say` leaves behind describes what was written to it. -/
theorem cmdSay_describes_iff {out : Target} {encoder : Encoder} {exchanges : List Exchange} {code : Int}
    (opens : out.file = .ok file) (seekable : file.seekable = true)
    (returned : (cmdSay exchanges).run (Output.new out true encoder) = .ok code t) (opened : t.sink.isSome) :
    Describes t.content (receivedPcm exchanges) ↔
      ((∀ e ∈ exchanges, e.Complete) ∧ file.appends = false ∨
        (¬∀ e ∈ exchanges, e.Complete) ∧ receivedPcm exchanges = []) ∧
      file.offset = 0 ∧ file.content.length ≤ 44 + (receivedPcm exchanges).length := by
  rcases cmdSay_leaves opens seekable returned opened with ⟨rate, complete, fits, same⟩ | ⟨rate, breaks, same⟩
  · rw [same, WavSink.describes_patched_iff fits]
    constructor
    · rintro ⟨appends, alone⟩
      exact ⟨.inl ⟨complete, appends⟩, alone⟩
    · rintro ⟨⟨-, appends⟩ | ⟨breaks, -⟩, alone⟩
      · exact ⟨appends, alone⟩
      · exact absurd complete breaks
  · rw [same, WavSink.describes_streamed_iff]
    constructor
    · rintro ⟨nothing, alone⟩
      exact ⟨.inr ⟨breaks, nothing⟩, alone⟩
    · rintro ⟨⟨complete, -⟩ | ⟨-, nothing⟩, alone⟩
      · exact absurd complete breaks
      · exact ⟨nothing, alone⟩

def unusedEncoder : Encoder := ⟨.ok (), fun _ _ => .ok (), fun _ => .ok ()⟩

def wholeReply : Exchange := ⟨.ok (), [.synthesizeHeader 0, .audioChunk [1, 0], .audioEnd], .osError "short read"⟩

def brokenReply : Exchange := ⟨.ok (), [.synthesizeHeader 0, .audioChunk [1, 0], .error "out of memory"], .osError "short read"⟩

def silentReply : Exchange := ⟨.ok (), [.synthesizeHeader 0, .error "out of memory"], .osError "short read"⟩

/-- Two whole replies, and one that fails before its first PCM. -/
theorem wholeReply_described :
    (∃ t, (cmdSay [wholeReply, wholeReply]).run (Output.new (.path (.ok true)) true unusedEncoder) = .ok 0 t ∧
      Describes t.content [1, 0, 1, 0]) ∧
    ∃ t, (cmdSay [silentReply]).run (Output.new (.path (.ok true)) true unusedEncoder) = .ok 1 t ∧
      Describes t.content [] := by
  constructor
  · have returned : ∃ t, (cmdSay [wholeReply, wholeReply]).run (Output.new (.path (.ok true)) true unusedEncoder) =
        .ok 0 t ∧ t.sink.isSome := ⟨_, rfl, rfl⟩
    obtain ⟨t, returned, opened⟩ := returned
    exact ⟨t, returned, (cmdSay_describes_iff rfl rfl returned opened).mpr (by decide)⟩
  · have returned : ∃ t, (cmdSay [silentReply]).run (Output.new (.path (.ok true)) true unusedEncoder) =
        .ok 1 t ∧ t.sink.isSome := ⟨_, rfl, rfl⟩
    obtain ⟨t, returned, opened⟩ := returned
    exact ⟨t, returned, (cmdSay_describes_iff rfl rfl returned opened).mpr (by decide)⟩

/-- After an error frame in its last segment, a file with PCM declares none. -/
theorem brokenReply_undescribed :
    ∃ t, (cmdSay [wholeReply, brokenReply]).run (Output.new (.path (.ok true)) true unusedEncoder) = .ok 1 t ∧
      t.sink.isSome ∧ receivedPcm [wholeReply, brokenReply] = [1, 0, 1, 0] ∧
      ¬Describes t.content (receivedPcm [wholeReply, brokenReply]) := by
  refine ⟨_, rfl, rfl, rfl, fun described => ?_⟩
  exact absurd described.dataSize (by decide)

end Clients

import Mathlib.Data.List.Flatten
import NeuralTts.Clients.SynthSegment
import NeuralTts.Daemon.Proxy
import NeuralTts.Daemon.Wire

/-! What `audio_end` tells a client of the daemon: of the frames that `synthesize` has read, and, over
every run of exchanges with the provider, of those that the provider wrote for the client's request. -/

namespace Daemon

open Library

def pcmOf (frames : List Response) : Bytes :=
  frames.flatMap fun
    | .audioChunk pcm => pcm
    | _ => []

def sentChunks : List Response → List Bytes
  | [] => []
  | .audioChunk pcm :: rest => pcm :: sentChunks rest
  | .audioEnd :: _ => []
  | _ :: rest => sentChunks rest

/-- The supervisor has read `audio_end`, and the client got every sample that it has read. -/
def Rendered (rt : Runtime) (conn : Connection) : Prop :=
  (handleSpeechdConnection rt conn).2 = true ∧
    ∃ proc frames chunks, obtainProcess rt conn = .ok proc ∧ synthesizeStart conn.frames = some frames ∧
      (sentChunks frames).mapM frombuffer = some chunks ∧
      pcmOf (conn.received rt) =
        rt.float32ToS16leBytes (rt.resampled proc.sampleRate wireSampleRate chunks.flatten)

/-- The supervisor has read the `audio_end` that answers call `i`, and the client got every sample that
the provider wrote for it, and no other. -/
structure RenderedFor (rt : Runtime) (conn : Connection) (w : Wire) (i : TaskId) : Prop where
  ended : (handleSpeechdConnection rt conn).2 = true
  own : (some i, .audioEnd) ∈ w.read i
  samples : ∃ proc frames chunks, obtainProcess rt conn = .ok proc ∧ synthesizeStart conn.frames = some frames ∧
    (sentChunks frames).flatten = (w.payloads i).flatten ∧ (w.payloads i).mapM frombuffer = some chunks ∧
    pcmOf (conn.received rt) =
      rt.float32ToS16leBytes (rt.resampled proc.sampleRate wireSampleRate chunks.flatten)

structure Faithful (rt : Runtime) (conn : Connection) (w : Wire) (i : TaskId) : Prop where
  ended : .audioEnd ∈ conn.received rt → RenderedFor rt conn w i
  segment : ∀ n, Clients.synthSegment (conn.received rt) = some n → RenderedFor rt conn w i

def Fits (rt : Runtime) (samples : List Sample) : Prop :=
  audioChunkLength (rt.float32ToS16leBytes samples) ≤ maxFrameBytes

/-- The frames run up to `audio_end` with no error among them, no chunk cuts a sample off, and
what comes out of the resampler can be framed again. -/
def Completes (rt : Runtime) (r : Resampler rt) : List Response → Prop
  | [] => False
  | .audioChunk pcm :: rest => ∃ samples, frombuffer pcm = some samples ∧
      Fits rt (r.process samples).2 ∧ Completes rt (r.process samples).1 rest
  | .audioEnd :: _ => Fits rt r.flush
  | .error _ :: _ => False
  | _ :: rest => Completes rt r rest

/-- The `audio_end`, and every chunk with samples, that call `i` has read answer its own request. -/
structure Aligned (w : Wire) (i : TaskId) : Prop where
  ended : (some i, .audioEnd) ∈ w.read i
  chunks : ∀ t pcm, (t, .audioChunk pcm) ∈ w.read i → pcm = [] ∨ t = some i

/-- Where the client stays and its request gets as far as the pump, the synthesis completes, and what
was read answers it. -/
def Renders (rt : Runtime) (conn : Connection) (w : Wire) (i : TaskId) : Prop :=
  conn.client.leaves = none → ∀ proc r, obtainProcess rt conn = .ok proc →
    Resampler.new rt proc.sampleRate wireSampleRate = some r →
    (∃ frames, synthesizeStart conn.frames = some frames ∧ Completes rt r frames) ∧ Aligned w i

variable {rt : Runtime} {client : Client} {written : Nat} {r : Resampler rt} {frames : List Response}

theorem fits_nil : Fits rt [] := by
  change audioChunkLength [] ≤ maxFrameBytes
  decide

def Pumps (rt : Runtime) (r : Resampler rt) (frames : List Response) (pumped : List Response × Bool) : Prop :=
  pumped.2 = true ∧ ∃ chunks, (sentChunks frames).mapM frombuffer = some chunks ∧
    pcmOf pumped.1 = rt.float32ToS16leBytes ((Resampler.transducer rt).run r chunks)

theorem eq_nil_of_bytes_eq_nil {samples : List Sample} (empty : rt.float32ToS16leBytes samples = []) :
    samples = [] := by
  have size := rt.float32ToS16leBytes_length samples
  rw [empty, List.length_nil] at size
  exact List.eq_nil_of_length_eq_zero (by omega)

theorem pcmOf_audioChunk (pcm : Bytes) (rest : List Response) :
    pcmOf (.audioChunk pcm :: rest) = pcm ++ pcmOf rest := rfl

theorem mapM_sentChunks_cons {pcm : Bytes} {samples : List Sample} {rest : List Response}
    (whole : frombuffer pcm = some samples) :
    (sentChunks (.audioChunk pcm :: rest)).mapM frombuffer =
      ((sentChunks rest).mapM frombuffer).map (samples :: ·) := by
  rw [sentChunks, List.mapM_cons, whole]
  cases (sentChunks rest).mapM frombuffer <;> rfl

theorem pumps_audioChunk {pcm : Bytes} {samples : List Sample} {rest : List Response}
    (whole : frombuffer pcm = some samples) (pumped later : List Response × Bool)
    (ended : pumped.2 = later.2)
    (out : pcmOf pumped.1 = rt.float32ToS16leBytes (r.process samples).2 ++ pcmOf later.1) :
    Pumps rt r (.audioChunk pcm :: rest) pumped ↔ Pumps rt (r.process samples).1 rest later := by
  unfold Pumps
  rw [mapM_sentChunks_cons whole, ended, out]
  refine and_congr_right fun _ => ?_
  constructor
  · rintro ⟨chunks, sent, same⟩
    obtain ⟨others, sentOthers, rfl⟩ := Option.map_eq_some_iff.mp sent
    refine ⟨others, sentOthers, ?_⟩
    rw [Transducer.run, Runtime.float32ToS16leBytes_append] at same
    exact List.append_cancel_left same
  · rintro ⟨others, sent, same⟩
    refine ⟨samples :: others, by rw [sent]; rfl, ?_⟩
    rw [same, Transducer.run, Runtime.float32ToS16leBytes_append]
    rfl

theorem pumps_audioEnd {rest : List Response} {pumped : List Response × Bool} :
    Pumps rt r (.audioEnd :: rest) pumped ↔
      pumped.2 = true ∧ pcmOf pumped.1 = rt.float32ToS16leBytes r.flush := by
  refine and_congr_right fun _ => ⟨?_, fun same => ⟨[], rfl, same⟩⟩
  rintro ⟨chunks, sent, same⟩
  cases sent
  exact same

/-- To a client that stays, the pump writes every sample up to `audio_end` exactly when the
synthesis completes. -/
theorem pumps_iff_completes (patient : ∀ written, client.drainRaises written = false) :
    Pumps rt r frames (pump rt client written r frames) ↔ Completes rt r frames := by
  induction frames generalizing written r with
  | nil => exact ⟨fun pumps => (nomatch pumps.1), nofun⟩
  | cons frame rest ih =>
    cases frame with
    | audioChunk pcm =>
      cases whole : frombuffer pcm with
      | none =>
        constructor
        · intro pumps
          have ended := pumps.1
          simp only [pump, whole] at ended
          cases ended
        · rintro ⟨samples, decoded, -⟩
          rw [whole] at decoded
          cases decoded
      | some samples =>
        have completes : Completes rt r (.audioChunk pcm :: rest) ↔
            Fits rt (r.process samples).2 ∧ Completes rt (r.process samples).1 rest := by
          simp [Completes, whole]
        rw [completes]
        by_cases silent : (r.process samples).2 = []
        · have step : pump rt client written r (.audioChunk pcm :: rest) =
              pump rt client written (r.process samples).1 rest := by simp [pump, whole, silent]
          rw [step, silent, and_iff_right fits_nil]
          refine Iff.trans
            (pumps_audioChunk whole _ (pump rt client written (r.process samples).1 rest) rfl ?_) ih
          rw [silent]
          rfl
        · by_cases fits : Fits rt (r.process samples).2
          · have step : pump rt client written r (.audioChunk pcm :: rest) =
                (.audioChunk (rt.float32ToS16leBytes (r.process samples).2) ::
                  (pump rt client (written + 1) (r.process samples).1 rest).1,
                (pump rt client (written + 1) (r.process samples).1 rest).2) := by
              simp [pump, whole, silent, patient, Nat.not_lt.mpr fits]
            rw [step, and_iff_right fits]
            refine Iff.trans
              (pumps_audioChunk whole _ (pump rt client (written + 1) (r.process samples).1 rest) ?_ ?_) ih
            · rfl
            · exact pcmOf_audioChunk ..
          · refine ⟨fun pumps => ?_, fun fitting => absurd fitting.1 fits⟩
            have ended := pumps.1
            simp [pump, whole, silent, Nat.lt_of_not_le fits] at ended
    | audioEnd =>
      rw [pumps_audioEnd]
      by_cases silent : r.flush = []
      · simp [pump, silent, Completes, fits_nil, pcmOf, Runtime.float32ToS16leBytes]
      · by_cases fits : Fits rt r.flush
        · simp [pump, silent, Completes, fits, Nat.not_lt.mpr fits, pcmOf]
        · refine ⟨fun pumps => ?_, fun fitting => absurd fitting fits⟩
          have out := pumps.2
          simp only [pump, if_neg silent, if_pos (Nat.lt_of_not_le fits)] at out
          exact absurd (eq_nil_of_bytes_eq_nil out.symm) silent
    | error message => exact ⟨fun pumps => (nomatch pumps.1), nofun⟩
    | _ => exact ih

theorem audioEnd_notMem_pump : .audioEnd ∉ (pump rt client written r frames).1 := by
  induction frames generalizing written r with
  | nil => exact List.not_mem_nil
  | cons frame rest ih =>
    cases frame with
    | audioChunk pcm =>
      simp only [pump]
      split
      · exact List.not_mem_nil
      · split
        · exact ih
        · split
          · exact List.not_mem_nil
          · split
            · simp
            · simp [ih]
    | audioEnd =>
      simp only [pump]
      split
      · exact List.not_mem_nil
      · split <;> simp
    | error message => exact List.not_mem_nil
    | _ => exact ih

theorem audioEnd_notMem_sendAndClose (message : String) : .audioEnd ∉ sendAndClose message := by
  unfold sendAndClose
  split <;> simp

theorem audioEnd_notMem_obtainProcess {conn : Connection} {frames : List Response}
    (refused : obtainProcess rt conn = .error frames) : .audioEnd ∉ frames := by
  unfold obtainProcess at refused
  split at refused
  · cases refused; exact List.not_mem_nil
  · split at refused
    · cases refused; exact audioEnd_notMem_sendAndClose _
    · split at refused
      · cases refused; exact List.not_mem_nil
      · split at refused
        · cases refused; exact audioEnd_notMem_sendAndClose _
        · split at refused
          · cases refused; exact audioEnd_notMem_sendAndClose _
          · cases refused; exact audioEnd_notMem_sendAndClose _
          · split at refused
            · cases refused
            · cases refused; exact audioEnd_notMem_sendAndClose _
  · cases refused; exact audioEnd_notMem_sendAndClose _

theorem audioEnd_mem_received {conn : Connection} :
    .audioEnd ∈ conn.received rt ↔ conn.client.leaves = none ∧
      ∃ proc r, obtainProcess rt conn = .ok proc ∧ Resampler.new rt proc.sampleRate wireSampleRate = some r := by
  unfold Connection.received Client.received handleSpeechdConnection
  cases refused : obtainProcess rt conn with
  | error frames =>
    have absent := audioEnd_notMem_obtainProcess refused
    cases conn.client.leaves with
    | none => simp [absent]
    | some n => simpa using fun inside => absent (List.dropLast_subset _ (List.mem_of_mem_take inside))
  | ok proc =>
    cases built : Resampler.new rt proc.sampleRate wireSampleRate with
    | none => cases conn.client.leaves <;> simp [built]
    | some r =>
      cases conn.client.leaves with
      | none => simp [built]
      | some n =>
        simp only [reduceCtorEq, false_and, iff_false]
        intro inside
        have pumped := List.mem_of_mem_take inside
        simp only [built, List.dropLast_concat] at pumped
        split at pumped
        · simp at pumped
        · simp [audioEnd_notMem_pump] at pumped

theorem rendered_iff {conn : Connection} {proc : ProviderProcess} (stays : conn.client.leaves = none)
    (admitted : obtainProcess rt conn = .ok proc)
    (built : Resampler.new rt proc.sampleRate wireSampleRate = some r) :
    Rendered rt conn ↔ ∃ frames, synthesizeStart conn.frames = some frames ∧ Completes rt r frames := by
  have patient := conn.client.patient stays
  cases started : synthesizeStart conn.frames with
  | none => simp [Rendered, started]
  | some frames =>
    have handled : handleSpeechdConnection rt conn =
        (.synthesizeHeader wireSampleRate :: (pump rt conn.client 1 r frames).1 ++ [.audioEnd],
          (pump rt conn.client 1 r frames).2) := by
      simp [handleSpeechdConnection, admitted, built, started]
    have pcm : pcmOf (conn.received rt) = pcmOf (pump rt conn.client 1 r frames).1 := by
      simp [Connection.received, Client.received, stays, handled, pcmOf]
    have computed := Resampler.computes built
    have pumps : Rendered rt conn ↔ Pumps rt r frames (pump rt conn.client 1 r frames) := by
      unfold Rendered Pumps
      rw [handled, pcm, admitted, started]
      refine and_congr_right fun _ => ?_
      constructor
      · rintro ⟨_, _, chunks, ⟨⟩, ⟨⟩, sent, same⟩
        exact ⟨chunks, sent, by rw [computed]; exact same⟩
      · rintro ⟨chunks, sent, same⟩
        exact ⟨_, _, chunks, rfl, rfl, sent, by rw [← computed]; exact same⟩
    rw [pumps, pumps_iff_completes patient]
    simp

theorem length_flatten_filter_le (kept : Option TaskId × Bytes → Bool) (chunks : List (Option TaskId × Bytes)) :
    ((chunks.filter kept).map Prod.snd).flatten.length ≤ (chunks.map Prod.snd).flatten.length :=
  (List.Sublist.flatten (List.filter_sublist.map Prod.snd)).length_le

theorem flatten_filter_eq_iff (kept : Option TaskId × Bytes → Bool) (chunks : List (Option TaskId × Bytes)) :
    (chunks.map Prod.snd).flatten = ((chunks.filter kept).map Prod.snd).flatten ↔
      ∀ chunk ∈ chunks, chunk.2 = [] ∨ kept chunk := by
  induction chunks with
  | nil => simp
  | cons chunk rest ih =>
    rw [List.forall_mem_cons, ← ih]
    by_cases mine : kept chunk
    · simp [mine]
    · simp only [mine, List.filter_cons_of_neg, not_false_eq_true, Bool.false_eq_true, or_false,
        List.map_cons, List.flatten_cons]
      constructor
      · intro same
        have sizes := congrArg List.length same
        have shorter := length_flatten_filter_le kept rest
        rw [List.length_append] at sizes
        have empty : chunk.2 = [] := List.eq_nil_of_length_eq_zero (by omega)
        rw [empty, List.nil_append] at same
        exact ⟨empty, same⟩
      · rintro ⟨empty, same⟩
        rw [empty, List.nil_append, same]

theorem mapM_frombuffer_filter (kept : Option TaskId × Bytes → Bool) {chunks : List (Option TaskId × Bytes)}
    (foreign : ∀ chunk ∈ chunks, chunk.2 = [] ∨ kept chunk) :
    ((chunks.map Prod.snd).mapM frombuffer).map List.flatten =
      (((chunks.filter kept).map Prod.snd).mapM frombuffer).map List.flatten := by
  induction chunks with
  | nil => rfl
  | cons chunk rest ih =>
    obtain ⟨first, others⟩ := List.forall_mem_cons.mp foreign
    have later := ih others
    by_cases mine : kept chunk
    · rw [List.filter_cons_of_pos mine, List.map_cons, List.map_cons, List.mapM_cons, List.mapM_cons]
      cases frombuffer chunk.2 with
      | none => rfl
      | some samples =>
        cases whole : (rest.map Prod.snd).mapM frombuffer <;>
          cases own : ((rest.filter kept).map Prod.snd).mapM frombuffer <;> simp_all
    · have empty : frombuffer chunk.2 = some [] := by rw [first.resolve_right mine]; rfl
      rw [List.filter_cons_of_neg mine, ← later, List.map_cons, List.mapM_cons, empty]
      cases (rest.map Prod.snd).mapM frombuffer <;> rfl

theorem chunks_answers (i : TaskId) (frames : List (Option TaskId × Response)) :
    ProviderProcess.chunks (answers i frames) =
      (ProviderProcess.chunks frames).filter fun chunk => chunk.1 = some i := by
  rw [ProviderProcess.chunks, ProviderProcess.chunks, answers, List.filterMap_filter, List.filter_filterMap]
  congr 1
  funext frame
  obtain ⟨t, response⟩ := frame
  by_cases mine : t = some i <;> cases response <;> simp [ProviderProcess.chunkOf, Option.filter, mine]

theorem sentChunks_of_closing {frames : List (Option TaskId × Response)}
    (closing : ∀ frame ∈ frames.dropLast, frame.2 ≠ .audioEnd) :
    sentChunks (frames.map Prod.snd) = (ProviderProcess.chunks frames).map Prod.snd := by
  induction frames with
  | nil => rfl
  | cons frame rest ih =>
    cases rest with
    | nil =>
      obtain ⟨t, response⟩ := frame
      cases response <;> rfl
    | cons next rest =>
      rw [List.dropLast_cons_cons, List.forall_mem_cons] at closing
      have later := ih closing.2
      obtain ⟨t, response⟩ := frame
      cases response with
      | audioEnd => exact absurd rfl closing.1
      | audioChunk pcm =>
        rw [List.map_cons, sentChunks, later]
        rfl
      | _ => exact later

theorem mem_chunks {t : Option TaskId} {pcm : Bytes} {frames : List (Option TaskId × Response)} :
    (t, pcm) ∈ ProviderProcess.chunks frames ↔ (t, .audioChunk pcm) ∈ frames := by
  unfold ProviderProcess.chunks
  rw [List.mem_filterMap]
  constructor
  · rintro ⟨⟨u, response⟩, member, chunk⟩
    cases response with
    | audioChunk payload =>
      cases chunk
      exact member
    | _ => cases chunk
  · intro member
    exact ⟨_, member, rfl⟩

section

variable {p q : ProviderProcess} {w : Wire} {i : TaskId} {conn : Connection}

/-- What a call whose own `audio_end` it has read was sent, among what it has read. -/
theorem payloads_of_ended (accounted : q.Accounted w) (own : (some i, .audioEnd) ∈ w.read i) :
    w.payloads i = ((ProviderProcess.chunks (w.read i)).filter fun chunk => chunk.1 = some i).map Prod.snd := by
  rw [Wire.payloads, ← accounted.complete i own, chunks_answers]

theorem sentChunks_read (accounted : q.Accounted w) (read : conn.frames = some ((w.read i).map Prod.snd))
    (started : synthesizeStart conn.frames = some frames) :
    sentChunks frames = (ProviderProcess.chunks (w.read i)).map Prod.snd := by
  have closing := accounted.closing i
  rw [read] at started
  cases heard : w.read i with
  | nil => rw [heard] at started; cases started
  | cons frame rest =>
    obtain ⟨t, response⟩ := frame
    rw [heard] at started closing
    cases response with
    | synthesizeHeader rate =>
      cases started
      have later : ∀ frame ∈ rest.dropLast, frame.2 ≠ .audioEnd := by
        intro frame member
        apply closing frame
        cases rest with
        | nil => cases member
        | cons next rest => exact List.mem_cons_of_mem _ member
      exact sentChunks_of_closing later
    | _ => cases started

/-- What a client that stays was sent is what the provider wrote for its call exactly when all of what
was read is rendered, and answers it. -/
theorem renderedFor_iff (accounted : q.Accounted w) (read : conn.frames = some ((w.read i).map Prod.snd)) :
    RenderedFor rt conn w i ↔ Rendered rt conn ∧ Aligned w i := by
  let kept (chunk : Option TaskId × Bytes) : Bool := chunk.1 = some i
  have foreign : (∀ chunk ∈ ProviderProcess.chunks (w.read i), chunk.2 = [] ∨ kept chunk) ↔
      ∀ t pcm, (t, .audioChunk pcm) ∈ w.read i → pcm = [] ∨ t = some i := by
    simp [kept, Prod.forall, mem_chunks]
  constructor
  · rintro ⟨ended, own, proc, frames, chunks, admitted, started, given, decoded, heard⟩
    have sent := sentChunks_read accounted read started
    have payloads := payloads_of_ended accounted own
    rw [sent, payloads] at given
    have aligned := (flatten_filter_eq_iff kept _).mp given
    have whole := mapM_frombuffer_filter kept aligned
    rw [← sent, ← payloads, decoded, Option.map_some, Option.map_eq_some_iff] at whole
    obtain ⟨all, decodedAll, same⟩ := whole
    refine ⟨⟨ended, proc, frames, all, admitted, started, decodedAll, ?_⟩, own, foreign.mp aligned⟩
    rw [same]
    exact heard
  · rintro ⟨⟨ended, proc, frames, all, admitted, started, decodedAll, heard⟩, own, aligned⟩
    have sent := sentChunks_read accounted read started
    have payloads := payloads_of_ended accounted own
    have mine := foreign.mpr aligned
    have whole := mapM_frombuffer_filter kept mine
    rw [← sent, ← payloads, decodedAll, Option.map_some, eq_comm, Option.map_eq_some_iff] at whole
    obtain ⟨chunks, decoded, same⟩ := whole
    refine ⟨ended, own, proc, frames, chunks, admitted, started, ?_, decoded, ?_⟩
    · rw [sent, payloads]
      exact (flatten_filter_eq_iff kept _).mpr mine
    · rw [same]
      exact heard

end

/-- In every run of exchanges with a provider, whatever it sends and however its drains end: the
terminator, and a normal return of `synth_segment`, stand for a whole rendering of the call's request
exactly when every synthesis that gets as far as the pump of a client that stays completes, and what it
reads answers the call. -/
theorem faithful_iff_renders (rt : Runtime) {p q : ProviderProcess} {labels : List (Nat × ExchangeAct)}
    {w : Wire} (fresh : p.Fresh) (run : (ProviderProcess.exchanges.recorded Wire.note).Run (fun _ _ => True)
      (p, .blank) labels (q, w)) (i : TaskId) (conn : Connection)
    (read : conn.frames = some ((w.read i).map Prod.snd)) :
    Faithful rt conn w i ↔ Renders rt conn w i := by
  have accounted := ProviderProcess.accounted_of_run fresh run
  constructor
  · intro faithful stays proc r admitted built
    have ended := faithful.ended (audioEnd_mem_received.mpr ⟨stays, proc, r, admitted, built⟩)
    obtain ⟨rendered, aligned⟩ := (renderedFor_iff accounted read).mp ended
    exact ⟨(rendered_iff stays admitted built).mp rendered, aligned⟩
  · intro renders
    have ended : .audioEnd ∈ conn.received rt → RenderedFor rt conn w i := by
      intro terminated
      obtain ⟨stays, proc, r, admitted, built⟩ := audioEnd_mem_received.mp terminated
      obtain ⟨completes, aligned⟩ := renders stays proc r admitted built
      exact (renderedFor_iff accounted read).mpr ⟨(rendered_iff stays admitted built).mpr completes, aligned⟩
    exact ⟨ended, fun n returned => ended (Clients.audioEnd_of_synthSegment returned)⟩

def silence : Runtime where
  Stream := Unit
  soxr := ⟨fun s samples => (s, samples), fun _ => []⟩
  resampleStream _ _ := some ()
  resample _ _ := id
  streams _ _ _ _ := Transducer.computes_id (fun _ => rfl) rfl
  toS16 _ := 0
  repr text := "'" ++ text ++ "'"

def kokoro : ProviderProcess where
  provider := "kokoro-onnx"
  eager := true
  sampleRate := 24000
  voices := [⟨"af", "en-us", .female, none, []⟩]
  state := .ready
  lastActivity := 0

theorem kokoro_fresh : kokoro.Fresh := ⟨rfl, rfl, rfl, rfl, rfl, rfl, fun _ => rfl, fun _ => rfl, fun _ => rfl⟩

def failedMidway : Connection where
  request := some (.synthesize ⟨"af", 0, "", "Good morning."⟩)
  index := some (VoiceIndex.new.setProviderVoices "kokoro-onnx" [⟨"af", "en-us", .female, none, []⟩])
  ensureReady _ := .ready kokoro
  later := VoiceIndex.new.setProviderVoices "kokoro-onnx" [⟨"af", "en-us", .female, none, []⟩]
  frames := some [.synthesizeHeader 24000, .audioChunk [0, 0, 0, 0], .error "RuntimeError: CUDA out of memory"]
  client := ⟨none, fun _ => false, fun _ _ => rfl⟩

def wholeReply : Connection :=
  { failedMidway with frames := some [.synthesizeHeader 24000, .audioChunk [0, 0, 0, 0], .audioEnd] }

def greeting : Exchange := .synthesize ⟨"af", 0x3F800000, "en-us", "Good morning."⟩

def wired (labels : List (Nat × ExchangeAct)) : ProviderProcess × Wire :=
  (ProviderProcess.exchanges.recorded Wire.note).after (kokoro, .blank) labels

/-- Call 1 is closed after its first chunk, and call 2 drains the rest before it asks. -/
def drainedThenSpoken : List (Nat × ExchangeAct) :=
  [.enter 1 greeting, .begin 1, .flushed 1, .serveHeader 24000, .read 1, .serveChunk [1, 2, 3, 4],
    .read 1, .close 1, .enter 2 greeting, .begin 2, .serveEnd, .read 2, .flushed 2, .serveHeader 24000,
    .read 2, .serveChunk [0, 0, 0, 0], .read 2, .resume 2, .serveEnd, .read 2].map (0, ·)

theorem drainedThenSpoken_run : (ProviderProcess.exchanges.recorded Wire.note).Run (fun _ _ => True)
    (kokoro, .blank) drainedThenSpoken (wired drainedThenSpoken) :=
  System.Admits.run
    ⟨⟨rfl, trivial⟩, ⟨⟨_, rfl⟩, trivial⟩, ⟨⟨_, rfl⟩, trivial⟩, ⟨⟨rfl, 1, _, rfl⟩, trivial⟩,
      ⟨⟨rfl, rfl, nofun⟩, trivial⟩, ⟨nofun, trivial⟩, ⟨⟨rfl, rfl, nofun⟩, trivial⟩, ⟨rfl, trivial⟩,
      ⟨rfl, trivial⟩, ⟨⟨_, rfl⟩, trivial⟩, ⟨nofun, trivial⟩, ⟨⟨rfl, rfl, nofun⟩, trivial⟩,
      ⟨⟨_, rfl⟩, trivial⟩, ⟨⟨rfl, 2, _, rfl⟩, trivial⟩, ⟨⟨rfl, rfl, nofun⟩, trivial⟩, ⟨nofun, trivial⟩,
      ⟨⟨rfl, rfl, nofun⟩, trivial⟩, ⟨rfl, trivial⟩, ⟨nofun, trivial⟩, ⟨⟨rfl, rfl, nofun⟩, trivial⟩, trivial⟩

theorem drainedThenSpoken_aligned : Aligned (wired drainedThenSpoken).2 2 := by
  have only : (wired drainedThenSpoken).2.read 2 =
      [(some 2, .synthesizeHeader 24000), (some 2, .audioChunk [0, 0, 0, 0]), (some 2, .audioEnd)] := rfl
  constructor
  · rw [only]
    simp
  · intro t pcm heard
    rw [only] at heard
    simp at heard
    exact .inr heard.1

theorem wholeReply_faithful : Faithful silence wholeReply (wired drainedThenSpoken).2 2 := by
  refine (faithful_iff_renders silence kokoro_fresh drainedThenSpoken_run 2 wholeReply rfl).mpr ?_
  intro _ proc r admitted built
  cases admitted
  cases built
  have fits : Fits silence [0] := by unfold Fits; decide
  exact ⟨⟨_, rfl, [0], rfl, fits, fits_nil⟩, drainedThenSpoken_aligned⟩

def failingMidway : List (Nat × ExchangeAct) :=
  [.enter 1 greeting, .begin 1, .flushed 1, .serveHeader 24000, .read 1, .serveChunk [0, 0, 0, 0], .read 1,
    .resume 1, .serveError "RuntimeError: CUDA out of memory", .read 1].map (0, ·)

/-- Call 1 is cancelled before its header, the drain of call 2 gives up, and call 2 reads on. -/
def misread : List (Nat × ExchangeAct) :=
  [.enter 1 greeting, .begin 1, .flushed 1, .cancel 1 false, .enter 2 greeting, .begin 2, .timeout 2 false,
    .flushed 2, .serveHeader 24000, .read 2, .serveChunk [0, 0, 0, 0], .read 2, .resume 2, .serveEnd,
    .read 2].map (0, ·)

/-- An error in mid-stream, and the `audio_end` of another call, both come out as the end of a segment. -/
theorem failedMidway_looks_rendered :
    ((ProviderProcess.exchanges.recorded Wire.note).Run (fun _ _ => True) (kokoro, .blank) failingMidway
        (wired failingMidway) ∧
      failedMidway.frames = some (((wired failingMidway).2.read 1).map Prod.snd) ∧
      ¬Faithful silence failedMidway (wired failingMidway).2 1) ∧
    ((ProviderProcess.exchanges.recorded Wire.note).Run (fun _ _ => True) (kokoro, .blank) misread
        (wired misread) ∧
      wholeReply.frames = some (((wired misread).2.read 2).map Prod.snd) ∧
      ¬Faithful silence wholeReply (wired misread).2 2) := by
  refine ⟨⟨System.Admits.run ?_, rfl, fun faithful => ?_⟩, System.Admits.run ?_, rfl, fun faithful => ?_⟩
  · exact ⟨⟨rfl, trivial⟩, ⟨⟨_, rfl⟩, trivial⟩, ⟨⟨_, rfl⟩, trivial⟩, ⟨⟨rfl, 1, _, rfl⟩, trivial⟩,
      ⟨⟨rfl, rfl, nofun⟩, trivial⟩, ⟨nofun, trivial⟩, ⟨⟨rfl, rfl, nofun⟩, trivial⟩, ⟨rfl, trivial⟩,
      ⟨nofun, trivial⟩, ⟨⟨rfl, rfl, nofun⟩, trivial⟩, trivial⟩
  · exact nomatch (faithful.segment 2 (by decide)).ended
  · exact ⟨⟨rfl, trivial⟩, ⟨⟨_, rfl⟩, trivial⟩, ⟨⟨_, rfl⟩, trivial⟩, ⟨⟨rfl, nofun⟩, trivial⟩, ⟨rfl, trivial⟩,
      ⟨⟨_, rfl⟩, trivial⟩, ⟨⟨⟨_, rfl⟩, nofun⟩, trivial⟩, ⟨⟨_, rfl⟩, trivial⟩, ⟨⟨rfl, 1, _, rfl⟩, trivial⟩,
      ⟨⟨rfl, rfl, nofun⟩, trivial⟩, ⟨nofun, trivial⟩, ⟨⟨rfl, rfl, nofun⟩, trivial⟩, ⟨rfl, trivial⟩,
      ⟨nofun, trivial⟩, ⟨⟨rfl, rfl, nofun⟩, trivial⟩, trivial⟩
  · have foreign : (some 2, Response.audioEnd) ∉ (wired misread).2.read 2 := by decide
    exact foreign (faithful.segment 2 (by decide)).own

end Daemon

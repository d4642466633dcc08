import NeuralTts.Daemon.Rendering

/-! Whether a client that stays gets a complete reply. -/

namespace Daemon

open Library

/-- One error, or a header with audio chunks, none of them empty, and one terminating frame. -/
inductive CompleteReply : List Response → Prop
  | refused (message : String) : CompleteReply [.error message]
  | streamed (sampleRate : Int) (chunks : List Bytes) (last : Response) (heard : ∀ pcm ∈ chunks, pcm ≠ [])
      (terminates : last = .audioEnd ∨ ∃ message, last = .error message) :
      CompleteReply (.synthesizeHeader sampleRate :: chunks.map .audioChunk ++ [last])

def Unindexed (conn : Connection) : Prop :=
  ∃ synth, conn.request = some (.synthesize synth) ∧ synth.voice ≠ "" ∧ conn.index = none

structure Routed (conn : Connection) (voice target : String) : Prop where
  asked : ∃ synth, conn.request = some (.synthesize synth) ∧ synth.voice = voice
  voiced : voice ≠ ""
  found : ∃ idx, conn.index = some idx ∧ idx.providerFor voice = some target

def Admitted (conn : Connection) (proc : ProviderProcess) : Prop :=
  ∃ voice target, Routed conn voice target ∧ conn.ensureReady target = .ready proc ∧
    conn.later.localIdFor voice ∈ proc.voices.map Voice.id

inductive Refused (rt : Runtime) (conn : Connection) : String → Prop
  | unsupported (request : Request) (asked : conn.request = some request)
      (other : ∀ synth, request ≠ .synthesize synth) :
      Refused rt conn ("unsupported op " ++ (request.op.map rt.repr).getD "None")
  | voiceless (synth : SynthesizeRequest) (asked : conn.request = some (.synthesize synth))
      (voiceless : synth.voice = "") : Refused rt conn "missing 'voice'"
  | unknown (synth : SynthesizeRequest) (idx : VoiceIndex) (asked : conn.request = some (.synthesize synth))
      (voiced : synth.voice ≠ "") (indexed : conn.index = some idx)
      (absent : idx.providerFor synth.voice = none) :
      Refused rt conn ("unknown voice " ++ rt.repr synth.voice ++
        " (not found in any enabled provider; try `bin/neural-tts-ctl reload-voices`)")
  | notInstalled (voice target : String) (routed : Routed conn voice target)
      (raised : conn.ensureReady target = .notInstalled) :
      Refused rt conn ("provider " ++ rt.repr target ++
        " venv not found; run `mise run install-provider " ++ target ++ "` to install it")
  | failed (voice target text : String) (routed : Routed conn voice target)
      (raised : conn.ensureReady target = .failed text) : Refused rt conn ("provider unavailable: " ++ text)
  | gone (voice target : String) (proc : ProviderProcess) (routed : Routed conn voice target)
      (ready : conn.ensureReady target = .ready proc)
      (absent : conn.later.localIdFor voice ∉ proc.voices.map Voice.id) :
      Refused rt conn ("voice " ++ rt.repr voice ++ " no longer available in " ++ rt.repr target)

/-- The index can be had, a refusal fits into a frame, and a process that is to synthesize has a
sample rate that the resampler takes. -/
structure Answerable (rt : Runtime) (conn : Connection) : Prop where
  indexed : ¬Unindexed conn
  fits : ∀ message, Refused rt conn message → errorLength message ≤ maxFrameBytes
  opens : ∀ proc, Admitted conn proc →
    proc.sampleRate = wireSampleRate ∨ ∃ s, rt.resampleStream proc.sampleRate wireSampleRate = some s

variable {rt : Runtime} {conn : Connection} {client : Client} {written : Nat} {r : Resampler rt}
  {frames : List Response}

theorem not_completeReply_nil : ¬CompleteReply [] := nofun

theorem not_completeReply_header (sampleRate : Int) : ¬CompleteReply [.synthesizeHeader sampleRate] := by
  intro complete
  generalize shape : [Response.synthesizeHeader sampleRate] = reply at complete
  cases complete with
  | refused message => cases shape
  | streamed rate chunks last heard terminates =>
    have size := congrArg List.length shape
    simp at size

theorem completeReply_sendAndClose_iff (message : String) :
    CompleteReply (sendAndClose message) ↔ errorLength message ≤ maxFrameBytes := by
  unfold sendAndClose
  split
  · rename_i large
    exact iff_of_false not_completeReply_nil (Nat.not_le.mpr large)
  · rename_i small
    exact iff_of_true (.refused message) (Nat.not_lt.mp small)

theorem obtainProcess_cases (parsed : conn.request ≠ none) :
    (Unindexed conn ∧ obtainProcess rt conn = .error []) ∨
    (∃ message, Refused rt conn message ∧ obtainProcess rt conn = .error (sendAndClose message)) ∨
    ∃ proc, Admitted conn proc ∧ obtainProcess rt conn = .ok proc := by
  cases asked : conn.request with
  | none => exact absurd asked parsed
  | some request =>
    cases request with
    | synthesize synth =>
      by_cases voiceless : synth.voice = ""
      · exact .inr (.inl ⟨_, .voiceless synth asked voiceless, by simp [obtainProcess, asked, voiceless]⟩)
      · cases indexed : conn.index with
        | none => exact .inl ⟨⟨synth, asked, voiceless, indexed⟩, by simp [obtainProcess, asked, voiceless, indexed]⟩
        | some idx =>
          cases found : idx.providerFor synth.voice with
          | none =>
            exact .inr (.inl ⟨_, .unknown synth idx asked voiceless indexed found,
              by simp [obtainProcess, asked, voiceless, indexed, found]⟩)
          | some target =>
            have routed : Routed conn synth.voice target := ⟨⟨synth, asked, rfl⟩, voiceless, idx, indexed, found⟩
            cases ready : conn.ensureReady target with
            | notInstalled =>
              exact .inr (.inl ⟨_, .notInstalled _ _ routed ready,
                by simp [obtainProcess, asked, voiceless, indexed, found, ready]⟩)
            | failed text =>
              exact .inr (.inl ⟨_, .failed _ _ text routed ready,
                by simp [obtainProcess, asked, voiceless, indexed, found, ready]⟩)
            | ready proc =>
              by_cases present : conn.later.localIdFor synth.voice ∈ proc.voices.map Voice.id
              · refine .inr (.inr ⟨proc, ⟨_, target, routed, ready, present⟩, ?_⟩)
                simp only [obtainProcess, asked, if_neg voiceless, indexed, found, ready, if_pos present]
              · refine .inr (.inl ⟨_, .gone _ _ proc routed ready present, ?_⟩)
                simp only [obtainProcess, asked, if_neg voiceless, indexed, found, ready, if_neg present]
    | _ =>
      exact .inr (.inl ⟨_, .unsupported _ asked (by intro synth; exact nofun), by simp only [obtainProcess, asked]⟩)

theorem obtainProcess_of_unindexed (unindexed : Unindexed conn) : obtainProcess rt conn = .error [] := by
  obtain ⟨synth, asked, voiced, absent⟩ := unindexed
  simp [obtainProcess, asked, voiced, absent]

theorem obtainProcess_of_refused {message : String} (refused : Refused rt conn message) :
    obtainProcess rt conn = .error (sendAndClose message) := by
  cases refused with
  | unsupported request asked other =>
    cases request with
    | synthesize synth => exact absurd rfl (other synth)
    | _ => simp only [obtainProcess, asked]
  | voiceless synth asked voiceless => simp [obtainProcess, asked, voiceless]
  | unknown synth idx asked voiced indexed absent => simp [obtainProcess, asked, voiced, indexed, absent]
  | notInstalled voice target routed raised =>
    obtain ⟨⟨synth, asked, rfl⟩, voiced, idx, indexed, found⟩ := routed
    simp [obtainProcess, asked, voiced, indexed, found, raised]
  | failed voice target text routed raised =>
    obtain ⟨⟨synth, asked, rfl⟩, voiced, idx, indexed, found⟩ := routed
    simp [obtainProcess, asked, voiced, indexed, found, raised]
  | gone voice target proc routed ready absent =>
    obtain ⟨⟨synth, asked, rfl⟩, voiced, idx, indexed, found⟩ := routed
    simp only [obtainProcess, asked, if_neg voiced, indexed, found, ready, if_neg absent]

theorem obtainProcess_of_admitted {proc : ProviderProcess} (admitted : Admitted conn proc) :
    obtainProcess rt conn = .ok proc := by
  obtain ⟨voice, target, ⟨⟨synth, asked, rfl⟩, voiced, idx, indexed, found⟩, ready, present⟩ := admitted
  simp only [obtainProcess, asked, if_neg voiced, indexed, found, ready, if_pos present]

/-- The pump writes audio chunks, and only where there is something to hear. -/
theorem pump_eq_chunks :
    ∃ chunks : List Bytes, (pump rt client written r frames).1 = chunks.map .audioChunk ∧
      ∀ pcm ∈ chunks, pcm ≠ [] := by
  have single : ∀ samples : List Sample, samples ≠ [] →
      ∃ chunks : List Bytes, [Response.audioChunk (rt.float32ToS16leBytes samples)] = chunks.map .audioChunk ∧
        ∀ pcm ∈ chunks, pcm ≠ [] := by
    intro samples heard
    refine ⟨[rt.float32ToS16leBytes samples], rfl, ?_⟩
    intro pcm only
    rw [List.mem_singleton.mp only]
    exact mt eq_nil_of_bytes_eq_nil heard
  induction frames generalizing written r with
  | nil => exact ⟨[], rfl, nofun⟩
  | cons frame rest ih =>
    cases frame with
    | audioChunk pcm =>
      simp only [pump]
      split
      · exact ⟨[], rfl, nofun⟩
      · split
        · exact ih
        · rename_i heard
          split
          · exact ⟨[], rfl, nofun⟩
          · split
            · exact single _ heard
            · obtain ⟨first, one, firstHeard⟩ := single _ heard
              obtain ⟨chunks, later, laterHeard⟩ := @ih (written + 1) _
              refine ⟨first ++ chunks, ?_, ?_⟩
              · rw [List.map_append, ← one, later]
                rfl
              · intro pcm inside
                exact (List.mem_append.mp inside).elim (firstHeard pcm) (laterHeard pcm)
    | audioEnd =>
      simp only [pump]
      split
      · exact ⟨[], rfl, nofun⟩
      · rename_i heard
        split
        · exact ⟨[], rfl, nofun⟩
        · exact single _ heard
    | error message => exact ⟨[], rfl, nofun⟩
    | _ => exact ih

/-- After its header a reply is complete exactly when the resampler could be built. -/
theorem completeReply_handle_iff {proc : ProviderProcess} (admitted : Admitted conn proc) :
    CompleteReply (handleSpeechdConnection rt conn).1 ↔
      proc.sampleRate = wireSampleRate ∨ ∃ s, rt.resampleStream proc.sampleRate wireSampleRate = some s := by
  unfold handleSpeechdConnection
  rw [obtainProcess_of_admitted admitted]
  cases built : Resampler.new rt proc.sampleRate wireSampleRate with
  | none =>
    simp only [built]
    refine iff_of_false (not_completeReply_header _) ?_
    rintro (same | ⟨s, opened⟩)
    · simp [Resampler.new, same] at built
    · simp only [Resampler.new] at built
      split at built
      · cases built
      · simp [opened] at built
  | some r =>
    simp only [built]
    refine iff_of_true ?_ ?_
    · cases synthesizeStart conn.frames with
      | none => exact .streamed wireSampleRate [] .audioEnd nofun (.inl rfl)
      | some frames =>
        obtain ⟨chunks, out, heard⟩ := @pump_eq_chunks rt conn.client 1 r frames
        change CompleteReply (.synthesizeHeader wireSampleRate :: (pump rt conn.client 1 r frames).1 ++ [.audioEnd])
        rw [out]
        exact .streamed wireSampleRate chunks .audioEnd heard (.inl rfl)
    · by_cases same : proc.sampleRate = wireSampleRate
      · exact .inl same
      · simp only [Resampler.new, if_neg same] at built
        obtain ⟨s, opened, -⟩ := Option.map_eq_some_iff.mp built
        exact .inr ⟨s, opened⟩

theorem handle_of_error {refusal : List Response} (refused : obtainProcess rt conn = .error refusal) :
    (handleSpeechdConnection rt conn).1 = refusal := by
  rw [handleSpeechdConnection, refused]

/-- A client that stays gets one error, or a header with its chunks and a terminator, exactly when
the index can be had, the refusal fits and the resampler takes the rate of the process. -/
theorem completeReply_received_iff (rt : Runtime) (conn : Connection) (parsed : conn.request ≠ none)
    (stays : conn.client.leaves = none) : CompleteReply (conn.received rt) ↔ Answerable rt conn := by
  have everything : conn.received rt = (handleSpeechdConnection rt conn).1 := by
    simp [Connection.received, Client.received, stays]
  rw [everything]
  constructor
  · intro complete
    refine ⟨?_, ?_, ?_⟩
    · intro unindexed
      rw [handle_of_error (obtainProcess_of_unindexed unindexed)] at complete
      exact not_completeReply_nil complete
    · intro message refused
      rw [handle_of_error (obtainProcess_of_refused refused)] at complete
      exact (completeReply_sendAndClose_iff message).mp complete
    · intro proc admitted
      exact (completeReply_handle_iff admitted).mp complete
  · intro answerable
    obtain ⟨unindexed, -⟩ | ⟨message, refused, sent⟩ | ⟨proc, admitted, -⟩ := @obtainProcess_cases rt conn parsed
    · exact absurd unindexed answerable.indexed
    · rw [handle_of_error sent]
      exact (completeReply_sendAndClose_iff message).mpr (answerable.fits message refused)
    · exact (completeReply_handle_iff admitted).mpr (answerable.opens proc admitted)

/-- soxr as `silence` has it, and no stream for a rate that is not positive. -/
def positiveRates : Runtime :=
  { silence with
    resampleStream := fun inRate outRate => if 0 < inRate ∧ 0 < outRate then some () else none
    streams := fun _ _ _ _ => Transducer.computes_id (fun _ => rfl) rfl }

def withoutRate : Connection :=
  { failedMidway with
    ensureReady := fun _ => .ready
      { provider := "kokoro-onnx", eager := true, sampleRate := 0,
        voices := [⟨"af", "en-us", .female, none, []⟩], state := .ready, lastActivity := 0 } }

theorem received_withoutRate : withoutRate.received positiveRates = [.synthesizeHeader 24000] := by
  decide

theorem withoutRate_left_open :
    ¬∀ (rt : Runtime) (conn : Connection), (∀ inRate outRate, inRate ≤ 0 → rt.resampleStream inRate outRate = none) →
      conn.request ≠ none → conn.client.leaves = none → CompleteReply (conn.received rt) := by
  intro claimed
  have raises : ∀ inRate outRate, inRate ≤ 0 → positiveRates.resampleStream inRate outRate = none := by
    intro inRate outRate low
    exact if_neg fun positive => absurd positive.1 (Int.not_lt.mpr low)
  have complete := claimed positiveRates withoutRate raises nofun rfl
  rw [received_withoutRate] at complete
  exact not_completeReply_header _ complete

theorem failedMidway_answered : failedMidway.request ≠ none ∧ failedMidway.client.leaves = none ∧
    (CompleteReply (failedMidway.received positiveRates) ↔ Answerable positiveRates failedMidway) :=
  ⟨nofun, rfl, completeReply_received_iff positiveRates failedMidway nofun rfl⟩

end Daemon

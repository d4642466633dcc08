import NeuralTts.Daemon.Proxy
import NeuralTts.Provider.Framing
import NeuralTts.Provider.HandleSynthesize

/-! The loop in which a provider answers the daemon (`_serve`), from the bytes that it reads to the
frames that it writes, as the bundled providers share it. -/

namespace Provider

open Daemon Library

/-- The provider object: what its methods return and make of it. An exception is the text of the
error frame that reports it. -/
structure Backend (σ : Type) where
  /-- What `lang` is where a request has none. -/
  defaultLang : String
  warmup : σ → Except String (Int × List PbVoice) × σ
  listVoicesPb : σ → Except String (List PbVoice) × σ
  sampleRate : σ → Int
  synthesizeStream : σ → SynthesizeRequest → Synthesis × σ

/-- `f"{op!r}"` -/
def reprOp (request : Request) : String := (request.op.map fun op => "'" ++ op ++ "'").getD "None"

inductive Ended
  | returned
  | raised (e : ReadError)
deriving DecidableEq

/-- What comes of one request: the loop goes on, returns, or is left by an exception. -/
inductive Outcome (σ : Type)
  | answered (frames : List Response) (s : σ)
  | returned (frames : List Response)
  | raised (e : ReadError)

/-- The frames written for each request, and how the loop ended. -/
structure Served where
  replies : List (List Response)
  ended : Ended
deriving DecidableEq

section

variable {σ : Type} (requests : Codec Request) (responses : Codec Response) (b : Backend σ)

def size (response : Response) : Nat := (responses.serializeToString response).length

/-- The `_write` after the `except`: a response that is too large ends the loop. -/
def reply (response : Response) (s : σ) : Outcome σ :=
  if size responses response > maxFrameBytes then
    .raised (.protocol s!"frame too large: {size responses response}")
  else .answered [response] s

/-- The request as `_handle_synthesize` hands it on. -/
def Backend.asked (synth : SynthesizeRequest) : SynthesizeRequest :=
  { synth with
    speed := if synth.speed = 0 ∨ synth.speed = 0x80000000 then 0x3F800000 else synth.speed
    lang := if synth.lang = "" then b.defaultLang else synth.lang }

/-- The body of the loop, once a request is read. -/
def answer (s : σ) : Request → Outcome σ
  | .warmup =>
    match b.warmup s with
    | (.ok (sampleRate, voices), s) => reply responses (.warmup sampleRate voices) s
    | (.error message, s) => reply responses (.error message) s
  | .synthesize synth =>
    let streamed := b.synthesizeStream s (b.asked synth)
    .answered (handleSynthesize (b.sampleRate s) streamed.1) streamed.2
  | .listVoices =>
    match b.listVoicesPb s with
    | (.ok voices, s) => reply responses (.listVoices voices) s
    | (.error message, s) => reply responses (.error message) s
  | .shutdown =>
    if size responses .shutdown > maxFrameBytes then
      reply responses (.error (frameTooLarge (size responses .shutdown))) s
    else .returned [.shutdown]
  | request => reply responses (.error ("unsupported op " ++ reprOp request)) s

theorem length_readexactly_le (reader : Bytes) (n : Nat) :
    (readexactly reader n).2.length ≤ reader.length := by
  unfold readexactly
  split <;> simp

theorem length_readRequest_lt {reader rest : Bytes} {request : Request}
    (read : readRequest requests reader = (.ok request, rest)) : rest.length < reader.length := by
  rw [readRequest, readFrame] at read
  by_cases short : reader.length < 4
  · rw [readexactly_short short] at read
    cases read
  · have head : readexactly reader 4 = (.ok (reader.take 4), reader.drop 4) := if_pos (by omega)
    rw [head] at read
    dsimp only at read
    split at read
    · cases read
    · have body := length_readexactly_le (reader.drop 4) (unpackLength (reader.take 4))
      rw [List.length_drop] at body
      split at read
      · cases read
      · rename_i raw left returned
        rw [returned] at body
        have same : left = rest := congrArg Prod.snd read
        rw [← same]
        dsimp only at body
        omega

/-- `_serve` on what the daemon sends it before it closes its end. -/
def serve (s : σ) (reader : Bytes) : Served :=
  match _read : readRequest requests reader with
  | (.error (.protocol _), _) => ⟨[], .returned⟩
  | (.error e, _) => ⟨[], .raised e⟩
  | (.ok request, rest) =>
    match answer responses b s request with
    | .raised e => ⟨[], .raised e⟩
    | .returned frames => ⟨[frames], .returned⟩
    | .answered frames s =>
      let later := serve s rest
      ⟨frames :: later.replies, later.ended⟩
termination_by reader.length
decreasing_by exact length_readRequest_lt requests ‹_›

/-- The same loop over whole requests, which ends like this when there are no more. -/
def answerAll (last : Ended) (s : σ) : List Request → Served
  | [] => ⟨[], last⟩
  | request :: rest =>
    match answer responses b s request with
    | .raised e => ⟨[], .raised e⟩
    | .returned frames => ⟨[frames], .returned⟩
    | .answered frames s =>
      let later := answerAll last s rest
      ⟨frames :: later.replies, later.ended⟩

end

/-- How many bytes the generated code writes for the responses that `_serve` makes by itself. -/
structure Sized (responses : Codec Response) : Prop where
  audioChunk : ∀ pcm, size responses (.audioChunk pcm) = audioChunkLength pcm
  error : ∀ message, size responses (.error message) = errorLength message
  header : ∀ sampleRate, size responses (.synthesizeHeader sampleRate) ≤ maxFrameBytes
  audioEnd : size responses .audioEnd ≤ maxFrameBytes
  shutdown : size responses .shutdown ≤ maxFrameBytes

/-- No chunk and no exception text fills more memory than there can be. -/
def Backend.Bounded {σ : Type} (b : Backend σ) : Prop :=
  ∀ s synth, (∀ pcm ∈ (b.synthesizeStream s synth).1.samples, audioChunkLength pcm < 10 ^ 20) ∧
    ∀ message ∈ (b.synthesizeStream s synth).1.raised, errorLength message < 10 ^ 20

inductive Answers : Request → List Response → Prop
  | warmup (sampleRate : Int) (voices : List PbVoice) : Answers .warmup [.warmup sampleRate voices]
  | listVoices (voices : List PbVoice) : Answers .listVoices [.listVoices voices]
  | synthesize (synth : SynthesizeRequest) (sampleRate : Int) (chunks : List Bytes) (last : Response)
      (terminates : last = .audioEnd ∨ ∃ message, last = .error message) :
      Answers (.synthesize synth) (.synthesizeHeader sampleRate :: chunks.map .audioChunk ++ [last])
  | shutdown : Answers .shutdown [.shutdown]
  | failed (request : Request) (message : String) (other : ∀ synth, request ≠ .synthesize synth) :
      Answers request [.error message]

/-- The replies are those to the first requests, one whole reply to each in the order asked. There
are fewer only after a shutdown, which ends them, or where a reply does not fit a frame. -/
structure Served.InOrder (served : Served) (asked : List Request) : Prop where
  answers : List.Forall₂ Answers (asked.take served.replies.length) served.replies
  bound : served.replies.length ≤ asked.length
  silent : ∀ before after, asked.take served.replies.length = before ++ .shutdown :: after →
    after = [] ∧ served.ended = .returned
  complete : served.replies.length < asked.length →
    (∃ before, asked.take served.replies.length = before ++ [.shutdown]) ∨
      ∃ message, served.ended = .raised (.protocol message)

def Served.frames (served : Served) : List Response := served.replies.flatten

/-- All that was answered can be written, and the daemon reads it back frame by frame. -/
def Served.ReadBack (responses : Codec Response) (served : Served) : Prop :=
  (∀ frame ∈ served.frames, responses.Faithful frame ∧ responses.oneofSet frame = true) →
    ∃ wire, served.frames.foldlM (write responses) [] = .ok wire ∧
      (messageFraming responses).Delivers readMessageErrors.AtEnd served.frames served.frames.length wire

section

variable {σ : Type} {requests : Codec Request} {responses : Codec Response} {b : Backend σ} {s : σ}

theorem serve_of_ok {reader rest : Bytes} {request : Request}
    (read : readRequest requests reader = (.ok request, rest)) :
    serve requests responses b s reader =
      match answer responses b s request with
      | .raised e => ⟨[], .raised e⟩
      | .returned frames => ⟨[frames], .returned⟩
      | .answered frames s =>
        let later := serve requests responses b s rest
        ⟨frames :: later.replies, later.ended⟩ := by
  rw [serve]
  split <;> simp_all

theorem serve_of_error {reader rest : Bytes} {e : ReadError}
    (read : readRequest requests reader = (.error e, rest)) :
    ∃ last, serve requests responses b s reader = answerAll responses b last s [] := by
  rw [serve]
  split
  · exact ⟨.returned, rfl⟩
  · rename_i e' _ _ _
    exact ⟨.raised e', rfl⟩
  · simp_all

theorem answerAll_of_raised {last : Ended} {asked : List Request} {request : Request} {e : ReadError}
    (raised : answer responses b s request = .raised e) :
    answerAll responses b last s (request :: asked) = ⟨[], .raised e⟩ := by
  rw [answerAll, raised]

theorem answerAll_of_returned {last : Ended} {asked : List Request} {request : Request}
    {frames : List Response} (returned : answer responses b s request = .returned frames) :
    answerAll responses b last s (request :: asked) = ⟨[frames], .returned⟩ := by
  rw [answerAll, returned]

theorem answerAll_of_answered {last : Ended} {asked : List Request} {request : Request}
    {frames : List Response} {t : σ} (answered : answer responses b s request = .answered frames t) :
    answerAll responses b last s (request :: asked) =
      let later := answerAll responses b last t asked
      ⟨frames :: later.replies, later.ended⟩ := by
  rw [answerAll, answered]

/-- Wherever what the daemon wrote is cut, the loop answers the requests that lie wholly before the
cut, as if it was given these. -/
theorem serve_cut {asked : List Request} (framed : ∀ request ∈ asked, requests.Framed request) (s : σ)
    (cut : Nat) :
    ∃ n last, (requestFraming requests).FramesWithin asked cut n ∧
      serve requests responses b s (((requestFraming requests).wire asked).take cut) =
        answerAll responses b last s (asked.take n) := by
  have law : (requestFraming requests).Lawful requests.Framed readRequestErrors.AtEnd :=
    framing_lawful requests readRequestErrors
  have ends {reader : Bytes} (closed : ∃ e, readRequestErrors.AtEnd e ∧
      (requestFraming requests).read reader = (.error e, [])) (s : σ) :
      ∃ last, serve requests responses b s reader = answerAll responses b last s [] := by
    obtain ⟨e, -, read⟩ := closed
    exact serve_of_error read
  induction asked generalizing s cut with
  | nil =>
    obtain ⟨last, served⟩ := ends law.ended s
    refine ⟨0, last, .nil cut, ?_⟩
    rw [Framing.wire_nil, List.take_nil]
    exact served
  | cons request rest ih =>
    rw [List.forall_mem_cons] at framed
    by_cases whole : ((requestFraming requests).frame request).length ≤ cut
    · let further := cut - ((requestFraming requests).frame request).length
      let later := ((requestFraming requests).wire rest).take further
      have read :
          readRequest requests ((requestFraming requests).frame request ++ later) = (.ok request, later) :=
        law.whole request later framed.1
      have loop (s : σ) := @serve_of_ok _ requests responses b s _ _ _ read
      rw [Framing.take_wire_cons whole]
      cases outcome : answer responses b s request with
      | raised e =>
        obtain ⟨n, last, within, -⟩ := ih framed.2 s further
        refine ⟨n + 1, last, within.cons whole, ?_⟩
        rw [List.take_succ_cons, answerAll_of_raised outcome, loop, outcome]
      | returned frames =>
        obtain ⟨n, last, within, -⟩ := ih framed.2 s further
        refine ⟨n + 1, last, within.cons whole, ?_⟩
        rw [List.take_succ_cons, answerAll_of_returned outcome, loop, outcome]
      | answered frames t =>
        obtain ⟨n, last, within, same⟩ := ih framed.2 t further
        refine ⟨n + 1, last, within.cons whole, ?_⟩
        rw [List.take_succ_cons, answerAll_of_answered outcome, loop, outcome, ← same]
    · have short : cut < ((requestFraming requests).frame request).length := by omega
      obtain ⟨last, served⟩ := ends (law.read_short framed.1 short) s
      exact ⟨0, last, .short short, served⟩

theorem reply_cases (response : Response) (s : σ) :
    (size responses response ≤ maxFrameBytes ∧ reply responses response s = .answered [response] s) ∨
      ∃ message, reply responses response s = .raised (.protocol message) := by
  unfold reply
  split
  · exact .inr ⟨_, rfl⟩
  · rename_i small
    exact .inl ⟨Nat.not_lt.mp small, rfl⟩

theorem handleSynthesize_fits (sized : Sized responses) {synthesis : Synthesis} (sampleRate : Int)
    (chunks : ∀ pcm ∈ synthesis.samples, audioChunkLength pcm < 10 ^ 20)
    (raised : ∀ message ∈ synthesis.raised, errorLength message < 10 ^ 20) :
    ∀ frame ∈ handleSynthesize sampleRate synthesis, size responses frame ≤ maxFrameBytes := by
  have failed {message : String} (finite : errorLength message < 10 ^ 20) :
      size responses (errorFrame message) ≤ maxFrameBytes := by
    obtain ⟨text, same, fits⟩ := errorFrame_fits finite
    rw [same, sized.error]
    exact fits
  rw [handleSynthesize, List.forall_mem_cons]
  refine ⟨sized.header sampleRate, ?_⟩
  intro frame member
  rcases mem_streamBody member with rfl | ⟨pcm, rfl, fits⟩ | ⟨message, told, rfl⟩ | ⟨pcm, there, rfl⟩
  · exact sized.audioEnd
  · rw [sized.audioChunk]
    exact fits
  · exact failed (raised message told)
  · have finite := chunks pcm there
    apply failed
    have short := errorLength_frameTooLarge finite
    unfold maxFrameBytes at short
    omega

theorem answer_cases (sized : Sized responses) (bounded : b.Bounded) (s : σ) (request : Request) :
    (∃ frames t, answer responses b s request = .answered frames t ∧ request ≠ .shutdown ∧
        Answers request frames ∧ ∀ frame ∈ frames, size responses frame ≤ maxFrameBytes) ∨
      (request = .shutdown ∧ answer responses b s request = .returned [.shutdown]) ∨
      ∃ message, answer responses b s request = .raised (.protocol message) := by
  have replied {response : Response} (t : σ)
      (same : answer responses b s request = reply responses response t) (running : request ≠ .shutdown)
      (answers : Answers request [response]) :
      (∃ frames t, answer responses b s request = .answered frames t ∧ request ≠ .shutdown ∧
          Answers request frames ∧ ∀ frame ∈ frames, size responses frame ≤ maxFrameBytes) ∨
        (request = .shutdown ∧ answer responses b s request = .returned [.shutdown]) ∨
        ∃ message, answer responses b s request = .raised (.protocol message) := by
    rw [same]
    rcases reply_cases response t with ⟨fits, answered⟩ | raised
    · exact .inl ⟨[response], t, answered, running, answers, by simpa using fits⟩
    · exact .inr (.inr raised)
  cases request with
  | warmup =>
    cases outcome : b.warmup s with
    | mk returned t =>
      cases returned with
      | ok value => exact replied t (by simp only [answer, outcome]) (by simp) (.warmup value.1 value.2)
      | error message => exact replied t (by simp only [answer, outcome]) (by simp) (.failed _ message (by simp))
  | listVoices =>
    cases outcome : b.listVoicesPb s with
    | mk returned t =>
      cases returned with
      | ok voices => exact replied t (by simp only [answer, outcome]) (by simp) (.listVoices voices)
      | error message => exact replied t (by simp only [answer, outcome]) (by simp) (.failed _ message (by simp))
  | synthesize synth =>
    obtain ⟨chunks, raised⟩ := bounded s (b.asked synth)
    obtain ⟨payloads, last, body, terminates⟩ := streamBody_shape
      (b.synthesizeStream s (b.asked synth)).1.raised (b.synthesizeStream s (b.asked synth)).1.samples
    refine .inl ⟨_, _, rfl, (by simp), ?_, handleSynthesize_fits sized _ chunks raised⟩
    rw [handleSynthesize, body]
    exact .synthesize synth _ payloads last terminates
  | shutdown =>
    have small : answer responses b s .shutdown = .returned [.shutdown] :=
      if_neg (Nat.not_lt.mpr sized.shutdown)
    exact .inr (.inl ⟨rfl, small⟩)
  | registerClonedVoice id displayName language wav => exact replied s rfl (by simp) (.failed _ _ (by simp))
  | removeClonedVoice id => exact replied s rfl (by simp) (.failed _ _ (by simp))
  | unset => exact replied s rfl (by simp) (.failed _ _ (by simp))

theorem answerAll_inOrder (sized : Sized responses) (bounded : b.Bounded) (last : Ended) (s : σ)
    (asked : List Request) : (answerAll responses b last s asked).InOrder asked := by
  induction asked generalizing s with
  | nil => exact ⟨.nil, Nat.le_refl 0, by simp [answerAll], by simp [answerAll]⟩
  | cons request rest ih =>
    rcases answer_cases sized bounded s request with
      ⟨frames, t, answered, running, answers, -⟩ | ⟨rfl, returned⟩ | ⟨message, raised⟩
    · rw [answerAll_of_answered answered]
      have later := ih t
      refine ⟨.cons answers later.answers, Nat.succ_le_succ later.bound, ?_, ?_⟩
      · intro before after split
        rw [List.length_cons, List.take_succ_cons] at split
        cases before with
        | nil => exact absurd (List.cons.inj split).1 running
        | cons first before => exact later.silent before after (List.cons.inj split).2
      · intro fewer
        rcases later.complete (Nat.lt_of_succ_lt_succ fewer) with ⟨before, stopped⟩ | failed
        · exact .inl ⟨request :: before, by rw [List.length_cons, List.take_succ_cons, stopped]; rfl⟩
        · exact .inr failed
    · rw [answerAll_of_returned returned]
      refine ⟨.cons .shutdown .nil, by simp, ?_, fun _ => .inl ⟨[], rfl⟩⟩
      intro before after split
      cases before with
      | nil => exact ⟨(List.cons.inj split).2.symm, rfl⟩
      | cons first before => cases before <;> cases (List.cons.inj split).2
    · rw [answerAll_of_raised raised]
      exact ⟨.nil, Nat.zero_le _, by simp, fun _ => .inr ⟨message, rfl⟩⟩

theorem answerAll_fits (sized : Sized responses) (bounded : b.Bounded) (last : Ended) (s : σ)
    (asked : List Request) :
    ∀ frame ∈ (answerAll responses b last s asked).frames, size responses frame ≤ maxFrameBytes := by
  induction asked generalizing s with
  | nil => exact nofun
  | cons request rest ih =>
    rcases answer_cases sized bounded s request with
      ⟨frames, t, answered, -, -, fits⟩ | ⟨rfl, returned⟩ | ⟨message, raised⟩
    · rw [answerAll_of_answered answered]
      intro frame member
      rcases List.mem_append.mp member with now | later
      · exact fits frame now
      · exact ih t frame later
    · rw [answerAll_of_returned returned]
      intro frame member
      obtain rfl := List.mem_singleton.mp member
      exact sized.shutdown
    · rw [answerAll_of_raised raised]
      exact nofun

theorem foldlM_write {frames : List Response} (fits : ∀ frame ∈ frames, size responses frame ≤ maxFrameBytes)
    (writer : Bytes) :
    frames.foldlM (write responses) writer = .ok (writer ++ (messageFraming responses).wire frames) := by
  induction frames generalizing writer with
  | nil => rw [Framing.wire_nil, List.append_nil]; rfl
  | cons frame rest ih =>
    rw [List.forall_mem_cons] at fits
    have first : write responses writer frame = .ok (writer ++ responses.frame frame) := by
      have small : ¬(responses.serializeToString frame).length > maxFrameBytes := Nat.not_lt.mpr fits.1
      rw [write, writeFrame, if_neg small, Codec.frame, List.append_assoc]
    rw [List.foldlM_cons, first]
    change rest.foldlM (write responses) (writer ++ responses.frame frame) = _
    rw [ih fits.2, Framing.wire_cons, List.append_assoc]
    rfl

theorem readBack_of_fits {served : Served}
    (fits : ∀ frame ∈ served.frames, size responses frame ≤ maxFrameBytes) : served.ReadBack responses := by
  intro whole
  have framed : ∀ frame ∈ served.frames, responses.Framed frame := by
    intro frame member
    obtain ⟨faithful, set⟩ := whole frame member
    exact ⟨faithful.inverse, List.length_pos_iff.mpr (faithful.nonempty set), fits frame member⟩
  have law : (messageFraming responses).Lawful responses.Framed readMessageErrors.AtEnd :=
    framing_lawful responses readMessageErrors
  refine ⟨(messageFraming responses).wire served.frames, foldlM_write fits [], ?_⟩
  obtain ⟨n, within, delivers⟩ :=
    law.delivers_take served.frames framed ((messageFraming responses).wire served.frames).length
  have last := within.2 served.frames.length (Nat.le_refl _)
  rw [List.take_length] at last delivers
  have all : n = served.frames.length := Nat.le_antisymm within.1 (last.mp (Nat.le_refl _))
  rwa [all] at delivers

/-- Whatever the daemon asks and wherever its stream is cut, the provider answers the requests that
got through, in order and with a whole reply each, and the daemon can read all of it back. -/
theorem serve_inOrder {asked : List Request} {wire : Bytes}
    (faithful : ∀ request ∈ asked, requests.Faithful request)
    (set : ∀ request ∈ asked, requests.oneofSet request = true)
    (written : asked.foldlM (writeMessage requests) [] = .ok wire) (sized : Sized responses)
    (bounded : b.Bounded) (s : σ) (cut : Nat) :
    ∃ n last, (messageFraming requests).FramesWithin asked cut n ∧
      serve requests responses b s (wire.take cut) = answerAll responses b last s (asked.take n) ∧
      (serve requests responses b s (wire.take cut)).InOrder (asked.take n) ∧
      (serve requests responses b s (wire.take cut)).ReadBack responses := by
  obtain ⟨framed, bytes⟩ := writeFrame_all faithful set written
  have whole : wire = (requestFraming requests).wire asked := bytes
  obtain ⟨n, last, within, served⟩ : ∃ n last, (requestFraming requests).FramesWithin asked cut n ∧
      serve requests responses b s (wire.take cut) = answerAll responses b last s (asked.take n) := by
    rw [whole]
    exact serve_cut framed s cut
  refine ⟨n, last, within, served, ?_, ?_⟩
  · rw [served]
    exact answerAll_inOrder sized bounded last s _
  · rw [served]
    exact readBack_of_fits (answerAll_fits sized bounded last s _)

end

def sampleRequests : Codec Request where
  serializeToString
    | .warmup => [0x0a, 0x00]
    | .listVoices => [0x1a, 0x00]
    | .shutdown => [0x22, 0x00]
    | _ => []
  parseFromString raw :=
    if raw = [0x0a, 0x00] then .ok .warmup
    else if raw = [0x1a, 0x00] then .ok .listVoices
    else if raw = [0x22, 0x00] then .ok .shutdown
    else .error "Error parsing message"
  oneofSet request := decide (request ≠ .unset)

/-- The bytes of the generated code for the responses to `sampleAsked`; of an error and of a chunk only
the first byte and the length are right. -/
def sampleResponses : Codec Response where
  serializeToString
    | .error message => 0x0a :: List.replicate (errorLength message - 1) 0
    | .warmup 24000 [] => [0x12, 0x04, 0x08, 0xc0, 0xbb, 0x01]
    | .synthesizeHeader _ => [0x1a, 0x04, 0x08, 0xc0, 0xbb, 0x01]
    | .audioChunk pcm => 0x22 :: List.replicate (audioChunkLength pcm - 1) 0
    | .audioEnd => [0x2a, 0x00]
    | .listVoices [] => [0x32, 0x00]
    | .shutdown => [0x3a, 0x00]
    | _ => []
  parseFromString raw :=
    if raw = [0x12, 0x04, 0x08, 0xc0, 0xbb, 0x01] then .ok (.warmup 24000 [])
    else if raw = [0x1a, 0x04, 0x08, 0xc0, 0xbb, 0x01] then .ok (.synthesizeHeader 24000)
    else if raw = [0x2a, 0x00] then .ok .audioEnd
    else if raw = [0x32, 0x00] then .ok (.listVoices [])
    else if raw = [0x3a, 0x00] then .ok .shutdown
    else .error "Error parsing message"
  oneofSet response := decide (response ≠ .unset)

theorem sampleResponses_sized : Sized sampleResponses where
  audioChunk pcm := by
    have filled : 0 < audioChunkLength pcm := by unfold audioChunkLength fieldLength; omega
    show (0x22 :: List.replicate (audioChunkLength pcm - 1) 0).length = audioChunkLength pcm
    rw [List.length_cons, List.length_replicate]
    omega
  error message := by
    have filled : 0 < errorLength message := by unfold errorLength fieldLength; omega
    show (0x0a :: List.replicate (errorLength message - 1) 0).length = errorLength message
    rw [List.length_cons, List.length_replicate]
    omega
  header _ := (by decide : 6 ≤ maxFrameBytes)
  audioEnd := by decide
  shutdown := by decide

def voiceless : Backend Unit where
  defaultLang := "en"
  warmup s := (.ok (24000, []), s)
  listVoicesPb s := (.ok [], s)
  sampleRate _ := 24000
  synthesizeStream s _ := (⟨[], some "RuntimeError: unknown voice"⟩, s)

theorem voiceless_bounded : voiceless.Bounded := by
  intro s synth
  refine ⟨nofun, ?_⟩
  intro message told
  cases told
  decide

def sampleAsked : List Request := [.warmup, .listVoices, .shutdown, .listVoices]

def askedWire : Bytes :=
  [0, 0, 0, 2, 0x0a, 0, 0, 0, 0, 2, 0x1a, 0, 0, 0, 0, 2, 0x22, 0, 0, 0, 0, 2, 0x1a, 0]

theorem sampleAsked_faithful : ∀ request ∈ sampleAsked, sampleRequests.Faithful request := by
  simp only [sampleAsked, List.forall_mem_cons]
  exact ⟨⟨rfl, by decide⟩, ⟨rfl, by decide⟩, ⟨rfl, by decide⟩, ⟨rfl, by decide⟩, nofun⟩

theorem sampleReplies_faithful : ∀ frame ∈ [.warmup 24000 [], .listVoices [], .shutdown],
    sampleResponses.Faithful frame ∧ sampleResponses.oneofSet frame = true := by
  simp only [List.forall_mem_cons]
  exact ⟨⟨⟨rfl, by decide⟩, rfl⟩, ⟨⟨rfl, by decide⟩, rfl⟩, ⟨⟨rfl, by decide⟩, rfl⟩, nofun⟩

theorem sampleAnswered (last : Ended) (n : Nat) :
    (answerAll sampleResponses voiceless last () (sampleAsked.take n)).frames ⊆
      [.warmup 24000 [], .listVoices [], .shutdown] := by
  have listed : answer sampleResponses voiceless () .listVoices = .answered [.listVoices []] () := rfl
  have warmed : answer sampleResponses voiceless () .warmup = .answered [.warmup 24000 []] () := rfl
  have stopped : answer sampleResponses voiceless () .shutdown = .returned [.shutdown] := rfl
  unfold sampleAsked Served.frames
  rcases n with _ | _ | _ | n <;> simp [answerAll, warmed, listed, stopped]

/-- The daemon's end closes within its last request, which was behind the shutdown anyway. -/
theorem voiceless_inOrder :
    ∃ n last, (messageFraming sampleRequests).FramesWithin sampleAsked 20 n ∧
      serve sampleRequests sampleResponses voiceless () (askedWire.take 20) =
        answerAll sampleResponses voiceless last () (sampleAsked.take n) ∧
      (serve sampleRequests sampleResponses voiceless () (askedWire.take 20)).InOrder (sampleAsked.take n) ∧
      ∃ wire, (serve sampleRequests sampleResponses voiceless () (askedWire.take 20)).frames.foldlM
          (write sampleResponses) [] = .ok wire ∧
        (messageFraming sampleResponses).Delivers readMessageErrors.AtEnd
          (serve sampleRequests sampleResponses voiceless () (askedWire.take 20)).frames
          (serve sampleRequests sampleResponses voiceless () (askedWire.take 20)).frames.length wire := by
  obtain ⟨n, last, within, served, ordered, readBack⟩ :=
    serve_inOrder sampleAsked_faithful (by decide) rfl sampleResponses_sized voiceless_bounded () 20
  refine ⟨n, last, within, served, ordered, readBack fun frame member => ?_⟩
  rw [served] at member
  exact sampleReplies_faithful frame (sampleAnswered last n member)

end Provider

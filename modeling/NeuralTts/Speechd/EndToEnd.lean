import NeuralTts.Clients.EndToEnd
import NeuralTts.Speechd.Utterances

/-! From the texts that speechd sends to what paplay is given: the output module over the daemon over a
provider. -/

namespace Speechd

open Daemon Library
open Clients (Speaks Rendition)

namespace SpeechWorker

/-- What paplay has taken of the sound that has been read; after a failure some may be missing at the end. -/
def Plays (w : SpeechWorker) : Point → Prop
  | .announcing | .launching | .requesting | .awaiting | .testing | .reading => w.received.filterMap pcmOf = w.written
  | .writing pcm => w.received.filterMap pcmOf = w.written ++ [pcm]
  | .closing | .waiting _ | .cleaning | .deciding | .emitting _ | .done => w.written <+: w.received.filterMap pcmOf

variable {w : SpeechWorker} {act : WorkerAct} {rate : Int} {payloads : List Bytes}

theorem Plays.taken {point : Point} (plays : w.Plays point) : w.written <+: w.received.filterMap pcmOf := by
  cases point with
  | writing pcm =>
    have all : w.received.filterMap pcmOf = w.written ++ [pcm] := plays
    rw [all]
    exact List.prefix_append ..
  | announcing | launching | requesting | awaiting | testing | reading =>
    exact plays ▸ List.prefix_rfl
  | _ => exact plays

theorem filterMap_receive (w : SpeechWorker) (resp : Response) :
    (w.receive resp).received.filterMap pcmOf = w.received.filterMap pcmOf ++ (pcmOf resp).toList := by
  have all : (w.receive resp).received = w.received ++ [resp] := rfl
  rw [all, List.filterMap_append]
  cases pcm : pcmOf resp <;> simp [pcm]

theorem plays_gotHeader (plays : w.Plays .awaiting) (resp : Response) :
    ((w.receive resp).gotHeader resp).Plays ((w.receive resp).gotHeader resp).point := by
  have sound : w.received.filterMap pcmOf = w.written := plays
  have more := filterMap_receive w resp
  rw [sound] at more
  cases resp with
  | synthesizeHeader rate => exact more.trans (List.append_nil _)
  | _ =>
    show w.written <+: (w.receive _).received.filterMap pcmOf
    rw [more]
    exact List.prefix_append ..

theorem plays_gotFrame (plays : w.Plays .reading) (resp : Response) :
    ((w.receive resp).gotFrame resp).Plays ((w.receive resp).gotFrame resp).point := by
  have sound : w.received.filterMap pcmOf = w.written := plays
  have more := filterMap_receive w resp
  rw [sound] at more
  cases resp with
  | audioChunk pcm => exact more
  | audioEnd | error =>
    show w.written <+: (w.receive _).received.filterMap pcmOf
    rw [more]
    exact List.prefix_append ..
  | _ => exact more.trans (List.append_nil _)

theorem plays_next (plays : w.Plays w.point) (enabled : w.Enabled act) : (w.next act).Plays (w.next act).point := by
  have taken := plays.taken
  cases act with
  | stop =>
    show Plays _ w.point
    cases at_ : w.point <;> rw [at_] at plays <;> exact plays
  | announce | launch | request =>
    have at_ : w.point = _ := enabled
    rw [at_] at plays
    exact plays
  | header resp =>
    have at_ : w.point = .awaiting := enabled
    rw [at_] at plays
    exact plays_gotHeader plays resp
  | frame resp =>
    have at_ : w.point = .reading := enabled
    rw [at_] at plays
    exact plays_gotFrame plays resp
  | test =>
    have at_ : w.point = .testing := enabled
    rw [at_] at plays
    cases stop : w.stop with
    | true =>
      simp only [next, stop, if_true]
      exact taken
    | false =>
      simp only [next, stop]
      exact plays
  | write =>
    obtain ⟨pcm, at_⟩ := enabled
    rw [at_] at plays
    simp only [next, at_]
    exact plays
  | timeout =>
    obtain ⟨terminated, at_⟩ := enabled
    simp only [next, at_]
    cases terminated <;> exact taken
  | finish =>
    obtain ⟨event, at_⟩ := enabled
    simp only [next, at_]
    exact taken
  | raised | lost | broken | close | exit | clean | decide => exact taken

theorem plays_run {acts : List WorkerAct} (run : system.Run (fun _ _ => True) {} acts w) : w.Plays w.point :=
  @System.Run.invariant _ _ _ _ _ _ _ (fun w => w.Plays w.point)
    (fun _ _ plays enabled _ => plays_next plays enabled) run rfl

theorem delivered_of_end {history : List WorkerAct} (kept : w.Kept history) (ends : "702 END" ∈ w.emitted) :
    w.Delivered := by
  have begun (only : w.emitted = ["701 BEGIN"]) : w.Delivered := by
    rw [only] at ends
    exact absurd ends (by decide)
  have course := kept.course
  cases at_ : w.point with
  | announcing =>
    rw [at_] at course
    rw [course.2] at ends
    cases ends
  | emitting event =>
    rw [at_] at course
    exact begun course.2.1
  | done =>
    obtain ⟨event, emitted, told⟩ := kept.told at_
    rcases told with ⟨delivered, -, -⟩ | ⟨-, rfl⟩
    · exact delivered
    · rw [emitted] at ends
      exact absurd ends (by decide)
  | _ =>
    rw [at_] at course
    exact begun course.emitted

theorem filterMap_stream : (Response.synthesizeHeader rate :: (payloads.map .audioChunk ++ [.audioEnd])).filterMap pcmOf =
    payloads := by
  have chunks : (payloads.map Response.audioChunk).filterMap pcmOf = payloads := by
    rw [List.filterMap_map]
    exact List.filterMap_some
  rw [List.filterMap_cons_none rfl, List.filterMap_append, chunks]
  exact List.append_nil _

theorem written_of_delivered (delivered : w.Delivered)
    (reads : w.received <+: .synthesizeHeader rate :: (payloads.map .audioChunk ++ [.audioEnd])) :
    w.written = payloads := by
  obtain ⟨before, rate', between, after, received, written⟩ := delivered
  obtain ⟨rest, whole⟩ := reads
  have unended : .audioEnd ∉ Response.synthesizeHeader rate :: payloads.map Response.audioChunk := by simp
  -- nothing comes after the end
  have last : after ++ rest = [] := by
    by_contra more
    obtain ⟨initial, final, split⟩ := List.eq_nil_or_concat (after ++ rest) |>.resolve_left more
    apply unended
    rw [List.concat_eq_append] at split
    have same : (before ++ .synthesizeHeader rate' :: between ++ .audioEnd :: initial) ++ [final] =
        (.synthesizeHeader rate :: payloads.map .audioChunk) ++ [.audioEnd] := by
      rw [List.cons_append, ← whole, received]
      simp [split]
    rw [← (List.append_inj' same rfl).1]
    simp
  obtain ⟨rfl, rfl⟩ := List.append_eq_nil_iff.mp last
  have sound : w.received.filterMap pcmOf = payloads := by
    rw [List.append_nil] at whole
    rw [whole]
    exact filterMap_stream
  have header : pcmOf (.synthesizeHeader rate') = none := rfl
  have finish : pcmOf .audioEnd = none := rfl
  rw [← sound, received, written]
  simp [header, finish]

end SpeechWorker

namespace Workers

variable {rt : Runtime} {s : Workers} {said : Rendition}

theorem heard_of_apart {worker : Nat → SpeechWorker} (apart : s.Apart worker) {k : Nat} (started : k < s.count)
    (speaks : Speaks rt (s.threads k).text said) (reads : ((s.received k).map Prod.snd) <+: said.conn.received rt) :
    ((s.heard k).map Prod.snd).flatten <+: said.pcm rt ∧
      ((k, "702 END") ∈ s.workerLines → ((s.heard k).map Prod.snd).flatten = said.pcm rt) := by
  obtain ⟨acts, run⟩ := apart.lone k started
  have kept : (worker k).Kept acts := SpeechWorker.run_kept run SpeechWorker.start_kept
  obtain ⟨payloads, reply, whole⟩ := speaks.received
  have received : (s.received k).map Prod.snd = (worker k).received := by
    rw [apart.received k started, List.map_map]
    exact List.map_id _
  have heard : (s.heard k).map Prod.snd = (worker k).written := by
    rw [apart.heard k started, List.map_map]
    exact List.map_id _
  rw [received, reply] at reads
  rw [heard, ← whole]
  constructor
  · have taken : (worker k).written <+: payloads := by
      have sound := reads.filterMap SpeechWorker.pcmOf
      rw [SpeechWorker.filterMap_stream] at sound
      exact (SpeechWorker.plays_run run).taken.trans sound
    obtain ⟨rest, all⟩ := taken
    rw [← all, List.flatten_append]
    exact List.prefix_append ..
  · intro told
    rw [apart.lines, List.mem_flatMap] at told
    obtain ⟨j, -, member⟩ := told
    obtain ⟨event, emitted, same⟩ := List.mem_map.mp member
    cases same
    rw [SpeechWorker.written_of_delivered (SpeechWorker.delivered_of_end kept emitted) reads]

/-- In a session whose stops are in time, where the daemon has each text spoken, at whatever rate and
by whatever provider: each paplay is given the beginning of what was made of its own text, and `702 END`
is written of a text that it has been given whole. -/
theorem session_speaks (rt : Runtime) {labels : List WorkersAct} (run : system.Run InTime {} labels s)
    (replies : Nat → Rendition) (speaks : ∀ k < s.count, Speaks rt (s.threads k).text (replies k))
    (reads : ∀ k < s.count, ((s.received k).map Prod.snd) <+: (replies k).conn.received rt) :
    ((List.range s.count).map fun k => (s.threads k).text) <+: s.spoken ∧
      ∀ k < s.count, ((s.heard k).map Prod.snd).flatten <+: (replies k).pcm rt ∧
        ((k, "702 END") ∈ s.workerLines → ((s.heard k).map Prod.snd).flatten = (replies k).pcm rt) := by
  obtain ⟨worker, apart⟩ := run_apart run
  exact ⟨apart.texts, fun k started => heard_of_apart apart started (speaks k started) (reads k started)⟩

def greetedTwice : List WorkersAct :=
  [.speak "Hello you.".toList false, .clear, .spawn, .thread 0 (.work .announce), .thread 0 (.work .launch),
    .thread 0 (.work .request), .thread 0 .call, .thread 0 (.work (.header (.synthesizeHeader 24000))), .thread 0 .grab,
    .thread 0 (.work .test), .thread 0 .call, .thread 0 (.work (.frame (.audioChunk [0, 0, 0, 0]))),
    .thread 0 (.work .write), .halt true, .stop, .thread 0 (.work .test), .thread 0 (.work .close),
    .thread 0 (.work .exit), .thread 0 (.work .clean), .thread 0 (.work .decide), .thread 0 (.work .finish), .joined,
    .speak "Hello you.".toList false, .clear, .spawn, .thread 1 (.work .announce), .thread 1 (.work .launch),
    .thread 1 (.work .request), .thread 1 .call, .thread 1 (.work (.header (.synthesizeHeader 24000))), .thread 1 .grab,
    .thread 1 (.work .test), .thread 1 .call, .thread 1 (.work (.frame (.audioChunk [0, 0]))),
    .thread 1 (.work .write), .thread 1 (.work .test), .thread 1 .call, .thread 1 (.work (.frame .audioEnd)),
    .thread 1 (.work .close), .thread 1 (.work .exit), .thread 1 (.work .clean), .thread 1 (.work .decide),
    .thread 1 (.work .finish)]

def greetings : Nat → Rendition
  | 0 => Clients.spokenGreeting
  | _ =>
    { Clients.spokenGreeting with
      conn :=
        { Clients.spokenGreeting.conn with
          frames := some (Provider.handleSynthesize 24000 (Clients.synthesisOf [[7]])) }
      chunks := [[7]] }

theorem speaks_greetings (k : Nat) : Speaks silence "Hello you.".toList (greetings k) := by
  cases k with
  | zero => exact Clients.speaks_greeting
  | succ k =>
    exact ⟨rfl, ⟨_, rfl, rfl⟩, ⟨_, rfl, rfl⟩, ⟨24000, rfl⟩, by show ∀ chunk ∈ [[7]], _; decide,
      .same, rfl, by show ∀ out ∈ @Clients.outputs silence .same [[7]], _; unfold Daemon.Fits; decide⟩

theorem greetedTwice_heard :
    (((system.after {} greetedTwice).heard 0).map Prod.snd).flatten <+: (greetings 0).pcm silence ∧
      (((system.after {} greetedTwice).heard 1).map Prod.snd).flatten = (greetings 1).pcm silence := by
  have admitted : system.Admits InTime {} greetedTwice :=
    ⟨⟨⟨rfl, fun _ here => nomatch here⟩, nofun⟩, ⟨⟨_, rfl⟩, fun _ _ here => nomatch here⟩, ⟨⟨_, rfl⟩, nofun⟩,
      ⟨⟨by decide, rfl⟩, nofun⟩, ⟨⟨by decide, rfl⟩, nofun⟩, ⟨⟨by decide, rfl, nofun⟩, nofun⟩,
      ⟨⟨by decide, .inl rfl, nofun⟩, nofun⟩, ⟨⟨by decide, _, rfl⟩, nofun⟩, ⟨⟨by decide, rfl, nofun⟩, nofun⟩,
      ⟨⟨by decide, rfl⟩, nofun⟩, ⟨⟨by decide, .inr rfl, nofun⟩, nofun⟩, ⟨⟨by decide, _, rfl⟩, nofun⟩,
      ⟨⟨by decide, _, rfl⟩, nofun⟩, ⟨⟨rfl, nofun⟩, nofun⟩, ⟨⟨_, rfl⟩, nofun⟩, ⟨⟨by decide, rfl⟩, nofun⟩,
      ⟨⟨by decide, rfl⟩, nofun⟩, ⟨⟨by decide, _, rfl⟩, nofun⟩, ⟨⟨by decide, rfl⟩, nofun⟩,
      ⟨⟨by decide, rfl⟩, nofun⟩, ⟨⟨by decide, _, rfl⟩, nofun⟩, ⟨⟨⟨_, rfl⟩, fun | 0, _ => rfl⟩, nofun⟩,
      ⟨⟨rfl, fun | 0, _ => rfl⟩, nofun⟩, ⟨⟨_, rfl⟩, fun _ => fun | 0, _ => rfl⟩, ⟨⟨_, rfl⟩, nofun⟩,
      ⟨⟨by decide, rfl⟩, nofun⟩, ⟨⟨by decide, rfl⟩, nofun⟩, ⟨⟨by decide, rfl, nofun⟩, nofun⟩,
      ⟨⟨by decide, .inl rfl, nofun⟩, nofun⟩, ⟨⟨by decide, _, rfl⟩, nofun⟩, ⟨⟨by decide, rfl, nofun⟩, nofun⟩,
      ⟨⟨by decide, rfl⟩, nofun⟩, ⟨⟨by decide, .inr rfl, nofun⟩, nofun⟩, ⟨⟨by decide, _, rfl⟩, nofun⟩,
      ⟨⟨by decide, _, rfl⟩, nofun⟩, ⟨⟨by decide, rfl⟩, nofun⟩, ⟨⟨by decide, .inr rfl, nofun⟩, nofun⟩,
      ⟨⟨by decide, _, rfl⟩, nofun⟩, ⟨⟨by decide, rfl⟩, nofun⟩, ⟨⟨by decide, _, rfl⟩, nofun⟩,
      ⟨⟨by decide, rfl⟩, nofun⟩, ⟨⟨by decide, rfl⟩, nofun⟩, ⟨⟨by decide, _, rfl⟩, nofun⟩, trivial⟩
  have each {k : Nat} (started : k < 2) : k = 0 ∨ k = 1 := by omega
  have speaks : ∀ k < 2, Speaks silence ((system.after {} greetedTwice).threads k).text (greetings k) := by
    intro k started
    rcases each started with rfl | rfl
    · exact speaks_greetings 0
    · exact speaks_greetings 1
  have reads : ∀ k < 2, (((system.after {} greetedTwice).received k).map Prod.snd) <+:
      (greetings k).conn.received silence := by
    intro k started
    rcases each started with rfl | rfl
    · exact ⟨_, rfl⟩
    · exact ⟨[], rfl⟩
  have ended : (1, "702 END") ∈ (system.after {} greetedTwice).workerLines := by decide
  obtain ⟨-, utterances⟩ := session_speaks silence admitted.run greetings speaks reads
  exact ⟨(utterances 0 (by decide)).1, (utterances 1 (by decide)).2 ended⟩

end Workers

end Speechd

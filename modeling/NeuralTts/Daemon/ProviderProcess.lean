import Mathlib.Logic.Function.Basic
import NeuralTts.Library.FifoLock
import NeuralTts.Library.Transition
import NeuralTts.Daemon.Protocol

/-! One provider process as the supervisor sees it (`_ProviderProcess`), and the exchanges that
coroutines hold with it: the part of `Supervisor.synthesize` and `Supervisor.reload_voices`
after `ensure_ready`, with `_drain_if_needed`. One label is one stretch between two awaits. -/

namespace Daemon

open Library

abbrev TaskId := Nat

inductive ProviderState
  | stopped
  | starting
  | ready
  | shuttingDown
  | failed
deriving DecidableEq, Repr

/-- What a coroutine wants of the process once it holds the request lock. -/
inductive Exchange
  | synthesize (synth : SynthesizeRequest)
  | listVoices
deriving DecidableEq

/-- Where a coroutine stands in its exchange. `locked` is not a suspension: it is the start of
the block under `request_lock`. -/
inductive Phase
  | outside
  | queued (ex : Exchange)
  | locked (ex : Exchange)
  | draining (ex : Exchange)
  | flushing (ex : Exchange)
  | header
  | streaming
  | yielded
  | listing
  | finished
deriving DecidableEq

namespace Phase

def holds : Phase → Bool
  | .locked _ | .draining _ | .flushing _ | .header | .streaming | .yielded | .listing => true
  | .outside | .queued _ | .finished => false

def reads : Phase → Bool
  | .draining _ | .header | .streaming | .listing => true
  | _ => false

def suspended : Phase → Bool
  | .queued _ | .draining _ | .flushing _ | .header | .streaming | .yielded | .listing => true
  | .outside | .locked _ | .finished => false

theorem holds_of_reads {phase : Phase} (waits : phase.reads) : phase.holds := by
  cases phase <;> simp_all [reads, holds]

end Phase

/-- Who is suspended in the process's `StreamReader`. -/
inductive Reader
  | task (i : TaskId)
  | warmup
  | teardown
deriving DecidableEq

/-- Where a shielded `_do_shutdown` stands: before its write, awaiting the flush and the reply, awaiting the
exit, or in the `_kill` that follows. `finished true` is a `RuntimeError` that escaped it. -/
inductive Teardown
  | idle
  | writing
  | reading
  | waiting
  | terminating
  | killing
  | finished (raised : Bool)
deriving DecidableEq

/-- Where the shielded `_kill` of a failed warm-up stands. -/
inductive Killer
  | idle
  | terminating
  | killing
  | finished
deriving DecidableEq

structure ProviderProcess where
  provider : String
  /-- Whether `--eager-startup` is in its argv. -/
  eager : Bool
  sampleRate : Int := 0
  voices : List Voice := []
  state : ProviderState := .starting
  lastActivity : Nat
  requestLock : FifoLock TaskId := .unlocked
  needsDrain : Bool := false
  /-- Frames that the provider wrote and nobody has read, each with the call it answers. -/
  unread : List (Option TaskId × Response) := []
  /-- A length prefix was consumed without its body, so frame boundaries are lost. -/
  torn : Bool := false
  waiter : Option Reader := none
  /-- Requests in the provider's own read buffer, and the call that it is answering. -/
  requests : List (Option TaskId × Request) := []
  answering : Option TaskId := none
  phase : TaskId → Phase := fun _ => .outside
  /-- History: requests written by exchanges, chunks produced for and yielded by each call. -/
  sent : List (TaskId × Request) := []
  produced : TaskId → List Bytes := fun _ => []
  yielded : TaskId → List (Option TaskId × Bytes) := fun _ => []
  exited : Bool := false
  teardown : Teardown := .idle
  killer : Killer := .idle

/-- A failed read: `ProtocolError`, or an error of the connection. -/
inductive ReadError
  | protocol
  | connection
deriving DecidableEq

inductive ExchangeAct
  | enter (i : TaskId) (ex : Exchange)
  | acquire (i : TaskId)
  | begin (i : TaskId)
  | park (i : TaskId)
  | read (i : TaskId)
  | garble (i : TaskId) (b : Response)
  | collide (i : TaskId)
  | lost (i : TaskId) (error : ReadError)
  | timeout (i : TaskId) (tear : Bool)
  | flushed (i : TaskId)
  | unflushed (i : TaskId)
  | resume (i : TaskId)
  | close (i : TaskId)
  | cancel (i : TaskId) (tear : Bool)
  | serveHeader (sampleRate : Int)
  | serveChunk (pcm : Bytes)
  | serveEnd
  | serveError (message : String)
  | answer (b : Response)
  | emit (b : Response)

namespace ProviderProcess

variable (p : ProviderProcess) (i : TaskId)

def setPhase (phase : Phase) : ProviderProcess := { p with phase := Function.update p.phase i phase }

/-- The coroutine's wait on the reader, if it has one, is over. -/
def unpark : ProviderProcess :=
  { p with waiter := if p.waiter = some (.task i) then none else p.waiter }

def finish : ProviderProcess :=
  { p.setPhase i .finished with requestLock := p.requestLock.release }

def send (ex : Exchange) (req : Request) : ProviderProcess :=
  { p.setPhase i (.flushing ex) with
    requests := p.requests ++ [(some i, req)]
    sent := p.sent ++ [(i, req)] }

/-- `write_message(proc.writer, req)`, with the dirty mark that `synthesize` sets before it. -/
def write : Exchange → ProviderProcess
  | .synthesize synth =>
    let p := { p with needsDrain := true }
    if synthesizeLength synth > maxFrameBytes then p.finish i
    else p.send i (.synthesize synth) (.synthesize synth)
  | .listVoices => p.send i .listVoices .listVoices

/-- The first lines under `request_lock`: `_drain_if_needed` returns at once when the stream is
clean. -/
def beginExchange (ex : Exchange) : ProviderProcess :=
  if p.needsDrain then p.setPhase i (.draining ex) else p.write i ex

/-- `_drain_if_needed` is left by `TimeoutError` or `ProtocolError`: it marks the process and
returns, so its caller goes on to write. -/
def abandonDrain (ex : Exchange) : ProviderProcess :=
  ({ p with state := .failed, needsDrain := false } : ProviderProcess).write i ex

/-- What a frame does to the coroutine that reads it. -/
def react (now : Nat) (frame : Option TaskId × Response) : ProviderProcess :=
  match p.phase i with
  | .draining ex =>
    match frame.2 with
    | .audioEnd => ({ p with needsDrain := false } : ProviderProcess).write i ex
    | _ => p
  | .header =>
    match frame.2 with
    | .error _ => ({ p with needsDrain := false } : ProviderProcess).finish i
    | .synthesizeHeader _ => p.setPhase i .streaming
    | _ => p.finish i
  | .streaming =>
    let p := { p with lastActivity := now }
    match frame.2 with
    | .audioChunk pcm =>
      { p.setPhase i .yielded with
        yielded := Function.update p.yielded i (p.yielded i ++ [(frame.1, pcm)]) }
    | .audioEnd => ({ p with needsDrain := false } : ProviderProcess).finish i
    | .error _ => p.finish i
    | _ => p
  | .listing =>
    match frame.2 with
    | .listVoices voices => ({ p with voices := voices.map voiceFromPb } : ProviderProcess).finish i
    | _ => p.finish i
  | _ => p

/-- A read that raises. In the drain, `finally` clears the mark whatever the exception. -/
def raiseRead (error : ReadError) : ProviderProcess :=
  match p.phase i, error with
  | .draining ex, .protocol => p.abandonDrain i ex
  | .draining _, .connection => ({ p with needsDrain := false } : ProviderProcess).finish i
  | _, _ => p.finish i

/-- Cancellation, or `aclose`, at a suspension point. -/
def interrupt : ProviderProcess :=
  match p.phase i with
  | .queued _ => { p.setPhase i .finished with requestLock := p.requestLock.abandon i }
  | .draining _ => ({ p with needsDrain := false } : ProviderProcess).finish i
  | _ => p.finish i

def tearIf (tear : Bool) : ProviderProcess := { p with torn := p.torn || tear }

def pop : ProviderProcess := { p with unread := p.unread.tail }

def Enabled (p : ProviderProcess) : ExchangeAct → Prop
  | .enter i _ => p.phase i = .outside
  | .acquire i => (∃ ex, p.phase i = .queued ex) ∧ p.requestLock.Granted i
  | .begin i => ∃ ex, p.phase i = .locked ex
  | .park i => (p.phase i).reads ∧ p.waiter = none
  | .read i => (p.phase i).reads ∧ p.torn = false ∧ p.unread ≠ []
  | .garble i _ => (p.phase i).reads ∧ p.torn = true
  | .collide i => (p.phase i).reads ∧ p.waiter ≠ none ∧ p.waiter ≠ some (.task i)
  | .lost i _ => (p.phase i).reads
  | .timeout i tear => (∃ ex, p.phase i = .draining ex) ∧ (tear → p.unread ≠ [])
  | .flushed i | .unflushed i => ∃ ex, p.phase i = .flushing ex
  | .resume i | .close i => p.phase i = .yielded
  | .cancel i tear => (p.phase i).suspended ∧ (tear → (p.phase i).reads ∧ p.unread ≠ [])
  | .serveHeader _ => p.answering = none ∧ ∃ i synth, p.requests.head? = some (some i, .synthesize synth)
  | .serveChunk _ | .serveEnd | .serveError _ => p.answering ≠ none
  | .answer _ => p.answering = none ∧ p.requests ≠ []
  | .emit _ => True

def next (p : ProviderProcess) (now : Nat) : ExchangeAct → ProviderProcess
  | .enter i ex =>
    if p.requestLock.Idle then
      { p.setPhase i (.locked ex) with requestLock := p.requestLock.hold i }
    else { p.setPhase i (.queued ex) with requestLock := p.requestLock.enqueue i }
  | .acquire i =>
    match p.phase i with
    | .queued ex => { p.setPhase i (.locked ex) with requestLock := p.requestLock.grant i }
    | _ => p
  | .begin i =>
    match p.phase i with
    | .locked ex => p.beginExchange i ex
    | _ => p
  | .park i => { p with waiter := some (.task i) }
  | .read i =>
    match p.unread with
    | frame :: _ => (p.unpark i).pop.react i now frame
    | [] => p
  | .garble i b => (p.unpark i).react i now (none, b)
  -- A second coroutine waiting on one StreamReader gets RuntimeError.
  | .collide i => p.raiseRead i .connection
  | .lost i error => (p.unpark i).raiseRead i error
  | .timeout i tear =>
    match p.phase i with
    | .draining ex => ((p.unpark i).tearIf tear).abandonDrain i ex
    | _ => p
  | .flushed i =>
    match p.phase i with
    | .flushing (.synthesize _) => p.setPhase i .header
    | .flushing .listVoices => p.setPhase i .listing
    | _ => p
  | .unflushed i => p.finish i
  | .resume i => p.setPhase i .streaming
  | .close i => p.finish i
  | .cancel i tear => ((p.unpark i).tearIf tear).interrupt i
  | .serveHeader sampleRate =>
    match p.requests with
    | (t, _) :: rest =>
      { p with requests := rest, answering := t, unread := p.unread ++ [(t, .synthesizeHeader sampleRate)] }
    | [] => p
  | .serveChunk pcm =>
    { p with
      unread := p.unread ++ [(p.answering, .audioChunk pcm)]
      produced := match p.answering with
        | some i => Function.update p.produced i (p.produced i ++ [pcm])
        | none => p.produced }
  | .serveEnd => { p with answering := none, unread := p.unread ++ [(p.answering, .audioEnd)] }
  | .serveError message =>
    { p with answering := none, unread := p.unread ++ [(p.answering, .error message)] }
  | .answer b =>
    match p.requests with
    | (t, _) :: rest => { p with requests := rest, unread := p.unread ++ [(t, b)] }
    | [] => p
  | .emit b => { p with unread := p.unread ++ [(none, b)] }

/-- The exchanges with one process, as a system; a label carries the time at which it is taken. -/
def exchanges : System ProviderProcess (Nat × ExchangeAct) where
  enabled p label := p.Enabled label.2
  next p label := p.next label.1 label.2

end ProviderProcess

end Daemon

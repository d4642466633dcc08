import NeuralTts.Daemon.ProviderProcess

/-! How a provider process comes and goes: its warm-up, the shielded `_do_shutdown`, and the
shielded `_kill` of a process whose warm-up failed. -/

namespace Daemon

inductive TeardownAct
  | write
  | park
  | reply
  | giveUp (tear : Bool)
  | collide
  | terminate
  | kill
  | exited
deriving DecidableEq

inductive KillerAct
  | kill
  | exited
deriving DecidableEq

namespace ProviderProcess

variable (p : ProviderProcess)

def spawned (provider : String) (eager : Bool) (now : Nat) : ProviderProcess where
  provider := provider
  eager := eager
  lastActivity := now

/-- `_warmup` writes its request. -/
def requestWarmup : ProviderProcess := { p with requests := p.requests ++ [(none, .warmup)] }

def warmedUp (sampleRate : Int) (voices : List PbVoice) : ProviderProcess :=
  { p with sampleRate := sampleRate, voices := voices.map voiceFromPb, state := .ready }

/-- The `except` clause around the warm-up marks the process and starts the shielded `_kill`. -/
def failWarmup : ProviderProcess :=
  { p with
    state := .failed
    killer := .terminating
    waiter := if p.waiter = some .warmup then none else p.waiter }

/-- `_shutdown_locked` marks the process and starts the shielded `_do_shutdown`. -/
def beginTeardown : ProviderProcess := { p with state := .shuttingDown, teardown := .writing }

def leaveReader (reader : Reader) : ProviderProcess :=
  { p with waiter := if p.waiter = some reader then none else p.waiter }

def TeardownEnabled : TeardownAct → Prop
  | .write => p.teardown = .writing
  | .park => p.teardown = .reading ∧ p.waiter = none
  | .reply => p.teardown = .reading ∧ p.unread ≠ []
  | .giveUp tear => p.teardown = .reading ∧ (tear → p.unread ≠ [])
  | .collide => p.teardown = .reading ∧ p.waiter ≠ none ∧ p.waiter ≠ some .teardown
  | .terminate => p.teardown = .waiting
  | .kill => p.teardown = .terminating
  | .exited =>
    (p.teardown = .waiting ∨ p.teardown = .terminating ∨ p.teardown = .killing) ∧ p.exited = true

/-- `_do_shutdown`. Only `RuntimeError`, of a second coroutine waiting on the reader, is caught
by no clause of it. -/
def teardownStep : TeardownAct → ProviderProcess
  | .write => { p with teardown := .reading, requests := p.requests ++ [(none, .shutdown)] }
  | .park => { p with waiter := some .teardown }
  | .reply => { (p.leaveReader .teardown).pop with teardown := .waiting }
  | .giveUp tear => { (p.leaveReader .teardown).tearIf tear with teardown := .waiting }
  | .collide => { p with teardown := .finished true }
  | .terminate => { p with teardown := .terminating }
  | .kill => { p with teardown := .killing }
  | .exited => { p with teardown := .finished false, state := .stopped }

def KillerEnabled : KillerAct → Prop
  | .kill => p.killer = .terminating
  | .exited => (p.killer = .terminating ∨ p.killer = .killing) ∧ p.exited = true

def killerStep : KillerAct → ProviderProcess
  | .kill => { p with killer := .killing }
  | .exited => { p with killer := .finished }

end ProviderProcess

end Daemon

import NeuralTts.Daemon.Curation
import NeuralTts.Daemon.Teardown
import NeuralTts.Daemon.VoiceIndex

/-! The supervisor (`supervisor.py`) with the tasks that call it, `handle_speechd_connection`
among them, as a transition system. A label is one stretch of a task between two suspensions,
except that a task may also be left at the stages `entered` and `spawning`, which do not suspend. -/

namespace Daemon

open Library

abbrev ProcId := Nat

structure Settings extends Curation where
  registry : List String
  distinct : registry.Nodup
  /-- No table of `registry.toml` has an empty name. -/
  named : "" ∉ registry
  installed : String → Bool
  idleTimeoutSeconds : Int
  eagerStartup : Bool

def Settings.names (c : Settings) : List String := c.registry.insertionSort (· ≤ ·)

/-- The index entry by which a connection was routed. -/
structure Route where
  voice : String
  provider : String
  localId : String
deriving DecidableEq

/-- Who awaits `ensure_ready`: a control operation, `reload_voices`, the connection handler, or
the generator `synthesize`. -/
inductive Awaiter
  | caller
  | reloadVoices
  | connection (synth : SynthesizeRequest) (route : Route)
  | generator (synth : SynthesizeRequest) (route : Route)

/-- An operation under the lifecycle lock; `enumerate` keeps the connection that asked for it. -/
inductive Op
  | ensureReady (target : String) (awaiter : Awaiter)
  | switch (newName : String)
  | enumerate (todo : List String) (out : Dict String (List Voice)) (asked : Option SynthesizeRequest)
  | evict
  | shutdown

/-- What follows a reap. -/
inductive Sequel
  | spawn (name : String) (eager : Bool)
  | next
  | leave

/-- Where a task stands under the lifecycle lock. `creating` awaits `create_subprocess_exec`,
whose cancellation kills the child and awaits its exit in `abandoning`. -/
inductive Stage
  | entered
  | reaping (p : ProcId) (sequel : Sequel)
  | spawning (name : String) (eager : Bool)
  | creating (p : ProcId)
  | abandoning (p : ProcId)
  | connecting (p : ProcId)
  | warming (p : ProcId)
  | killing (p : ProcId) (cancelled : Bool)

inductive Task
  | absent
  | waiting (op : Op)
  | inside (op : Op) (stage : Stage)
  | exchanging (p : ProcId) (route : Option Route)
  | sleeping
  | done

structure Supervisor where
  procs : ProcId → ProviderProcess
  nextProc : ProcId
  active : Option ProcId
  lifecycleLock : FifoLock TaskId
  voiceIndex : VoiceIndex
  defaultProvider : String
  closing : Bool
  tasks : TaskId → Task

inductive SupervisorAct
  | connect (i : TaskId) (synth : SynthesizeRequest)
  | ensureReady (i : TaskId) (name : Option String)
  | reloadVoices (i : TaskId)
  | enumerateAll (i : TaskId)
  | switch (i : TaskId) (newName : String)
  | shutdown (i : TaskId)
  | startIdleLoop (i : TaskId)
  | wake (i : TaskId)
  | acquire (i : TaskId)
  | proceed (i : TaskId)
  | spawnFails (i : TaskId)
  | created (i : TaskId)
  | abandoned (i : TaskId)
  | connected (i : TaskId)
  | parkWarmup (i : TaskId)
  | readWarmup (i : TaskId)
  | failWarmup (i : TaskId)
  | reaped (i : TaskId)
  | killed (i : TaskId)
  | cancel (i : TaskId)
  | exchange (p : ProcId) (act : ExchangeAct)
  | teardown (p : ProcId) (act : TeardownAct)
  | killer (p : ProcId) (act : KillerAct)
  | exits (p : ProcId)

/-- The coroutine whose step it is; the other steps are the provider's. -/
def ExchangeAct.actor : ExchangeAct → Option TaskId
  | .enter i _ | .acquire i | .begin i | .park i | .read i | .garble i _ | .collide i | .lost i _
  | .timeout i _ | .flushed i | .unflushed i | .resume i | .close i | .cancel i _ => some i
  | .serveHeader _ | .serveChunk _ | .serveEnd | .serveError _ | .answer _ | .emit _ => none

def ExchangeAct.enters : ExchangeAct → Bool
  | .enter _ _ => true
  | _ => false

def Stage.suspended : Stage → Bool
  | .entered | .spawning _ _ => false
  | _ => true

/-- `handle_speechd_connection` fills in the defaults of the message; both zeros are false. -/
def withDefaults (synth : SynthesizeRequest) : SynthesizeRequest :=
  { synth with
    speed := if synth.speed = 0 ∨ synth.speed = 0x80000000 then 0x3F800000 else synth.speed
    lang := if synth.lang = "" then "en-us" else synth.lang }

/-- The end of `enumerate_all_voices`: the lists are curated and replace the index. -/
def Curation.populate (c : Curation) (idx : VoiceIndex) (out : Dict String (List Voice)) : VoiceIndex :=
  out.entries.foldl (fun idx slice => idx.setProviderVoices slice.1 (c.apply slice.1 slice.2)) idx.clear

namespace Supervisor

variable (c : Settings) (s : Supervisor) (now : Nat) (i : TaskId)

def setTask (task : Task) : Supervisor := { s with tasks := Function.update s.tasks i task }

def setProc (p : ProcId) (proc : ProviderProcess) : Supervisor :=
  { s with procs := Function.update s.procs p proc }

@[simp] theorem procs_setProc (p : ProcId) (proc : ProviderProcess) : (s.setProc p proc).procs p = proc :=
  Function.update_self ..

theorem setProc_self (p : ProcId) : s.setProc p (s.procs p) = s := by
  simp [setProc]

theorem setProc_setProc (p : ProcId) (first second : ProviderProcess) :
    (s.setProc p first).setProc p second = s.setProc p second := by
  simp [setProc]

/-- Enters `async with self._lifecycle_lock`, at once when the lock is free and nobody waits. -/
def beginOp (op : Op) : Supervisor :=
  if s.lifecycleLock.Idle then
    { s.setTask i (.inside op .entered) with lifecycleLock := s.lifecycleLock.hold i }
  else { s.setTask i (.waiting op) with lifecycleLock := s.lifecycleLock.enqueue i }

def leave (task : Task) : Supervisor :=
  { s.setTask i task with lifecycleLock := s.lifecycleLock.release }

/-- `name or (self._active.meta.name if self._active else self.default_provider)` -/
def targetName (name : Option String) : String :=
  match name with
  | some name => if name = "" then fallback else name
  | none => fallback
where
  fallback : String :=
    match s.active with
    | some p => (s.procs p).provider
    | none => s.defaultProvider

def enterExchange (p : ProcId) (ex : Exchange) (route : Option Route) : Supervisor :=
  (s.setProc p ((s.procs p).next now (.enter i ex))).setTask i (.exchanging p route)

/-- What a task does with the process that `ensure_ready` returned, up to its next suspension. -/
def arrive (p : ProcId) : Awaiter → Supervisor
  | .caller => s.setTask i .done
  | .reloadVoices => s.enterExchange now i p .listVoices none
  | .connection synth route =>
    if s.voiceIndex.localIdFor synth.voice ∈ (s.procs p).voices.map Voice.id then
      s.beginOp i (.ensureReady (s.targetName none) (.generator (withDefaults synth) route))
    else s.setTask i .done
  | .generator synth route =>
    let localVoice := s.voiceIndex.localIdFor synth.voice
    if localVoice ∈ (s.procs p).voices.map Voice.id then
      (s.setProc p { s.procs p with lastActivity := now }).enterExchange now i p
        (.synthesize { synth with voice := localVoice }) (some route)
    else s.setTask i .done

/-- The handler looks its voice up and asks for the provider that owns it. -/
def route (synth : SynthesizeRequest) : Supervisor :=
  match s.voiceIndex.providerFor synth.voice with
  | some provider =>
    s.beginOp i (.ensureReady (s.targetName (some provider))
      (.connection synth ⟨synth.voice, provider, s.voiceIndex.localIdFor synth.voice⟩))
  | none => s.setTask i .done

def loopTask : Task := if s.closing then .done else .sleeping

def idleLongEnough (p : ProcId) : Bool :=
  c.idleTimeoutSeconds ≤ ((now - (s.procs p).lastActivity : Nat) : Int)

def startReap (op : Op) (p : ProcId) (sequel : Sequel) : Supervisor :=
  (s.setProc p (s.procs p).beginTeardown).setTask i (.inside op (.reaping p sequel))

/-- An exception leaves the spawn; `enumerate_all_voices` goes on unless it is a cancellation. -/
def fail (op : Op) (cancelled : Bool) : Supervisor :=
  match op, cancelled with
  | .enumerate (_ :: todo) out asked, false => s.setTask i (.inside (.enumerate todo out asked) .entered)
  | _, _ => s.leave i .done

def enter : Op → Supervisor
  | .ensureReady target awaiter =>
    match s.active with
    | some p =>
      if (s.procs p).provider = target ∧ (s.procs p).state = .ready then
        (s.leave i .done).arrive now i p awaiter
      else s.startReap i (.ensureReady target awaiter) p (.spawn target true)
    | none => s.setTask i (.inside (.ensureReady target awaiter) (.spawning target true))
  | .switch newName =>
    match s.active with
    | some p =>
      if (s.procs p).provider = newName ∧ (s.procs p).state = .ready then s.leave i .done
      else s.startReap i (.switch newName) p (.spawn newName c.eagerStartup)
    | none => s.setTask i (.inside (.switch newName) (.spawning newName c.eagerStartup))
  | .enumerate [] out asked =>
    let s := { s.leave i .done with voiceIndex := c.populate s.voiceIndex out }
    match asked with
    | some synth => s.route i synth
    | none => s
  | .enumerate (name :: todo) out asked =>
    if c.installed name = false then s.setTask i (.inside (.enumerate todo out asked) .entered)
    else
      match s.active with
      | some p =>
        if (s.procs p).provider = name ∧ (s.procs p).state = .ready then
          s.setTask i (.inside (.enumerate todo (out.set name (s.procs p).voices) asked) .entered)
        else s.startReap i (.enumerate (name :: todo) out asked) p (.spawn name false)
      | none => s.setTask i (.inside (.enumerate (name :: todo) out asked) (.spawning name false))
  | .evict =>
    match s.active with
    | some p => if s.idleLongEnough c now p then s.startReap i .evict p .leave else s.leave i s.loopTask
    | none => s.leave i s.loopTask
  | .shutdown =>
    match s.active with
    | some p => s.startReap i .shutdown p .leave
    | none => s.leave i .done

def spawn (op : Op) (name : String) (eager : Bool) : Supervisor :=
  if name ∈ c.registry ∧ c.installed name = true then
    { (s.setProc s.nextProc (.spawned name eager now)).setTask i (.inside op (.creating s.nextProc)) with
      nextProc := s.nextProc + 1 }
  else s.fail i op false

def spawned (p : ProcId) : Op → Supervisor
  | .ensureReady _ awaiter => (s.leave i .done).arrive now i p awaiter
  | .switch newName => { s.leave i .done with defaultProvider := newName }
  | .enumerate (name :: todo) out asked =>
    s.startReap i (.enumerate todo (out.set name (s.procs p).voices) asked) p .next
  | .enumerate [] _ _ | .evict | .shutdown => s.leave i .done

def failWarmup (op : Op) (p : ProcId) (cancelled : Bool) : Supervisor :=
  (s.setProc p (s.procs p).failWarmup).setTask i (.inside op (.killing p cancelled))

/-- The shielded teardown is over; `raised` is the exception that escaped it. -/
def reaped (op : Op) (sequel : Sequel) (raised : Bool) : Supervisor :=
  let s := { s with active := none }
  match sequel, raised with
  | .spawn name eager, false => s.setTask i (.inside op (.spawning name eager))
  | .spawn _ _, true => s.fail i op false
  | .next, _ => s.setTask i (.inside op .entered)
  | .leave, true => s.leave i .done
  | .leave, false =>
    match op with
    | .evict => s.leave i s.loopTask
    | _ => s.leave i .done

def cancelInside (op : Op) : Stage → Supervisor
  | .reaping _ _ => { s.leave i .done with active := none }
  | .creating p => s.setTask i (.inside op (.abandoning p))
  | .warming p => s.failWarmup i op p true
  | .abandoning _ | .connecting _ | .killing _ _ => s.leave i .done
  | .entered | .spawning _ _ => s

def wake : Supervisor :=
  match s.active with
  | some p =>
    if 0 < c.idleTimeoutSeconds ∧ (s.procs p).state = .ready ∧ s.idleLongEnough c now p then
      s.beginOp i .evict
    else s.setTask i s.loopTask
  | none => s.setTask i s.loopTask

def Exchanging (p : ProcId) : Option TaskId → Prop
  | some i => ∃ route, s.tasks i = .exchanging p route
  | none => True

def Enabled (s : Supervisor) : SupervisorAct → Prop
  | .connect i _ | .ensureReady i _ | .reloadVoices i | .enumerateAll i | .switch i _ | .shutdown i
  | .startIdleLoop i => s.tasks i = .absent
  | .wake i => s.tasks i = .sleeping
  | .acquire i => (∃ op, s.tasks i = .waiting op) ∧ s.lifecycleLock.Granted i
  | .proceed i => ∃ op stage, s.tasks i = .inside op stage ∧ stage.suspended = false
  | .spawnFails i => ∃ op name eager, s.tasks i = .inside op (.spawning name eager)
  | .created i => ∃ op p, s.tasks i = .inside op (.creating p)
  | .abandoned i => ∃ op p, s.tasks i = .inside op (.abandoning p) ∧ (s.procs p).exited = true
  | .connected i => ∃ op p, s.tasks i = .inside op (.connecting p)
  | .parkWarmup i => ∃ op p, s.tasks i = .inside op (.warming p) ∧ (s.procs p).waiter = none
  | .readWarmup i => ∃ op p, s.tasks i = .inside op (.warming p) ∧ (s.procs p).unread ≠ []
  | .failWarmup i => ∃ op p, s.tasks i = .inside op (.warming p)
  | .reaped i => ∃ op p sequel raised, s.tasks i = .inside op (.reaping p sequel) ∧
      (s.procs p).teardown = .finished raised
  | .killed i => ∃ op p cancelled, s.tasks i = .inside op (.killing p cancelled) ∧
      (s.procs p).killer = .finished
  | .cancel i => s.tasks i = .sleeping ∨ (∃ op, s.tasks i = .waiting op) ∨
      ∃ op stage, s.tasks i = .inside op stage ∧ stage.suspended = true
  | .exchange p act => p < s.nextProc ∧ act.enters = false ∧ (s.procs p).Enabled act ∧
      s.Exchanging p act.actor
  | .teardown p act => (s.procs p).TeardownEnabled act
  | .killer p act => (s.procs p).KillerEnabled act
  | .exits p => p < s.nextProc ∧ (s.procs p).exited = false

def next (s : Supervisor) (now : Nat) : SupervisorAct → Supervisor
  | .connect i synth =>
    if synth.voice = "" then s.setTask i .done
    else if s.voiceIndex.isEmpty then s.beginOp i (.enumerate c.names ∅ (some synth))
    else s.route i synth
  | .ensureReady i name => s.beginOp i (.ensureReady (s.targetName name) .caller)
  | .reloadVoices i => s.beginOp i (.ensureReady (s.targetName none) .reloadVoices)
  | .enumerateAll i => s.beginOp i (.enumerate c.names ∅ none)
  | .switch i newName =>
    if newName ∈ c.registry ∧ c.installed newName = true then s.beginOp i (.switch newName)
    else s.setTask i .done
  -- The cancellation of the idle task is a step of its own.
  | .shutdown i => ({ s with closing := true } : Supervisor).beginOp i .shutdown
  | .startIdleLoop i => s.setTask i s.loopTask
  | .wake i => s.wake c now i
  | .acquire i =>
    match s.tasks i with
    | .waiting op => { s.setTask i (.inside op .entered) with lifecycleLock := s.lifecycleLock.grant i }
    | _ => s
  | .proceed i =>
    match s.tasks i with
    | .inside op .entered => s.enter c now i op
    | .inside op (.spawning name eager) => s.spawn c now i op name eager
    | _ => s
  | .spawnFails i =>
    match s.tasks i with
    | .inside op (.spawning _ _) => s.fail i op false
    | _ => s
  | .created i =>
    match s.tasks i with
    | .inside op (.creating p) => s.setTask i (.inside op (.connecting p))
    | _ => s
  | .abandoned i => s.leave i .done
  | .connected i =>
    match s.tasks i with
    | .inside op (.connecting p) =>
      { (s.setProc p (s.procs p).requestWarmup).setTask i (.inside op (.warming p)) with active := some p }
    | _ => s
  | .parkWarmup i =>
    match s.tasks i with
    | .inside _ (.warming p) => s.setProc p { s.procs p with waiter := some .warmup }
    | _ => s
  | .readWarmup i =>
    match s.tasks i with
    | .inside op (.warming p) =>
      let read := s.setProc p ((s.procs p).leaveReader .warmup).pop
      match (s.procs p).unread with
      | (_, .warmup sampleRate voices) :: _ =>
        (read.setProc p ((read.procs p).warmedUp sampleRate voices)).spawned now i p op
      | _ => read.failWarmup i op p false
    | _ => s
  | .failWarmup i =>
    match s.tasks i with
    | .inside op (.warming p) => s.failWarmup i op p false
    | _ => s
  | .reaped i =>
    match s.tasks i with
    | .inside op (.reaping p sequel) =>
      match (s.procs p).teardown with
      | .finished raised => s.reaped i op sequel raised
      | _ => s
    | _ => s
  | .killed i =>
    match s.tasks i with
    | .inside op (.killing _ cancelled) => ({ s with active := none } : Supervisor).fail i op cancelled
    | _ => s
  | .cancel i =>
    match s.tasks i with
    | .waiting _ => { s.setTask i .done with lifecycleLock := s.lifecycleLock.abandon i }
    | .inside op stage => s.cancelInside i op stage
    | _ => s.setTask i .done
  | .exchange p act => s.setProc p ((s.procs p).next now act)
  | .teardown p act => s.setProc p ((s.procs p).teardownStep act)
  | .killer p act => s.setProc p ((s.procs p).killerStep act)
  | .exits p => s.setProc p { s.procs p with exited := true }

def system (c : Settings) : System Supervisor (Nat × SupervisorAct) where
  enabled s label := s.Enabled label.2
  next s label := s.next c label.1 label.2

def start (defaultProvider : String) : Supervisor where
  procs _ := .spawned "" false 0
  nextProc := 0
  active := none
  lifecycleLock := .unlocked
  voiceIndex := .new
  defaultProvider := defaultProvider
  closing := false
  tasks _ := .absent

end Supervisor

end Daemon

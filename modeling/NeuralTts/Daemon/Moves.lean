import NeuralTts.Daemon.Lifecycle

/-! What one step of the supervisor does to its tasks and processes. The lifecycle lock, the
default provider and the closing flag are left out: a step may change them as it likes. -/

namespace Daemon

open Library

def Op.spawn (c : Settings) : Op → Option (String × Bool)
  | .ensureReady target _ => some (target, true)
  | .switch newName => some (newName, c.eagerStartup)
  | .enumerate (name :: _) _ _ => some (name, false)
  | .enumerate [] _ _ | .evict | .shutdown => none

theorem Op.wanted_of_spawn {c : Settings} {op : Op} {name : String} {eager : Bool}
    (spawn : op.spawn c = some (name, eager)) : op.wanted = some name := by
  cases op with
  | enumerate todo out asked =>
    cases todo with
    | nil => cases spawn
    | cons wanted todo =>
      cases spawn
      rfl
  | ensureReady target awaiter =>
    cases spawn
    rfl
  | switch newName =>
    cases spawn
    rfl
  | evict => cases spawn
  | shutdown => cases spawn

/-- Neither under the lifecycle lock nor in an exchange, and not yet done. -/
def Task.Aside : Task → Prop
  | .absent | .sleeping | .waiting _ => True
  | .inside _ _ | .exchanging _ _ | .done => False

inductive Begun (op : Op) : Task → Prop
  | waiting : Begun op (.waiting op)
  | entered : Begun op (.inside op .entered)

inductive Thrown : Op → Task → Prop
  | ended (op : Op) : Thrown op .done
  | skipped (name : String) (todo : List String) (out : Dict String (List Voice))
      (asked : Option SynthesizeRequest) :
      Thrown (.enumerate (name :: todo) out asked) (.inside (.enumerate todo out asked) .entered)

inductive Removed (op : Op) : Stage → Task → Prop
  | spawns (p : ProcId) (name : String) (eager : Bool) :
      Removed op (.reaping p (.spawn name eager)) (.inside op (.spawning name eager))
  | continues (p : ProcId) : Removed op (.reaping p .next) (.inside op .entered)
  | throws {task : Task} (p : ProcId) (name : String) (eager : Bool) (thrown : Thrown op task) :
      Removed op (.reaping p (.spawn name eager)) task
  | killed {task : Task} (p : ProcId) (cancelled : Bool) (thrown : Thrown op task) :
      Removed op (.killing p cancelled) task
  | ends {task : Task} (p : ProcId) (sequel : Sequel) (resting : task = .done ∨ task = .sleeping) :
      Removed op (.reaping p sequel) task

/-- A process reads the answer to its warm-up. -/
inductive ProviderProcess.Warms (p : ProviderProcess) : ProviderProcess → Prop
  | ready {asked : Option TaskId} {sampleRate : Int} {voices : List PbVoice}
      {rest : List (Option TaskId × Response)}
      (answered : p.unread = (asked, .warmup sampleRate voices) :: rest) :
      Warms p ((p.leaveReader .warmup).pop.warmedUp sampleRate voices)

def Task.pursues : Task → Option Op
  | .waiting op | .inside op _ => some op
  | .absent | .exchanging _ _ | .sleeping | .done => none

theorem Begun.pursues {op : Op} {task : Task} (begun : Begun op task) : task.pursues = some op := by
  cases begun <;> rfl

theorem Begun.at_entered {op other : Op} {stage : Stage} {task : Task} (begun : Begun op task)
    (at_ : task = .inside other stage) : stage = .entered := by
  cases begun with
  | waiting => cases at_
  | entered =>
    cases at_
    rfl

theorem Thrown.at_entered {op other : Op} {stage : Stage} {task : Task} (thrown : Thrown op task)
    (at_ : task = .inside other stage) : stage = .entered := by
  cases thrown with
  | ended => cases at_
  | skipped =>
    cases at_
    rfl

namespace Supervisor

inductive Works (s : Supervisor) (now : Nat) (p : ProcId) : SupervisorAct → ProviderProcess → Prop
  | exchange {act : ExchangeAct} (born : p < s.nextProc) (enters : act.enters = false)
      (enabled : (s.procs p).Enabled act) (actor : s.Exchanging p act.actor) :
      Works s now p (.exchange p act) ((s.procs p).next now act)
  | teardown {act : TeardownAct} (enabled : (s.procs p).TeardownEnabled act) :
      Works s now p (.teardown p act) ((s.procs p).teardownStep act)
  | killer {act : KillerAct} (enabled : (s.procs p).KillerEnabled act) :
      Works s now p (.killer p act) ((s.procs p).killerStep act)
  | exits : Works s now p (.exits p) { s.procs p with exited := true }
  | parks {i : TaskId} {op : Op} (inside : s.tasks i = .inside op (.warming p)) :
      Works s now p (.parkWarmup i) { s.procs p with waiter := some .warmup }

/-- Why a task gives the lock up while `_active` stays. -/
inductive Leaves (s : Supervisor) (i : TaskId) : SupervisorAct → Stage → Prop
  | returns {act : SupervisorAct} : Leaves s i act .entered
  | fails {act : SupervisorAct} (name : String) (eager : Bool) : Leaves s i act (.spawning name eager)
  | abandoned {p : ProcId} (exited : (s.procs p).exited = true) : Leaves s i (.abandoned i) (.abandoning p)
  | abandons (p : ProcId) : Leaves s i (.cancel i) (.abandoning p)
  | disconnects (p : ProcId) : Leaves s i (.cancel i) (.connecting p)
  | kills (p : ProcId) (cancelled : Bool) : Leaves s i (.cancel i) (.killing p cancelled)

/-- Why a task sets `_active` to None. -/
inductive Clears (s : Supervisor) (i : TaskId) : SupervisorAct → Stage → Prop
  | reaped {p : ProcId} {sequel : Sequel} {raised : Bool}
      (finished : (s.procs p).teardown = .finished raised) : Clears s i (.reaped i) (.reaping p sequel)
  | killed {p : ProcId} {cancelled : Bool} (finished : (s.procs p).killer = .finished) :
      Clears s i (.killed i) (.killing p cancelled)
  | cancelled (p : ProcId) (sequel : Sequel) : Clears s i (.cancel i) (.reaping p sequel)

/-- An operation that a task may ask for. -/
inductive Asks (c : Settings) (s : Supervisor) : Op → Prop
  | ensureReady (name : Option String) : Asks c s (.ensureReady (s.targetName name) .caller)
  | reloadVoices : Asks c s (.ensureReady (s.targetName none) .reloadVoices)
  | enumerate (asked : Option SynthesizeRequest) : Asks c s (.enumerate c.names ∅ asked)
  | switch (newName : String) : Asks c s (.switch newName)
  | evict : Asks c s .evict
  | shutdown : Asks c s .shutdown
  | routes {provider : String} (synth : SynthesizeRequest)
      (found : s.voiceIndex.providerFor synth.voice = some provider) :
      Asks c s (.ensureReady (s.targetName (some provider))
        (.connection synth ⟨synth.voice, provider, s.voiceIndex.localIdFor synth.voice⟩))

inductive Arrival (s : Supervisor) (now : Nat) (i : TaskId) (p : ProcId) :
    Awaiter → ProviderProcess → Task → Prop
  | ends (awaiter : Awaiter) : Arrival s now i p awaiter (s.procs p) .done
  | lists : Arrival s now i p .reloadVoices ((s.procs p).next now (.enter i .listVoices))
      (.exchanging p none)
  | streams {task : Task} (synth : SynthesizeRequest) (route : Route)
      (listed : s.voiceIndex.localIdFor synth.voice ∈ (s.procs p).voices.map Voice.id)
      (begun : Begun (.ensureReady (s.targetName none) (.generator (withDefaults synth) route)) task) :
      Arrival s now i p (.connection synth route) (s.procs p) task
  | synthesizes (synth : SynthesizeRequest) (route : Route)
      (listed : s.voiceIndex.localIdFor synth.voice ∈ (s.procs p).voices.map Voice.id) :
      Arrival s now i p (.generator synth route)
        (({ s.procs p with lastActivity := now } : ProviderProcess).next now
          (.enter i (.synthesize { synth with voice := s.voiceIndex.localIdFor synth.voice })))
        (.exchanging p (some route))

inductive Advance (c : Settings) (s : Supervisor) : Op → Stage → Op → Stage → Prop
  | wants {op : Op} {name : String} {eager : Bool} (wanted : op.spawn c = some (name, eager))
      (vacant : s.active = none) : Advance c s op .entered op (.spawning name eager)
  | passes (name : String) (todo : List String) (out : Dict String (List Voice))
      (asked : Option SynthesizeRequest) :
      Advance c s (.enumerate (name :: todo) out asked) .entered (.enumerate todo out asked) .entered
  | reuses (todo : List String) (out : Dict String (List Voice)) (asked : Option SynthesizeRequest)
      {p : ProcId} (active : s.active = some p) (ready : (s.procs p).state = .ready) :
      Advance c s (.enumerate ((s.procs p).provider :: todo) out asked) .entered
        (.enumerate todo (out.set (s.procs p).provider (s.procs p).voices) asked) .entered
  | skips (name : String) (todo : List String) (out : Dict String (List Voice))
      (asked : Option SynthesizeRequest) (wanted : String) (eager : Bool) :
      Advance c s (.enumerate (name :: todo) out asked) (.spawning wanted eager)
        (.enumerate todo out asked) .entered
  | created (op : Op) (p : ProcId) : Advance c s op (.creating p) op (.connecting p)
  | abandons (op : Op) (p : ProcId) : Advance c s op (.creating p) op (.abandoning p)

inductive Displaces (c : Settings) (op : Op) : Sequel → Prop
  | spawn {name : String} {eager : Bool} (wanted : op.spawn c = some (name, eager)) :
      Displaces c op (.spawn name eager)
  | leave : Displaces c op .leave

/-- What a process and the task that warmed it up become; `s` has the process READY. -/
inductive Warmed (s : Supervisor) (now : Nat) (i : TaskId) (p : ProcId) :
    Op → ProviderProcess → Task → Prop
  | returns {target : String} {awaiter : Awaiter} {proc : ProviderProcess} {task : Task}
      (arrival : s.Arrival now i p awaiter proc task) :
      Warmed s now i p (.ensureReady target awaiter) proc task
  | lists (name : String) (todo : List String) (out : Dict String (List Voice))
      (asked : Option SynthesizeRequest) :
      Warmed s now i p (.enumerate (name :: todo) out asked) (s.procs p).beginTeardown
        (.inside (.enumerate todo (out.set name (s.procs p).voices) asked) (.reaping p .next))
  | switched (newName : String) : Warmed s now i p (.switch newName) (s.procs p) .done
  | unasked {op : Op} (unwanted : op.wanted = none) : Warmed s now i p op (s.procs p) .done

structure Becomes (s t : Supervisor) (i : TaskId) (task : Task) (active : Option ProcId) : Prop where
  tasks : t.tasks = Function.update s.tasks i task
  active : t.active = active
  procs : t.procs = s.procs
  nextProc : t.nextProc = s.nextProc
  index : t.voiceIndex = s.voiceIndex

/-- What one step of the supervisor does. -/
inductive Moves (c : Settings) (s : Supervisor) (now : Nat) : SupervisorAct → Supervisor → Prop
  | works {act : SupervisorAct} {p : ProcId} {proc : ProviderProcess} (step : s.Works now p act proc) :
      Moves c s now act (s.setProc p proc)
  | rests {act : SupervisorAct} {t : Supervisor} {i : TaskId} {task : Task} (aside : (s.tasks i).Aside)
      (resting : task = .done ∨ task = .sleeping) (becomes : s.Becomes t i task s.active) :
      Moves c s now act t
  | asks {act : SupervisorAct} {t : Supervisor} {i : TaskId} {op : Op} {task : Task}
      (aside : (s.tasks i).Aside) (asked : Asks c s op) (begun : Begun op task)
      (becomes : s.Becomes t i task s.active) : Moves c s now act t
  | admitted {act : SupervisorAct} {t : Supervisor} {i : TaskId} {op : Op}
      (waiting : s.tasks i = .waiting op) (becomes : s.Becomes t i (.inside op .entered) s.active) :
      Moves c s now act t
  | serves {t : Supervisor} {i : TaskId} {target : String} {awaiter : Awaiter} {p : ProcId}
      {proc : ProviderProcess} {task : Task}
      (inside : s.tasks i = .inside (.ensureReady target awaiter) .entered) (active : s.active = some p)
      (provider : (s.procs p).provider = target) (ready : (s.procs p).state = .ready)
      (arrival : s.Arrival now i p awaiter proc task)
      (becomes : (s.setProc p proc).Becomes t i task s.active) : Moves c s now (.proceed i) t
  | advances {act : SupervisorAct} {t : Supervisor} {i : TaskId} {op next : Op} {stage later : Stage}
      (inside : s.tasks i = .inside op stage) (advance : Advance c s op stage next later)
      (becomes : s.Becomes t i (.inside next later) s.active) : Moves c s now act t
  | reaps {t : Supervisor} {i : TaskId} {op : Op} {p : ProcId} {sequel : Sequel}
      (inside : s.tasks i = .inside op .entered) (active : s.active = some p)
      (displaces : Displaces c op sequel)
      (becomes : (s.setProc p (s.procs p).beginTeardown).Becomes t i (.inside op (.reaping p sequel))
        s.active) : Moves c s now (.proceed i) t
  | rebuilds {t : Supervisor} {i : TaskId} {out : Dict String (List Voice)}
      {asked : Option SynthesizeRequest} {rebuilt : Supervisor} {task : Task}
      (inside : s.tasks i = .inside (.enumerate [] out asked) .entered)
      (index : rebuilt = { s with voiceIndex := c.populate s.voiceIndex out })
      (goes : task = .done ∨ ∃ op, Asks c rebuilt op ∧ Begun op task)
      (becomes : rebuilt.Becomes t i task s.active) : Moves c s now (.proceed i) t
  | leaves {act : SupervisorAct} {t : Supervisor} {i : TaskId} {op : Op} {stage : Stage} {task : Task}
      (inside : s.tasks i = .inside op stage) (leaves : s.Leaves i act stage)
      (resting : task = .done ∨ task = .sleeping) (becomes : s.Becomes t i task s.active) :
      Moves c s now act t
  | spawns {t : Supervisor} {i : TaskId} {op : Op} {name : String} {eager : Bool}
      (inside : s.tasks i = .inside op (.spawning name eager)) (known : name ∈ c.registry)
      (installed : c.installed name = true)
      (becomes : ({ s.setProc s.nextProc (.spawned name eager now) with nextProc := s.nextProc + 1 } :
        Supervisor).Becomes t i (.inside op (.creating s.nextProc)) s.active) :
      Moves c s now (.proceed i) t
  | connects {t : Supervisor} {i : TaskId} {op : Op} {p : ProcId}
      (inside : s.tasks i = .inside op (.connecting p))
      (becomes : (s.setProc p (s.procs p).requestWarmup).Becomes t i (.inside op (.warming p)) (some p)) :
      Moves c s now (.connected i) t
  | warms {t : Supervisor} {i : TaskId} {op : Op} {p : ProcId} {warm proc : ProviderProcess} {task : Task}
      (inside : s.tasks i = .inside op (.warming p)) (read : (s.procs p).Warms warm)
      (goes : Warmed (s.setProc p warm) now i p op proc task)
      (becomes : (s.setProc p proc).Becomes t i task s.active) : Moves c s now (.readWarmup i) t
  | warmupFails {act : SupervisorAct} {t : Supervisor} {i : TaskId} {op : Op} {p : ProcId}
      {proc : ProviderProcess} {cancelled : Bool} (inside : s.tasks i = .inside op (.warming p))
      (read : proc = s.procs p ∨ proc = ((s.procs p).leaveReader .warmup).pop)
      (becomes : (s.setProc p proc.failWarmup).Becomes t i (.inside op (.killing p cancelled)) s.active) :
      Moves c s now act t
  | removes {act : SupervisorAct} {t : Supervisor} {i : TaskId} {op : Op} {stage : Stage} {task : Task}
      (inside : s.tasks i = .inside op stage) (clears : s.Clears i act stage)
      (removed : Removed op stage task) (becomes : s.Becomes t i task none) : Moves c s now act t

variable {c : Settings} {s t : Supervisor} {now : Nat} {i : TaskId} {op : Op} {stage : Stage}

theorem begun_beginOp (s : Supervisor) (i : TaskId) (op : Op) :
    ∃ task, Begun op task ∧ s.Becomes (s.beginOp i op) i task s.active := by
  unfold Supervisor.beginOp
  split
  · exact ⟨_, .entered, rfl, rfl, rfl, rfl, rfl⟩
  · exact ⟨_, .waiting, rfl, rfl, rfl, rfl, rfl⟩

theorem becomes_setTask (s : Supervisor) (i : TaskId) (task : Task) :
    s.Becomes (s.setTask i task) i task s.active := ⟨rfl, rfl, rfl, rfl, rfl⟩

theorem becomes_leave (s : Supervisor) (i : TaskId) (task : Task) :
    s.Becomes (s.leave i task) i task s.active := ⟨rfl, rfl, rfl, rfl, rfl⟩

theorem Becomes.rebase {u : Supervisor} {task : Task} {active : Option ProcId}
    (becomes : u.Becomes t i task active) (tasks : u.tasks = s.tasks) (procs : u.procs = s.procs)
    (nextProc : u.nextProc = s.nextProc) (index : u.voiceIndex = s.voiceIndex) :
    s.Becomes t i task active :=
  ⟨tasks ▸ becomes.tasks, becomes.active, becomes.procs.trans procs, becomes.nextProc.trans nextProc,
    becomes.index.trans index⟩

theorem Becomes.after {task : Task} (becomes : (s.leave i .done).Becomes t i task s.active) :
    s.Becomes t i task s.active := by
  obtain ⟨tasks, active, procs, nextProc, index⟩ := becomes
  refine ⟨?_, active, procs, nextProc, index⟩
  rw [tasks]
  exact Function.update_idem ..

theorem moves_beginOp (aside : (s.tasks i).Aside) (asked : Asks c s op) {act : SupervisorAct} :
    Moves c s now act (s.beginOp i op) := by
  obtain ⟨task, begun, becomes⟩ := begun_beginOp s i op
  exact .asks aside asked begun becomes

theorem moves_route (aside : (s.tasks i).Aside) (synth : SynthesizeRequest) {act : SupervisorAct} :
    Moves c s now act (s.route i synth) := by
  unfold Supervisor.route
  split
  · rename_i provider found
    exact moves_beginOp aside (.routes synth found)
  · exact .rests aside (.inl rfl) (becomes_setTask ..)

theorem arrival (s : Supervisor) (now : Nat) (i : TaskId) (p : ProcId) (awaiter : Awaiter) :
    ∃ proc task, s.Arrival now i p awaiter proc task ∧
      (s.setProc p proc).Becomes ((s.leave i .done).arrive now i p awaiter) i task s.active := by
  have same : (s.setProc p (s.procs p)) = s := setProc_self s p
  have ends : (s.setProc p (s.procs p)).Becomes ((s.leave i .done).setTask i .done) i .done s.active := by
    rw [same]
    exact (becomes_setTask (s.leave i .done) i .done).after
  cases awaiter with
  | caller => exact ⟨_, _, .ends _, ends⟩
  | reloadVoices =>
    refine ⟨_, _, .lists, ?_⟩
    exact (becomes_setTask ((s.setProc p _).leave i .done) i _).after
  | connection synth route =>
    simp only [Supervisor.arrive]
    split
    · rename_i listed
      obtain ⟨task, begun, becomes⟩ := begun_beginOp (s.leave i .done) i
        (.ensureReady (s.targetName none) (.generator (withDefaults synth) route))
      refine ⟨_, task, .streams synth route listed begun, ?_⟩
      rw [same]
      exact becomes.after
    · exact ⟨_, _, .ends _, ends⟩
  | generator synth route =>
    simp only [Supervisor.arrive]
    split
    · rename_i listed
      refine ⟨_, _, .synthesizes synth route listed, ?_⟩
      refine ⟨?_, rfl, ?_, rfl, rfl⟩
      · exact Function.update_idem ..
      · change Function.update (Function.update s.procs p _) p
          ((Function.update s.procs p _ p).next now _) = Function.update s.procs p _
        rw [Function.update_idem, Function.update_self]
        rfl
    · exact ⟨_, _, .ends _, ends⟩

theorem thrown_fail (s : Supervisor) (i : TaskId) (op : Op) (cancelled : Bool) :
    ∃ task, Thrown op task ∧ s.Becomes (s.fail i op cancelled) i task s.active := by
  unfold Supervisor.fail
  split
  · exact ⟨_, .skipped .., becomes_setTask ..⟩
  · exact ⟨_, .ended _, becomes_leave ..⟩

theorem moves_startReap (inside : s.tasks i = .inside op .entered) {p : ProcId} (active : s.active = some p)
    {sequel : Sequel} (displaces : Displaces c op sequel) :
    Moves c s now (.proceed i) (s.startReap i op p sequel) :=
  .reaps inside active displaces (becomes_setTask (s.setProc p _) ..)

theorem moves_enter (inside : s.tasks i = .inside op .entered) :
    Moves c s now (.proceed i) (s.enter c now i op) := by
  cases op with
  | ensureReady target awaiter =>
    simp only [Supervisor.enter]
    split
    · rename_i p active
      split
      · rename_i served
        obtain ⟨proc, task, arrives, becomes⟩ := arrival s now i p awaiter
        exact .serves inside active served.1 served.2 arrives becomes
      · exact moves_startReap inside active (.spawn rfl)
    · rename_i vacant
      exact .advances inside (.wants rfl vacant) (becomes_setTask ..)
  | switch newName =>
    simp only [Supervisor.enter]
    split
    · rename_i p active
      split
      · exact .leaves inside .returns (.inl rfl) (becomes_leave ..)
      · exact moves_startReap inside active (.spawn rfl)
    · rename_i vacant
      exact .advances inside (.wants rfl vacant) (becomes_setTask ..)
  | enumerate todo out asked =>
    cases todo with
    | nil =>
      cases asked with
      | none => exact .rebuilds inside rfl (.inl rfl) ⟨rfl, rfl, rfl, rfl, rfl⟩
      | some synth =>
        simp only [Supervisor.enter, Supervisor.route]
        split
        · rename_i provider found
          obtain ⟨task, begun, becomes⟩ := begun_beginOp
            ({ s.leave i .done with voiceIndex := c.populate s.voiceIndex out } : Supervisor) i _
          refine .rebuilds inside rfl (.inr ⟨_, .routes synth found, begun⟩) ?_
          exact Becomes.after (s := { s with voiceIndex := c.populate s.voiceIndex out }) becomes
        · refine .rebuilds inside rfl (.inl rfl) ⟨?_, rfl, rfl, rfl, rfl⟩
          exact Function.update_idem ..
    | cons name todo =>
      simp only [Supervisor.enter]
      split
      · exact .advances inside (.passes ..) (becomes_setTask ..)
      · split
        · rename_i p active
          split
          · rename_i served
            obtain ⟨rfl, ready⟩ := served
            exact .advances inside (.reuses todo out asked active ready) (becomes_setTask ..)
          · exact moves_startReap inside active (.spawn rfl)
        · rename_i vacant
          exact .advances inside (.wants rfl vacant) (becomes_setTask ..)
  | evict =>
    simp only [Supervisor.enter]
    split
    · rename_i p active
      split
      · exact moves_startReap inside active .leave
      · exact .leaves inside .returns loopTask_rests (becomes_leave ..)
    · exact .leaves inside .returns loopTask_rests (becomes_leave ..)
  | shutdown =>
    simp only [Supervisor.enter]
    split
    · rename_i p active
      exact moves_startReap inside active .leave
    · exact .leaves inside .returns (.inl rfl) (becomes_leave ..)

theorem moves_fail {name : String} {eager : Bool} (inside : s.tasks i = .inside op (.spawning name eager))
    (cancelled : Bool) {act : SupervisorAct} : Moves c s now act (s.fail i op cancelled) := by
  obtain ⟨task, thrown, becomes⟩ := thrown_fail s i op cancelled
  cases thrown with
  | ended => exact .leaves inside (.fails ..) (.inl rfl) becomes
  | skipped wanted todo out asked => exact .advances inside (.skips ..) becomes

theorem moves_spawn {name : String} {eager : Bool} (inside : s.tasks i = .inside op (.spawning name eager)) :
    Moves c s now (.proceed i) (s.spawn c now i op name eager) := by
  unfold Supervisor.spawn
  split
  · rename_i known
    exact .spawns inside known.1 known.2 ⟨rfl, rfl, rfl, rfl, rfl⟩
  · exact moves_fail inside _

theorem warmed (s : Supervisor) (now : Nat) (i : TaskId) (p : ProcId) (op : Op) :
    ∃ proc task, Warmed s now i p op proc task ∧
      (s.setProc p proc).Becomes (s.spawned now i p op) i task s.active := by
  have same : (s.setProc p (s.procs p)) = s := setProc_self s p
  have ends : (s.setProc p (s.procs p)).Becomes (s.leave i .done) i .done s.active := by
    rw [same]
    exact becomes_leave ..
  cases op with
  | ensureReady target awaiter =>
    obtain ⟨proc, task, arrives, becomes⟩ := arrival s now i p awaiter
    exact ⟨proc, task, .returns arrives, becomes⟩
  | switch newName => exact ⟨_, _, .switched newName, ends.tasks, rfl, ends.procs, rfl, rfl⟩
  | enumerate todo out asked =>
    cases todo with
    | nil => exact ⟨_, _, .unasked rfl, ends⟩
    | cons name todo => exact ⟨_, _, .lists .., becomes_setTask (s.setProc p _) ..⟩
  | evict => exact ⟨_, _, .unasked rfl, ends⟩
  | shutdown => exact ⟨_, _, .unasked rfl, ends⟩

theorem warmed_next (c : Settings) (now : Nat) {p : ProcId} {warm : ProviderProcess}
    (inside : s.tasks i = .inside op (.warming p)) (read : (s.procs p).Warms warm) :
    ∃ proc task, Warmed (s.setProc p warm) now i p op proc task ∧
      (s.setProc p proc).Becomes (s.next c now (.readWarmup i)) i task s.active := by
  cases read with
  | @ready asked sampleRate voices rest answered =>
    obtain ⟨proc, task, goes, becomes⟩ := warmed
      (s.setProc p (((s.procs p).leaveReader .warmup).pop.warmedUp sampleRate voices)) now i p op
    rw [setProc_setProc] at becomes
    refine ⟨proc, task, goes, ?_⟩
    simp only [Supervisor.next, inside, answered, setProc_setProc, procs_setProc]
    exact becomes

theorem moves_failWarmup {p : ProcId} (inside : s.tasks i = .inside op (.warming p)) {proc : ProviderProcess}
    (read : proc = s.procs p ∨ proc = ((s.procs p).leaveReader .warmup).pop) (cancelled : Bool)
    {act : SupervisorAct} : Moves c s now act ((s.setProc p proc).failWarmup i op p cancelled) := by
  unfold Supervisor.failWarmup
  rw [setProc_setProc, procs_setProc]
  exact .warmupFails inside read (becomes_setTask (s.setProc p _) i (.inside op (.killing p cancelled)))

theorem moves_failUnread {p : ProcId} (inside : s.tasks i = .inside op (.warming p)) (cancelled : Bool)
    {act : SupervisorAct} : Moves c s now act (s.failWarmup i op p cancelled) := by
  have failed : Moves c s now act ((s.setProc p (s.procs p)).failWarmup i op p cancelled) :=
    moves_failWarmup inside (.inl rfl) cancelled
  rwa [setProc_self] at failed

theorem moves_reaped {p : ProcId} {sequel : Sequel} (inside : s.tasks i = .inside op (.reaping p sequel))
    {raised : Bool} (finished : (s.procs p).teardown = .finished raised) :
    Moves c s now (.reaped i) (s.reaped i op sequel raised) := by
  have clears : s.Clears i (.reaped i) (.reaping p sequel) := .reaped finished
  unfold Supervisor.reaped
  split
  · exact .removes inside clears (.spawns ..) ⟨rfl, rfl, rfl, rfl, rfl⟩
  · obtain ⟨task, thrown, becomes⟩ := thrown_fail { s with active := none } i op false
    exact .removes inside clears (.throws p _ _ thrown) (becomes.rebase rfl rfl rfl rfl)
  · exact .removes inside clears (.continues p) ⟨rfl, rfl, rfl, rfl, rfl⟩
  · exact .removes inside clears (.ends p _ (.inl rfl)) ⟨rfl, rfl, rfl, rfl, rfl⟩
  · split
    · exact .removes inside clears (.ends p _ loopTask_rests) ⟨rfl, rfl, rfl, rfl, rfl⟩
    · exact .removes inside clears (.ends p _ (.inl rfl)) ⟨rfl, rfl, rfl, rfl, rfl⟩

theorem moves_cancelInside (inside : s.tasks i = .inside op stage) (suspended : stage.suspended) :
    Moves c s now (.cancel i) (s.cancelInside i op stage) := by
  cases stage with
  | reaping p sequel =>
    exact .removes inside (.cancelled p sequel) (.ends p _ (.inl rfl)) ⟨rfl, rfl, rfl, rfl, rfl⟩
  | creating p => exact .advances inside (.abandons op p) (becomes_setTask ..)
  | warming p => exact moves_failUnread inside true
  | abandoning p => exact .leaves inside (.abandons p) (.inl rfl) (becomes_leave ..)
  | connecting p => exact .leaves inside (.disconnects p) (.inl rfl) (becomes_leave ..)
  | killing p cancelled => exact .leaves inside (.kills p cancelled) (.inl rfl) (becomes_leave ..)
  | entered => cases suspended
  | spawning name eager => cases suspended

theorem aside_of_absent (absent : s.tasks i = .absent) : (s.tasks i).Aside := by
  rw [absent]
  trivial

theorem moves {act : SupervisorAct} (enabled : s.Enabled act) : Moves c s now act (s.next c now act) := by
  cases act with
  | connect i synth =>
    have aside := aside_of_absent enabled
    simp only [Supervisor.next]
    split
    · exact .rests aside (.inl rfl) (becomes_setTask ..)
    · split
      · exact moves_beginOp aside (.enumerate _)
      · exact moves_route aside synth
  | ensureReady i name => exact moves_beginOp (aside_of_absent enabled) (.ensureReady name)
  | reloadVoices i => exact moves_beginOp (aside_of_absent enabled) .reloadVoices
  | enumerateAll i => exact moves_beginOp (aside_of_absent enabled) (.enumerate none)
  | switch i newName =>
    simp only [Supervisor.next]
    split
    · exact moves_beginOp (aside_of_absent enabled) (.switch newName)
    · exact .rests (aside_of_absent enabled) (.inl rfl) (becomes_setTask ..)
  | shutdown i =>
    obtain ⟨task, begun, becomes⟩ := begun_beginOp ({ s with closing := true } : Supervisor) i .shutdown
    exact .asks (aside_of_absent enabled) .shutdown begun (becomes.rebase rfl rfl rfl rfl)
  | startIdleLoop i => exact .rests (aside_of_absent enabled) loopTask_rests (becomes_setTask ..)
  | wake i =>
    have aside : (s.tasks i).Aside := by
      rw [show s.tasks i = .sleeping from enabled]
      trivial
    simp only [Supervisor.next, Supervisor.wake]
    split
    · split
      · exact moves_beginOp aside .evict
      · exact .rests aside loopTask_rests (becomes_setTask ..)
    · exact .rests aside loopTask_rests (becomes_setTask ..)
  | acquire i =>
    obtain ⟨⟨op, waiting⟩, -, -⟩ := enabled
    simp only [Supervisor.next, waiting]
    exact .admitted waiting ⟨rfl, rfl, rfl, rfl, rfl⟩
  | proceed i =>
    obtain ⟨op, stage, inside, passing⟩ := enabled
    cases stage with
    | entered =>
      simp only [Supervisor.next, inside]
      exact moves_enter inside
    | spawning name eager =>
      simp only [Supervisor.next, inside]
      exact moves_spawn inside
    | _ => cases passing
  | spawnFails i =>
    obtain ⟨op, name, eager, inside⟩ := enabled
    simp only [Supervisor.next, inside]
    exact moves_fail inside _
  | created i =>
    obtain ⟨op, p, inside⟩ := enabled
    simp only [Supervisor.next, inside]
    exact .advances inside (.created op p) (becomes_setTask ..)
  | abandoned i =>
    obtain ⟨op, p, inside, exited⟩ := enabled
    exact .leaves inside (.abandoned exited) (.inl rfl) (becomes_leave ..)
  | connected i =>
    obtain ⟨op, p, inside⟩ := enabled
    simp only [Supervisor.next, inside]
    exact .connects inside ⟨rfl, rfl, rfl, rfl, rfl⟩
  | parkWarmup i =>
    obtain ⟨op, p, inside, -⟩ := enabled
    simp only [Supervisor.next, inside]
    exact .works (.parks inside)
  | readWarmup i =>
    obtain ⟨op, p, inside, -⟩ := enabled
    by_cases answered : ∃ warm, (s.procs p).Warms warm
    · obtain ⟨warm, read⟩ := answered
      obtain ⟨proc, task, goes, becomes⟩ := warmed_next c now inside read
      exact .warms inside read goes becomes
    · simp only [Supervisor.next, inside]
      split
      · rename_i asked sampleRate voices rest first
        exact absurd ⟨_, .ready first⟩ answered
      · exact moves_failWarmup inside (.inr rfl) false
  | failWarmup i =>
    obtain ⟨op, p, inside⟩ := enabled
    simp only [Supervisor.next, inside]
    exact moves_failUnread inside false
  | reaped i =>
    obtain ⟨op, p, sequel, raised, inside, settled⟩ := enabled
    simp only [Supervisor.next, inside, settled]
    exact moves_reaped inside settled
  | killed i =>
    obtain ⟨op, p, cancelled, inside, finished⟩ := enabled
    simp only [Supervisor.next, inside]
    obtain ⟨task, thrown, becomes⟩ := thrown_fail { s with active := none } i op cancelled
    exact .removes inside (.killed finished) (.killed p _ thrown) (becomes.rebase rfl rfl rfl rfl)
  | cancel i =>
    rcases enabled with sleeping | ⟨op, waiting⟩ | ⟨op, stage, inside, suspended⟩
    · simp only [Supervisor.next, sleeping]
      exact .rests (by rw [sleeping]; trivial) (.inl rfl) (becomes_setTask ..)
    · simp only [Supervisor.next, waiting]
      exact .rests (by rw [waiting]; trivial) (.inl rfl) ⟨rfl, rfl, rfl, rfl, rfl⟩
    · simp only [Supervisor.next, inside]
      exact moves_cancelInside inside suspended
  | exchange p act => exact .works (.exchange enabled.1 enabled.2.1 enabled.2.2.1 enabled.2.2.2)
  | teardown p act => exact .works (.teardown enabled)
  | killer p act => exact .works (.killer enabled)
  | exits p => exact .works .exits

/-- How a task has come to a stage under the lifecycle lock. -/
inductive Turn (c : Settings) (s t : Supervisor) (now : Nat) (i : TaskId) : Op → Stage → Prop
  | entered (op : Op) : Turn c s t now i op .entered
  | wants {op : Op} {name : String} {eager : Bool} (wanted : op.spawn c = some (name, eager)) :
      Turn c s t now i op (.spawning name eager)
  | resumes {op : Op} {p : ProcId} {name : String} {eager : Bool}
      (within : s.tasks i = .inside op (.reaping p (.spawn name eager))) :
      Turn c s t now i op (.spawning name eager)
  | reaps {op : Op} {p : ProcId} {sequel : Sequel} (active : s.active = some p)
      (displaces : Displaces c op sequel) : Turn c s t now i op (.reaping p sequel)
  | lists {before op : Op} {p : ProcId} (within : s.tasks i = .inside before (.warming p)) :
      Turn c s t now i op (.reaping p .next)
  | creates {op : Op} {name : String} {eager : Bool} (within : s.tasks i = .inside op (.spawning name eager))
      (new : t.procs s.nextProc = .spawned name eager now) (later : t.nextProc = s.nextProc + 1) :
      Turn c s t now i op (.creating s.nextProc)
  | raises {op : Op} {before stage : Stage} {p : ProcId} (within : s.tasks i = .inside op before)
      (goes : stage.raises = before.raises) (raised : stage.raises = some p) : Turn c s t now i op stage
  | kills {op : Op} {p : ProcId} {cancelled : Bool} (within : s.tasks i = .inside op (.warming p)) :
      Turn c s t now i op (.killing p cancelled)

variable {p : ProcId} {proc : ProviderProcess} {task : Task} {act : SupervisorAct}

theorem Becomes.tasks_cases {active : Option ProcId} (becomes : s.Becomes t i task active) (j : TaskId) :
    t.tasks j = s.tasks j ∨ j = i ∧ t.tasks j = task := by
  rw [becomes.tasks]
  by_cases same : j = i
  · subst same
    exact .inr ⟨rfl, Function.update_self ..⟩
  · exact .inl (Function.update_of_ne same ..)

theorem Arrival.at_entered {awaiter : Awaiter} (arrival : s.Arrival now i p awaiter proc task)
    (at_ : task = .inside op stage) : stage = .entered := by
  cases arrival with
  | streams synth route listed begun => exact begun.at_entered at_
  | _ => cases at_

/-- What one step makes of the task `i`, where it changes it. -/
inductive Changes (c : Settings) (s t : Supervisor) (now : Nat) (i : TaskId) : SupervisorAct → Task → Prop
  | rests {act : SupervisorAct} {task : Task} (aside : (s.tasks i).Aside)
      (resting : task = .done ∨ task = .sleeping) : Changes c s t now i act task
  | asks {act : SupervisorAct} {op : Op} {task : Task} (aside : (s.tasks i).Aside) (asked : Asks c s op)
      (begun : Begun op task) (index : t.voiceIndex = s.voiceIndex) : Changes c s t now i act task
  | admitted {act : SupervisorAct} {op : Op} (waiting : s.tasks i = .waiting op) :
      Changes c s t now i act (.inside op .entered)
  | serves {target : String} {awaiter : Awaiter} {p : ProcId} {proc : ProviderProcess} {task : Task}
      (inside : s.tasks i = .inside (.ensureReady target awaiter) .entered) (active : s.active = some p)
      (provider : (s.procs p).provider = target) (ready : (s.procs p).state = .ready)
      (arrival : s.Arrival now i p awaiter proc task) : Changes c s t now i (.proceed i) task
  | advances {act : SupervisorAct} {op next : Op} {stage later : Stage} (inside : s.tasks i = .inside op stage)
      (advance : Advance c s op stage next later) : Changes c s t now i act (.inside next later)
  | reaps {op : Op} {p : ProcId} {sequel : Sequel} (inside : s.tasks i = .inside op .entered)
      (active : s.active = some p) (displaces : Displaces c op sequel) :
      Changes c s t now i (.proceed i) (.inside op (.reaping p sequel))
  | rebuilds {out : Dict String (List Voice)} {asked : Option SynthesizeRequest} {task : Task}
      (inside : s.tasks i = .inside (.enumerate [] out asked) .entered)
      (goes : task = .done ∨ ∃ u op, Asks c u op ∧ t.voiceIndex = u.voiceIndex ∧ Begun op task) :
      Changes c s t now i (.proceed i) task
  | leaves {act : SupervisorAct} {op : Op} {stage : Stage} {task : Task} (inside : s.tasks i = .inside op stage)
      (leaves : s.Leaves i act stage) (resting : task = .done ∨ task = .sleeping) :
      Changes c s t now i act task
  | spawns {op : Op} {name : String} {eager : Bool} (inside : s.tasks i = .inside op (.spawning name eager))
      (known : name ∈ c.registry) (installed : c.installed name = true)
      (new : t.procs s.nextProc = .spawned name eager now) (later : t.nextProc = s.nextProc + 1) :
      Changes c s t now i (.proceed i) (.inside op (.creating s.nextProc))
  | connects {op : Op} {p : ProcId} (inside : s.tasks i = .inside op (.connecting p))
      (active : t.active = some p) : Changes c s t now i (.connected i) (.inside op (.warming p))
  | warms {op : Op} {p : ProcId} {warm proc : ProviderProcess} {task : Task}
      (inside : s.tasks i = .inside op (.warming p)) (read : (s.procs p).Warms warm)
      (goes : Warmed (s.setProc p warm) now i p op proc task) (became : t.procs p = proc) :
      Changes c s t now i (.readWarmup i) task
  | warmupFails {act : SupervisorAct} {op : Op} {p : ProcId} {proc : ProviderProcess} {cancelled : Bool}
      (inside : s.tasks i = .inside op (.warming p))
      (read : proc = s.procs p ∨ proc = ((s.procs p).leaveReader .warmup).pop)
      (became : t.procs p = proc.failWarmup) :
      Changes c s t now i act (.inside op (.killing p cancelled))
  | removes {act : SupervisorAct} {op : Op} {stage : Stage} {task : Task} (inside : s.tasks i = .inside op stage)
      (clears : s.Clears i act stage) (removed : Removed op stage task) (active : t.active = none) :
      Changes c s t now i act task

theorem Changes.before (changes : Changes c s t now i act task) :
    (s.tasks i).Aside ∨ ∃ op stage, s.tasks i = .inside op stage := by
  cases changes with
  | rests aside resting => exact .inl aside
  | asks aside asked begun index => exact .inl aside
  | admitted waiting =>
    rw [waiting]
    exact .inl trivial
  | serves inside active provider ready arrival => exact .inr ⟨_, _, inside⟩
  | advances inside advance => exact .inr ⟨_, _, inside⟩
  | reaps inside active displaces => exact .inr ⟨_, _, inside⟩
  | rebuilds inside goes => exact .inr ⟨_, _, inside⟩
  | leaves inside leaves resting => exact .inr ⟨_, _, inside⟩
  | spawns inside known installed new later => exact .inr ⟨_, _, inside⟩
  | connects inside active => exact .inr ⟨_, _, inside⟩
  | warms inside read goes became => exact .inr ⟨_, _, inside⟩
  | warmupFails inside read became => exact .inr ⟨_, _, inside⟩
  | removes inside clears removed active => exact .inr ⟨_, _, inside⟩

theorem Moves.changes (moves : Moves c s now act t) (i : TaskId) :
    t.tasks i = s.tasks i ∨ Changes c s t now i act (t.tasks i) := by
  have moved : ∀ (u : Supervisor) {j : TaskId} {task : Task} {active : Option ProcId}, u.tasks = s.tasks →
      u.Becomes t j task active → (i = j → Changes c s t now i act task) →
      t.tasks i = s.tasks i ∨ Changes c s t now i act (t.tasks i) := by
    intro u j task active tasks becomes here
    rcases becomes.tasks_cases i with same | ⟨at_, mine⟩
    · exact .inl (same.trans (congrFun tasks i))
    · exact .inr (mine ▸ here at_)
  cases moves with
  | works step => exact .inl rfl
  | rests aside resting becomes =>
    refine moved s rfl becomes ?_
    rintro rfl
    exact .rests aside resting
  | asks aside asked begun becomes =>
    refine moved s rfl becomes ?_
    rintro rfl
    exact .asks aside asked begun becomes.index
  | admitted waiting becomes =>
    refine moved s rfl becomes ?_
    rintro rfl
    exact .admitted waiting
  | serves inside active provider ready arrival becomes =>
    refine moved (s.setProc _ _) rfl becomes ?_
    rintro rfl
    exact .serves inside active provider ready arrival
  | advances inside advance becomes =>
    refine moved s rfl becomes ?_
    rintro rfl
    exact .advances inside advance
  | reaps inside active displaces becomes =>
    refine moved (s.setProc _ _) rfl becomes ?_
    rintro rfl
    exact .reaps inside active displaces
  | rebuilds inside index goes becomes =>
    refine moved _ (by rw [index]) becomes ?_
    rintro rfl
    refine .rebuilds inside ?_
    rcases goes with done | ⟨op, asked, begun⟩
    · exact .inl done
    · exact .inr ⟨_, op, asked, becomes.index, begun⟩
  | leaves inside leaves resting becomes =>
    refine moved s rfl becomes ?_
    rintro rfl
    exact .leaves inside leaves resting
  | spawns inside known installed becomes =>
    refine moved { s.setProc _ _ with nextProc := _ } rfl becomes ?_
    rintro rfl
    refine .spawns inside known installed ?_ becomes.nextProc
    rw [becomes.procs]
    exact procs_setProc ..
  | connects inside becomes =>
    refine moved (s.setProc _ _) rfl becomes ?_
    rintro rfl
    exact .connects inside becomes.active
  | warms inside read goes becomes =>
    refine moved (s.setProc _ _) rfl becomes ?_
    rintro rfl
    exact .warms inside read goes (by rw [becomes.procs, procs_setProc])
  | warmupFails inside read becomes =>
    refine moved (s.setProc _ _) rfl becomes ?_
    rintro rfl
    exact .warmupFails inside read (by rw [becomes.procs, procs_setProc])
  | removes inside clears removed becomes =>
    refine moved s rfl becomes ?_
    rintro rfl
    exact .removes inside clears removed becomes.active

theorem Moves.turn (moves : Moves c s now act t) (inside : t.tasks i = .inside op stage) :
    s.tasks i = .inside op stage ∨ Turn c s t now i op stage := by
  rcases moves.changes i with same | changes
  · exact .inl (same.symm.trans inside)
  rw [inside] at changes
  refine .inr ?_
  have enters : stage = .entered → Turn c s t now i op stage := by
    rintro rfl
    exact .entered op
  cases changes with
  | rests aside resting => exact absurd rfl (ne_inside_of_resting resting)
  | asks aside asked begun => exact enters (begun.at_entered rfl)
  | admitted waiting => exact .entered op
  | serves within active provider ready arrival => exact enters (arrival.at_entered rfl)
  | advances within advance =>
    cases advance with
    | wants wanted vacant => exact .wants wanted
    | created other q => exact .raises within rfl rfl
    | abandons other q => exact .raises within rfl rfl
    | _ => exact .entered _
  | reaps within active displaces => exact .reaps active displaces
  | rebuilds within goes =>
    rcases goes with ended | ⟨u, other, asked, index, begun⟩
    · cases ended
    · exact enters (begun.at_entered rfl)
  | leaves within leaves resting => exact absurd rfl (ne_inside_of_resting resting)
  | spawns within known installed new later => exact .creates within new later
  | connects within active => exact .raises within rfl rfl
  | warms within read goes became =>
    cases goes with
    | returns arrival => exact enters (arrival.at_entered rfl)
    | lists name todo out asked => exact .lists within
  | warmupFails within read became => exact .kills within
  | removes within clears removed active =>
    cases removed with
    | spawns q name eager => exact .resumes within
    | continues q => exact .entered _
    | throws q name eager thrown => exact enters (thrown.at_entered rfl)
    | killed q cancelled thrown => exact enters (thrown.at_entered rfl)
    | ends q sequel resting => exact absurd rfl (ne_inside_of_resting resting)

theorem Becomes.here {active : Option ProcId} (becomes : s.Becomes t i task active) : t.tasks i = task := by
  rw [becomes.tasks, Function.update_self]

/-- What a step may do to the rest: a new process belongs to the task that spawns it, `_active` is
set by the task that has connected to the process, only the end of an enumeration replaces the index,
and no task leaves its exchange. -/
structure Frame (c : Settings) (s t : Supervisor) (act : SupervisorAct) : Prop where
  nextProc : t.nextProc = s.nextProc ∨
    t.nextProc = s.nextProc + 1 ∧ ∃ i op, t.tasks i = .inside op (.creating s.nextProc)
  active : t.active = s.active ∨
    (∃ i op p, s.tasks i = .inside op (.connecting p) ∧ t.tasks i = .inside op (.warming p) ∧
      t.active = some p) ∨
    t.active = none ∧ ∃ i op stage, s.tasks i = .inside op stage ∧ s.Clears i act stage
  index : t.voiceIndex = s.voiceIndex ∨ ∃ i out asked, act = .proceed i ∧
    s.tasks i = .inside (.enumerate [] out asked) .entered ∧ t.voiceIndex = c.populate s.voiceIndex out
  exchanging : ∀ i p route, s.tasks i = .exchanging p route → t.tasks i = .exchanging p route

theorem Frame.nextProc_le (frame : Frame c s t act) : s.nextProc ≤ t.nextProc := by
  rcases frame.nextProc with same | ⟨next, -⟩
  · exact Nat.le_of_eq same.symm
  · rw [next]
    exact Nat.le_succ _

theorem Frame.was_active (frame : Frame c s t act) (active : t.active = some p) :
    s.active = some p ∨
      ∃ i op, s.tasks i = .inside op (.connecting p) ∧ t.tasks i = .inside op (.warming p) := by
  rcases frame.active with same | ⟨i, op, q, connecting, warming, new⟩ | ⟨none, -⟩
  · exact .inl (same.symm.trans active)
  · cases new.symm.trans active
    exact .inr ⟨i, op, connecting, warming⟩
  · cases none.symm.trans active

theorem Becomes.exchanging_kept {u : Supervisor} {active : Option ProcId}
    (becomes : u.Becomes t i task active) (tasks : u.tasks = s.tasks)
    (free : ∀ p route, s.tasks i ≠ .exchanging p route) (j : TaskId) (p : ProcId) (route : Option Route)
    (busy : s.tasks j = .exchanging p route) : t.tasks j = .exchanging p route := by
  have other : j ≠ i := by
    rintro rfl
    exact free p route busy
  rw [becomes.tasks, Function.update_of_ne other, tasks, busy]

theorem Becomes.frame {u : Supervisor} (becomes : u.Becomes t i task s.active) (tasks : u.tasks = s.tasks)
    (nextProc : u.nextProc = s.nextProc) (index : u.voiceIndex = s.voiceIndex)
    (free : ∀ p route, s.tasks i ≠ .exchanging p route) : Frame c s t act :=
  ⟨.inl (becomes.nextProc.trans nextProc), .inl becomes.active, .inl (becomes.index.trans index),
    becomes.exchanging_kept tasks free⟩

theorem Moves.frame (moves : Moves c s now act t) : Frame c s t act := by
  have within : ∀ {j : TaskId} {op : Op} {stage : Stage}, s.tasks j = .inside op stage →
      ∀ p route, s.tasks j ≠ .exchanging p route := by
    intro j op stage inside p route
    rw [inside]
    simp
  have beside : ∀ {j : TaskId}, (s.tasks j).Aside → ∀ p route, s.tasks j ≠ .exchanging p route := by
    intro j aside p route busy
    rw [busy] at aside
    exact aside
  cases moves with
  | works step => exact ⟨.inl rfl, .inl rfl, .inl rfl, fun _ _ _ busy => busy⟩
  | rests aside resting becomes => exact becomes.frame rfl rfl rfl (beside aside)
  | asks aside asked begun becomes => exact becomes.frame rfl rfl rfl (beside aside)
  | admitted waiting becomes => exact becomes.frame rfl rfl rfl (by simp [waiting])
  | serves inside active provider ready arrival becomes => exact becomes.frame rfl rfl rfl (within inside)
  | advances inside advance becomes => exact becomes.frame rfl rfl rfl (within inside)
  | reaps inside active displaces becomes => exact becomes.frame rfl rfl rfl (within inside)
  | rebuilds inside index goes becomes =>
    subst index
    exact ⟨.inl becomes.nextProc, .inl becomes.active, .inr ⟨_, _, _, rfl, inside, becomes.index⟩,
      becomes.exchanging_kept rfl (within inside)⟩
  | leaves inside leaves resting becomes => exact becomes.frame rfl rfl rfl (within inside)
  | spawns inside known installed becomes =>
    exact ⟨.inr ⟨becomes.nextProc, _, _, becomes.here⟩, .inl becomes.active, .inl becomes.index,
      becomes.exchanging_kept rfl (within inside)⟩
  | connects inside becomes =>
    exact ⟨.inl becomes.nextProc, .inr (.inl ⟨_, _, _, inside, becomes.here, becomes.active⟩),
      .inl becomes.index, becomes.exchanging_kept rfl (within inside)⟩
  | warms inside read goes becomes => exact becomes.frame rfl rfl rfl (within inside)
  | warmupFails inside read becomes => exact becomes.frame rfl rfl rfl (within inside)
  | removes inside clears removed becomes =>
    exact ⟨.inl becomes.nextProc, .inr (.inr ⟨becomes.active, _, _, _, inside, clears⟩), .inl becomes.index,
      becomes.exchanging_kept rfl (within inside)⟩

/-- What a step does with the process `q`, and what becomes of the task that does it. -/
inductive Handles (s t : Supervisor) (now : Nat) (q : ProcId) : SupervisorAct → ProviderProcess → Prop
  | spared {act : SupervisorAct} : Handles s t now q act (s.procs q)
  | works {act : SupervisorAct} {proc : ProviderProcess} (step : s.Works now q act proc) :
      Handles s t now q act proc
  | serves {i : TaskId} {target : String} {awaiter : Awaiter} {proc : ProviderProcess}
      (inside : s.tasks i = .inside (.ensureReady target awaiter) .entered) (active : s.active = some q)
      (provider : (s.procs q).provider = target) (ready : (s.procs q).state = .ready)
      (arrival : s.Arrival now i q awaiter proc (t.tasks i)) : Handles s t now q (.proceed i) proc
  | reaps {i : TaskId} {op : Op} {sequel : Sequel} (inside : s.tasks i = .inside op .entered)
      (later : t.tasks i = .inside op (.reaping q sequel)) :
      Handles s t now q (.proceed i) (s.procs q).beginTeardown
  | spawns {i : TaskId} {op : Op} {name : String} {eager : Bool}
      (inside : s.tasks i = .inside op (.spawning name eager)) (new : q = s.nextProc) :
      Handles s t now q (.proceed i) (.spawned name eager now)
  | connects {i : TaskId} {op : Op} (inside : s.tasks i = .inside op (.connecting q))
      (later : t.tasks i = .inside op (.warming q)) :
      Handles s t now q (.connected i) (s.procs q).requestWarmup
  | warms {i : TaskId} {op : Op} {warm proc : ProviderProcess}
      (inside : s.tasks i = .inside op (.warming q)) (read : (s.procs q).Warms warm)
      (goes : Warmed (s.setProc q warm) now i q op proc (t.tasks i)) :
      Handles s t now q (.readWarmup i) proc
  | warmupFails {act : SupervisorAct} {i : TaskId} {op : Op} {proc : ProviderProcess} {cancelled : Bool}
      (inside : s.tasks i = .inside op (.warming q))
      (read : proc = s.procs q ∨ proc = ((s.procs q).leaveReader .warmup).pop)
      (later : t.tasks i = .inside op (.killing q cancelled)) : Handles s t now q act proc.failWarmup

theorem procs_setProc_of_ne {q : ProcId} (other : q ≠ p) : (s.setProc p proc).procs q = s.procs q :=
  Function.update_of_ne other ..

theorem Handles.setProc (handles : Handles s t now p act proc) (q : ProcId) :
    Handles s t now q act ((s.setProc p proc).procs q) := by
  by_cases same : q = p
  · subst same
    rw [procs_setProc]
    exact handles
  · rw [procs_setProc_of_ne same]
    exact .spared

theorem Moves.handles (moves : Moves c s now act t) (q : ProcId) : Handles s t now q act (t.procs q) := by
  cases moves with
  | works step => exact Handles.setProc (.works step) q
  | rests aside resting becomes => rw [becomes.procs]; exact .spared
  | asks aside asked begun becomes => rw [becomes.procs]; exact .spared
  | admitted waiting becomes => rw [becomes.procs]; exact .spared
  | serves inside active provider ready arrival becomes =>
    rw [becomes.procs]
    rw [← becomes.here] at arrival
    exact Handles.setProc (.serves inside active provider ready arrival) q
  | advances inside advance becomes => rw [becomes.procs]; exact .spared
  | reaps inside active displaces becomes =>
    rw [becomes.procs]
    exact Handles.setProc (.reaps inside becomes.here) q
  | rebuilds inside index goes becomes => rw [becomes.procs, index]; exact .spared
  | leaves inside leaves resting becomes => rw [becomes.procs]; exact .spared
  | spawns inside known installed becomes =>
    rw [becomes.procs]
    exact Handles.setProc (.spawns inside rfl) q
  | connects inside becomes =>
    rw [becomes.procs]
    exact Handles.setProc (.connects inside becomes.here) q
  | warms inside read goes becomes =>
    rw [becomes.procs]
    rw [← becomes.here] at goes
    exact Handles.setProc (.warms inside read goes) q
  | warmupFails inside read becomes =>
    rw [becomes.procs]
    exact Handles.setProc (.warmupFails inside read becomes.here) q
  | removes inside clears removed becomes => rw [becomes.procs]; exact .spared

/-- What becomes of a task that is under the lifecycle lock at a stage. -/
inductive Goes (s t : Supervisor) (now : Nat) (act : SupervisorAct) (i : TaskId) (op : Op) : Stage → Prop
  | stays {stage : Stage} (still : t.tasks i = .inside op stage) : Goes s t now act i op stage
  | enters : Goes s t now act i op .entered
  | spawns (name : String) (eager : Bool) : Goes s t now act i op (.spawning name eager)
  | created {p : ProcId}
      (later : t.tasks i = .inside op (.connecting p) ∨ t.tasks i = .inside op (.abandoning p)) :
      Goes s t now act i op (.creating p)
  | connects {p : ProcId} (active : t.active = some p) : Goes s t now act i op (.connecting p)
  | warms {p : ProcId} {warm : ProviderProcess} (read : (s.procs p).Warms warm)
      (goes : Warmed (s.setProc p warm) now i p op (t.procs p) (t.tasks i)) :
      Goes s t now act i op (.warming p)
  | warmupFails {p : ProcId} {proc : ProviderProcess}
      (read : proc = s.procs p ∨ proc = ((s.procs p).leaveReader .warmup).pop)
      (later : t.procs p = proc.failWarmup) : Goes s t now act i op (.warming p)
  | clears {stage : Stage} (clears : s.Clears i act stage) (active : t.active = none) :
      Goes s t now act i op stage
  | leaves {stage : Stage} (leaves : s.Leaves i act stage) : Goes s t now act i op stage

theorem Moves.goes (moves : Moves c s now act t) (inside : s.tasks i = .inside op stage) :
    Goes s t now act i op stage := by
  rcases moves.changes i with same | changes
  · exact .stays (same.trans inside)
  generalize here : t.tasks i = task at changes
  cases changes with
  | rests aside resting =>
    rw [inside] at aside
    exact aside.elim
  | asks aside asked begun index =>
    rw [inside] at aside
    exact aside.elim
  | admitted waiting => cases inside.symm.trans waiting
  | serves within active provider ready arrival =>
    cases inside.symm.trans within
    exact .enters
  | advances within advance =>
    cases inside.symm.trans within
    cases advance with
    | created => exact .created (.inl here)
    | abandons => exact .created (.inr here)
    | skips => exact .spawns ..
    | _ => exact .enters
  | reaps within active displaces =>
    cases inside.symm.trans within
    exact .enters
  | rebuilds within goes =>
    cases inside.symm.trans within
    exact .enters
  | leaves within leaves resting =>
    cases inside.symm.trans within
    exact .leaves leaves
  | spawns within known installed new later =>
    cases inside.symm.trans within
    exact .spawns ..
  | connects within active =>
    cases inside.symm.trans within
    exact .connects active
  | warms within read goes became =>
    cases inside.symm.trans within
    subst became here
    exact .warms read goes
  | warmupFails within read became =>
    cases inside.symm.trans within
    exact .warmupFails read became
  | removes within clears removed active =>
    cases inside.symm.trans within
    exact .clears clears active

end Supervisor

end Daemon

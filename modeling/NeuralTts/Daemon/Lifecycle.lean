import NeuralTts.Daemon.Supervisor

/-! What holds of the tasks and the lifecycle lock in every run of the supervisor. -/

namespace Daemon

open Library

namespace ProviderProcess

structure SameLife (p q : ProviderProcess) : Prop where
  exited : q.exited = p.exited
  teardown : q.teardown = p.teardown
  killer : q.killer = p.killer
  provider : q.provider = p.provider

variable {p q : ProviderProcess} {i : TaskId} {now : Nat}

theorem SameLife.write (same : SameLife p q) (ex : Exchange) : SameLife p (q.write i ex) := by
  obtain ⟨exited, teardown, killer, provider⟩ := same
  cases ex with
  | listVoices => exact ⟨exited, teardown, killer, provider⟩
  | synthesize synth =>
    simp only [ProviderProcess.write]
    split <;> exact ⟨exited, teardown, killer, provider⟩

theorem SameLife.react (same : SameLife p q) (frame : Option TaskId × Response) :
    SameLife p (q.react i now frame) := by
  obtain ⟨exited, teardown, killer, provider⟩ := same
  unfold ProviderProcess.react
  split
  · split
    · refine SameLife.write ?_ _
      exact ⟨exited, teardown, killer, provider⟩
    · exact ⟨exited, teardown, killer, provider⟩
  · split <;> exact ⟨exited, teardown, killer, provider⟩
  · dsimp only
    split <;> exact ⟨exited, teardown, killer, provider⟩
  · split <;> exact ⟨exited, teardown, killer, provider⟩
  · exact ⟨exited, teardown, killer, provider⟩

theorem SameLife.abandonDrain (same : SameLife p q) (ex : Exchange) :
    SameLife p (q.abandonDrain i ex) := by
  refine SameLife.write ?_ ex
  exact ⟨same.exited, same.teardown, same.killer, same.provider⟩

theorem SameLife.raiseRead (same : SameLife p q) (error : ReadError) :
    SameLife p (q.raiseRead i error) := by
  obtain ⟨exited, teardown, killer, provider⟩ := same
  unfold ProviderProcess.raiseRead
  split
  · exact SameLife.abandonDrain ⟨exited, teardown, killer, provider⟩ _
  · exact ⟨exited, teardown, killer, provider⟩
  · exact ⟨exited, teardown, killer, provider⟩

theorem sameLife_next (p : ProviderProcess) (now : Nat) (act : ExchangeAct) :
    SameLife p (p.next now act) := by
  have unparked : ∀ i, SameLife p (p.unpark i) := fun _ => ⟨rfl, rfl, rfl, rfl⟩
  cases act with
  | begin i =>
    simp only [next]
    split
    · unfold beginExchange
      split
      · exact ⟨rfl, rfl, rfl, rfl⟩
      · exact SameLife.write ⟨rfl, rfl, rfl, rfl⟩ _
    · exact ⟨rfl, rfl, rfl, rfl⟩
  | read i =>
    simp only [next]
    split
    · refine SameLife.react ?_ _
      exact ⟨rfl, rfl, rfl, rfl⟩
    · exact ⟨rfl, rfl, rfl, rfl⟩
  | garble i b => exact (unparked i).react _
  | collide i => exact SameLife.raiseRead ⟨rfl, rfl, rfl, rfl⟩ _
  | lost i error => exact (unparked i).raiseRead _
  | timeout i tear =>
    simp only [next]
    split
    · refine SameLife.abandonDrain ?_ _
      exact ⟨rfl, rfl, rfl, rfl⟩
    · exact ⟨rfl, rfl, rfl, rfl⟩
  | cancel i tear => simp only [next, interrupt]; split <;> exact ⟨rfl, rfl, rfl, rfl⟩
  | enter i ex => simp only [next]; split <;> exact ⟨rfl, rfl, rfl, rfl⟩
  | acquire i => simp only [next]; split <;> exact ⟨rfl, rfl, rfl, rfl⟩
  | flushed i => simp only [next]; split <;> exact ⟨rfl, rfl, rfl, rfl⟩
  | serveHeader rate => simp only [next]; split <;> exact ⟨rfl, rfl, rfl, rfl⟩
  | answer b => simp only [next]; split <;> exact ⟨rfl, rfl, rfl, rfl⟩
  | _ => exact ⟨rfl, rfl, rfl, rfl⟩

end ProviderProcess

def Stage.raises : Stage → Option ProcId
  | .creating p | .abandoning p | .connecting p | .warming p => some p
  | .entered | .reaping _ _ | .spawning _ _ | .killing _ _ => none

def Op.wanted : Op → Option String
  | .ensureReady target _ => some target
  | .switch newName => some newName
  | .enumerate (name :: _) _ _ => some name
  | .enumerate [] _ _ | .evict | .shutdown => none

namespace Supervisor

/-- What a task may do when it has the lifecycle lock. -/
inductive Entry (c : Settings) (s : Supervisor) (now : Nat) (i : TaskId) : Op → Supervisor → Prop
  | serves {target : String} {p : ProcId} (awaiter : Awaiter) (active : s.active = some p)
      (provider : (s.procs p).provider = target) (ready : (s.procs p).state = .ready) :
      Entry c s now i (.ensureReady target awaiter) ((s.leave i .done).arrive now i p awaiter)
  | spawns {op : Op} {name : String} (eager : Bool) (wanted : op.wanted = some name)
      (vacant : s.active = none) :
      Entry c s now i op (s.setTask i (.inside op (.spawning name eager)))
  | replaces {op : Op} {name : String} {p : ProcId} (eager : Bool) (wanted : op.wanted = some name)
      (active : s.active = some p) : Entry c s now i op (s.startReap i op p (.spawn name eager))
  | removes {op : Op} {p : ProcId} (active : s.active = some p) :
      Entry c s now i op (s.startReap i op p .leave)
  | passes (name : String) (todo : List String) (out : Dict String (List Voice))
      (asked : Option SynthesizeRequest) :
      Entry c s now i (.enumerate (name :: todo) out asked)
        (s.setTask i (.inside (.enumerate todo out asked) .entered))
  | reuses (name : String) (todo : List String) (out : Dict String (List Voice))
      (asked : Option SynthesizeRequest) (p : ProcId) :
      Entry c s now i (.enumerate (name :: todo) out asked)
        (s.setTask i (.inside (.enumerate todo (out.set name (s.procs p).voices) asked) .entered))
  | rebuilds (out : Dict String (List Voice)) :
      Entry c s now i (.enumerate [] out none)
        { s.leave i .done with voiceIndex := c.populate s.voiceIndex out }
  | routes (out : Dict String (List Voice)) (synth : SynthesizeRequest) :
      Entry c s now i (.enumerate [] out (some synth))
        (({ s.leave i .done with voiceIndex := c.populate s.voiceIndex out } : Supervisor).route i synth)
  | leaves {op : Op} {task : Task} (resting : task = .done ∨ task = .sleeping) :
      Entry c s now i op (s.leave i task)

def Exclusive (s : Supervisor) : Prop :=
  ∀ i op stage, s.tasks i = .inside op stage → s.lifecycleLock.holder = some i

variable {c : Settings} {s t : Supervisor} {now : Nat} {i j : TaskId} {op : Op} {stage : Stage}

theorem loopTask_rests : s.loopTask = .done ∨ s.loopTask = .sleeping := by
  unfold loopTask
  split
  · exact .inl rfl
  · exact .inr rfl

theorem ne_inside_of_resting {task : Task} (resting : task = .done ∨ task = .sleeping) :
    task ≠ .inside op stage := by
  rcases resting with rfl | rfl <;> simp

theorem entry (c : Settings) (s : Supervisor) (now : Nat) (i : TaskId) (op : Op) :
    Entry c s now i op (s.enter c now i op) := by
  cases op with
  | ensureReady target awaiter =>
    simp only [Supervisor.enter]
    split
    · rename_i p active
      split
      · rename_i served
        exact .serves awaiter active served.1 served.2
      · exact .replaces true rfl active
    · rename_i vacant
      exact .spawns true rfl vacant
  | switch newName =>
    simp only [Supervisor.enter]
    split
    · rename_i p active
      split
      · exact .leaves (.inl rfl)
      · exact .replaces _ rfl active
    · rename_i vacant
      exact .spawns _ rfl vacant
  | enumerate todo out asked =>
    cases todo with
    | nil =>
      cases asked with
      | none => exact .rebuilds out
      | some synth => exact .routes out synth
    | cons name todo =>
      simp only [Supervisor.enter]
      split
      · exact .passes name todo out asked
      · split
        · rename_i p active
          split
          · exact .reuses name todo out asked p
          · exact .replaces false rfl active
        · rename_i vacant
          exact .spawns false rfl vacant
  | evict =>
    simp only [Supervisor.enter]
    split
    · rename_i p active
      split
      · exact .removes active
      · exact .leaves loopTask_rests
    · exact .leaves loopTask_rests
  | shutdown =>
    simp only [Supervisor.enter]
    split
    · rename_i p active
      exact .removes active
    · exact .leaves (.inl rfl)

theorem Exclusive.guards (exclusive : Exclusive s) :
    s.lifecycleLock.Guards fun i => ∃ op stage, s.tasks i = .inside op stage :=
  fun i ⟨op, stage, inside⟩ => exclusive i op stage inside

theorem Exclusive.only (exclusive : Exclusive s) {other : Op} {elsewhere : Stage}
    (inside : s.tasks i = .inside op stage) (also : s.tasks j = .inside other elsewhere) : j = i :=
  exclusive.guards.only ⟨op, stage, inside⟩ ⟨other, elsewhere, also⟩

theorem Exclusive.moved (exclusive : Exclusive s) {task : Task}
    (tasks : t.tasks = Function.update s.tasks i task)
    (kept : ∀ j, j ≠ i → s.lifecycleLock.holder = some j → t.lifecycleLock.holder = some j)
    (taken : ∀ op stage, task = .inside op stage → t.lifecycleLock.holder = some i) : Exclusive t := by
  intro j op stage inside
  rw [tasks] at inside
  by_cases same : j = i
  · subst same
    rw [Function.update_self] at inside
    exact taken op stage inside
  · rw [Function.update_of_ne same] at inside
    exact kept j same (exclusive j op stage inside)

theorem Exclusive.setTask (exclusive : Exclusive s) {task : Task}
    (taken : ∀ op stage, task = .inside op stage → s.lifecycleLock.holder = some i) :
    Exclusive (s.setTask i task) :=
  exclusive.moved rfl (fun _ _ held => held) taken

theorem Exclusive.leave (exclusive : Exclusive s) (inside : s.tasks i = .inside op stage)
    {task : Task} (out : ∀ op stage, task ≠ .inside op stage) : Exclusive (s.leave i task) := by
  refine exclusive.moved rfl ?_ fun op stage at_ => absurd at_ (out op stage)
  intro j other held
  rw [exclusive i op stage inside] at held
  exact absurd (Option.some.inj held).symm other

theorem Exclusive.done (exclusive : Exclusive s) : Exclusive (s.setTask i .done) :=
  exclusive.setTask fun _ _ at_ => by cases at_

theorem Exclusive.leaveDone (exclusive : Exclusive s) (inside : s.tasks i = .inside op stage) :
    Exclusive (s.leave i .done) :=
  exclusive.leave inside fun _ _ at_ => by cases at_

theorem Exclusive.beginOp (exclusive : Exclusive s) (i : TaskId) (op : Op) :
    Exclusive (s.beginOp i op) := by
  unfold Supervisor.beginOp
  split
  · rename_i idle
    refine exclusive.moved rfl ?_ fun _ _ _ => rfl
    intro j _ held
    rw [idle.1] at held
    cases held
  · exact exclusive.moved rfl (fun _ _ held => held) nofun

theorem Exclusive.arrive (exclusive : Exclusive s) (p : ProcId) (awaiter : Awaiter) :
    Exclusive (s.arrive now i p awaiter) := by
  cases awaiter with
  | caller => exact exclusive.done
  | reloadVoices => exact exclusive.moved rfl (fun _ _ held => held) nofun
  | connection synth route =>
    simp only [Supervisor.arrive]
    split
    · exact exclusive.beginOp _ _
    · exact exclusive.done
  | generator synth route =>
    simp only [Supervisor.arrive]
    split
    · exact exclusive.moved rfl (fun _ _ held => held) nofun
    · exact exclusive.done

theorem Exclusive.route (exclusive : Exclusive s) (synth : SynthesizeRequest) :
    Exclusive (s.route i synth) := by
  unfold Supervisor.route
  split
  · exact exclusive.beginOp _ _
  · exact exclusive.done

def untimed (acts : List SupervisorAct) : List (Nat × SupervisorAct) := acts.map (0, ·)

theorem loopTask_ne_inside : s.loopTask ≠ .inside op stage := ne_inside_of_resting loopTask_rests

theorem Exclusive.stay (exclusive : Exclusive s) (inside : s.tasks i = .inside op stage)
    (task : Task) : Exclusive (s.setTask i task) :=
  exclusive.setTask fun _ _ _ => exclusive i op stage inside

theorem Exclusive.fail (exclusive : Exclusive s) (inside : s.tasks i = .inside op stage)
    (current : Op) (cancelled : Bool) : Exclusive (s.fail i current cancelled) := by
  unfold Supervisor.fail
  split
  · exact exclusive.stay inside _
  · exact exclusive.leaveDone inside

theorem Exclusive.enter (exclusive : Exclusive s) (inside : s.tasks i = .inside op stage)
    (entry : Entry c s now i op t) : Exclusive t := by
  have left : Exclusive (s.leave i .done) := exclusive.leaveDone inside
  cases entry with
  | serves awaiter active provider ready => exact left.arrive _ _
  | spawns eager wanted vacant => exact exclusive.stay inside _
  | replaces eager wanted active => exact exclusive.stay inside _
  | removes active => exact exclusive.stay inside _
  | passes name todo out asked => exact exclusive.stay inside _
  | reuses name todo out asked p => exact exclusive.stay inside _
  | rebuilds out => exact left
  | routes out synth =>
    have rebuilt : Exclusive { s.leave i .done with voiceIndex := c.populate s.voiceIndex out } := left
    exact rebuilt.route synth
  | leaves resting => exact exclusive.leave inside fun _ _ => ne_inside_of_resting resting

theorem Exclusive.spawned (exclusive : Exclusive s) (inside : s.tasks i = .inside op stage)
    (p : ProcId) : Exclusive (s.spawned now i p op) := by
  have left : Exclusive (s.leave i .done) := exclusive.leaveDone inside
  cases op with
  | ensureReady target awaiter => exact left.arrive _ _
  | enumerate todo out asked =>
    cases todo with
    | nil => exact left
    | cons name todo => exact exclusive.stay inside _
  | _ => exact left

theorem Exclusive.reaped (exclusive : Exclusive s) (inside : s.tasks i = .inside op stage)
    (sequel : Sequel) (raised : Bool) : Exclusive (s.reaped i op sequel raised) := by
  have cleared : Exclusive { s with active := none } := exclusive
  unfold Supervisor.reaped
  split
  · exact cleared.stay inside _
  · exact cleared.fail inside _ _
  · exact cleared.stay inside _
  · exact cleared.leaveDone inside
  · split
    · exact cleared.leave inside fun _ _ => loopTask_ne_inside
    · exact cleared.leaveDone inside

theorem Exclusive.cancelInside (exclusive : Exclusive s) (inside : s.tasks i = .inside op stage) :
    Exclusive (s.cancelInside i op stage) := by
  have left : Exclusive (s.leave i .done) := exclusive.leaveDone inside
  cases stage with
  | creating p => exact exclusive.stay inside _
  | warming p => exact exclusive.stay inside _
  | entered => exact exclusive
  | spawning name eager => exact exclusive
  | _ => exact left

theorem Exclusive.next (exclusive : Exclusive s) {act : SupervisorAct} (enabled : s.Enabled act) :
    Exclusive (s.next c now act) := by
  cases act with
  | connect i synth =>
    simp only [Supervisor.next]
    split
    · exact exclusive.done
    · split
      · exact exclusive.beginOp _ _
      · exact exclusive.route _
  | ensureReady i name => exact exclusive.beginOp _ _
  | reloadVoices i => exact exclusive.beginOp _ _
  | enumerateAll i => exact exclusive.beginOp _ _
  | switch i newName =>
    simp only [Supervisor.next]
    split
    · exact exclusive.beginOp _ _
    · exact exclusive.done
  | shutdown i =>
    have closing : Exclusive { s with closing := true } := exclusive
    exact closing.beginOp _ _
  | startIdleLoop i => exact exclusive.setTask fun _ _ at_ => absurd at_ loopTask_ne_inside
  | wake i =>
    have rounds : Exclusive (s.setTask i s.loopTask) :=
      exclusive.setTask fun _ _ at_ => absurd at_ loopTask_ne_inside
    simp only [Supervisor.next, wake]
    split
    · split
      · exact exclusive.beginOp _ _
      · exact rounds
    · exact rounds
  | acquire i =>
    obtain ⟨⟨op, waiting⟩, free, -⟩ := enabled
    simp only [Supervisor.next, waiting]
    refine exclusive.moved rfl ?_ fun _ _ _ => rfl
    intro j _ held
    rw [free] at held
    cases held
  | proceed i =>
    obtain ⟨op, stage, inside, passing⟩ := enabled
    cases stage with
    | entered =>
      simp only [Supervisor.next, inside]
      exact exclusive.enter inside (entry c s _ i op)
    | spawning name eager =>
      simp only [Supervisor.next, inside, spawn]
      split
      · exact exclusive.stay inside _
      · exact exclusive.fail inside _ _
    | _ => cases passing
  | spawnFails i =>
    obtain ⟨op, name, eager, inside⟩ := enabled
    simp only [Supervisor.next, inside]
    exact exclusive.fail inside _ _
  | created i =>
    obtain ⟨op, p, inside⟩ := enabled
    simp only [Supervisor.next, inside]
    exact exclusive.stay inside _
  | abandoned i =>
    obtain ⟨op, p, inside, -⟩ := enabled
    exact exclusive.leaveDone inside
  | connected i =>
    obtain ⟨op, p, inside⟩ := enabled
    simp only [Supervisor.next, inside]
    exact exclusive.stay inside _
  | parkWarmup i =>
    obtain ⟨op, p, inside, -⟩ := enabled
    simp only [Supervisor.next, inside]
    exact exclusive
  | readWarmup i =>
    obtain ⟨op, p, inside, -⟩ := enabled
    simp only [Supervisor.next, inside]
    split
    · exact Exclusive.spawned (s := (s.setProc p _).setProc p _) exclusive inside p
    · have read : Exclusive (s.setProc p ((s.procs p).leaveReader .warmup).pop) := exclusive
      exact read.stay inside _
  | failWarmup i =>
    obtain ⟨op, p, inside⟩ := enabled
    simp only [Supervisor.next, inside]
    exact exclusive.stay inside _
  | reaped i =>
    obtain ⟨op, p, sequel, raised, inside, settled⟩ := enabled
    simp only [Supervisor.next, inside, settled]
    exact exclusive.reaped inside _ _
  | killed i =>
    obtain ⟨op, p, cancelled, inside, -⟩ := enabled
    simp only [Supervisor.next, inside]
    exact Exclusive.fail (s := { s with active := none }) exclusive inside _ _
  | cancel i =>
    rcases enabled with sleeping | ⟨op, waiting⟩ | ⟨op, stage, inside, -⟩
    · simp only [Supervisor.next, sleeping]
      exact exclusive.done
    · simp only [Supervisor.next, waiting]
      exact exclusive.moved rfl (fun _ _ held => held) nofun
    · simp only [Supervisor.next, inside]
      exact exclusive.cancelInside inside
  | exchange p act => exact exclusive
  | teardown p act => exact exclusive
  | killer p act => exact exclusive
  | exits p => exact exclusive

theorem start_exclusive (defaultProvider : String) : Exclusive (start defaultProvider) := nofun

end Supervisor

end Daemon

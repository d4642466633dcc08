import NeuralTts.Daemon.Actors
import NeuralTts.Library.LockLine

/-! Who waits for the lifecycle lock is let in: nobody gets ahead of it, those ahead of it are through after
so many steps, and until then one of these steps can always be taken. -/

namespace Daemon

open Library

def Task.place : Task → Place
  | .waiting _ => .queued
  | .inside _ _ => .within
  | .absent | .exchanging _ _ | .sleeping | .done => .outside

def Teardown.rank : Teardown → Nat
  | .writing => 5
  | .reading => 4
  | .waiting => 3
  | .terminating => 2
  | .killing => 1
  | .idle | .finished _ => 0

def Killer.rank : Killer → Nat
  | .terminating => 2
  | .killing => 1
  | .idle | .finished => 0

def ProviderProcess.lives (p : ProviderProcess) : Nat := if p.exited then 0 else 1

/-- Steps enough for an operation, from when it has the lock. -/
def Op.cost : Op → Nat
  | .enumerate todo _ _ => 19 * todo.length + 8
  | .ensureReady _ _ | .switch _ | .evict | .shutdown => 19

/-- The same for what comes after the provider that it is at. -/
def Op.later : Op → Nat
  | .enumerate (_ :: todo) _ _ => 19 * todo.length + 8
  | .enumerate [] _ _ | .ensureReady _ _ | .switch _ | .evict | .shutdown => 0

def Sequel.cost (op : Op) : Sequel → Nat
  | .spawn _ _ => op.later + 12
  | .next => op.cost + 1
  | .leave => 1

namespace Supervisor

def stageCost (s : Supervisor) (op : Op) : Stage → Nat
  | .entered => op.cost
  | .reaping p sequel => (s.procs p).teardown.rank + (s.procs p).lives + sequel.cost op
  | .spawning _ _ => op.later + 11
  | .creating _ => op.later + 10
  | .abandoning p => (s.procs p).lives + 1
  | .connecting _ => op.later + 9
  | .warming _ => op.later + 8
  | .killing p _ => (s.procs p).killer.rank + (s.procs p).lives + op.later + 1

def taskCost (s : Supervisor) (i : TaskId) : Nat :=
  match s.tasks i with
  | .waiting op => op.cost + 1
  | .inside op stage => s.stageCost op stage
  | _ => 0

/-- Steps enough for all that are to have the lock before `w`. -/
def delay (s : Supervisor) (w : TaskId) : Nat := load s.taskCost (s.lifecycleLock.line w)

end Supervisor

def Stage.awaits : Stage → SupervisorAct → Bool
  | .reaping p _, .teardown q act => p = q ∧ act ≠ .park
  | .killing p _, .killer q _ => p = q
  | .reaping p _, .exits q | .killing p _, .exits q | .abandoning p, .exits q => p = q
  | _, _ => false

namespace Supervisor

def stage (s : Supervisor) : Option Stage :=
  s.lifecycleLock.holder.bind fun i =>
    match s.tasks i with
    | .inside _ stage => some stage
    | _ => none

/-- A step by which the operation under the lock gets on, or by which one gets the lock. -/
def pushes (s : Supervisor) : SupervisorAct → Bool
  | .acquire _ | .proceed _ | .spawnFails _ | .created _ | .abandoned _ | .connected _ | .readWarmup _
  | .failWarmup _ | .reaped _ | .killed _ => true
  | act => s.stage.any (·.awaits act)

/-- How many of the steps of a run are such. -/
def pushed (c : Settings) (s : Supervisor) : List (Nat × SupervisorAct) → Nat
  | [] => 0
  | label :: rest => (if s.pushes label.2 then 1 else 0) + pushed c (s.next c label.1 label.2) rest

/-- What a stage that waits for a process relies on. -/
def Underway (s : Supervisor) : Stage → Prop
  | .reaping p _ => p < s.nextProc ∧ (s.procs p).teardown ≠ .idle
  | .killing p _ => p < s.nextProc ∧ (s.procs p).killer ≠ .idle
  | .abandoning p => p < s.nextProc
  | .entered | .spawning _ _ | .creating _ | .connecting _ | .warming _ => True

/-- What a task under the lock comes to with a step of its own. -/
inductive Runs (s : Supervisor) (i : TaskId) (op : Op) (stage : Stage) (t : Supervisor) : Prop
  | continues (later : Op) (next : Stage) (here : t.tasks i = .inside later next)
      (lock : t.lifecycleLock = s.lifecycleLock) (less : t.stageCost later next < s.stageCost op stage)
      (underway : t.Underway next)
  | leaves (outside : (t.tasks i).place = .outside) (lock : t.lifecycleLock = s.lifecycleLock.release)
  | returns (idle : s.lifecycleLock.release.Idle) (later : Op) (here : t.tasks i = .inside later .entered)
      (lock : t.lifecycleLock = s.lifecycleLock.release.hold i)
  | requeues (busy : ¬s.lifecycleLock.release.Idle) (queued : (t.tasks i).place = .queued)
      (lock : t.lifecycleLock = s.lifecycleLock.release.enqueue i)

variable {c : Settings} {s t u : Supervisor} {now : Nat} {i j w : TaskId} {op later : Op} {stage : Stage} {p : ProcId}

theorem tasks_setTask_self (task : Task) : (s.setTask i task).tasks i = task := Function.update_self ..

theorem tasks_leave_self (task : Task) : (s.leave i task).tasks i = task := Function.update_self ..

theorem cost_of_wanted {name : String} (wanted : op.wanted = some name) : op.later + 19 ≤ op.cost := by
  cases op with
  | enumerate todo out asked =>
    cases todo with
    | nil => cases wanted
    | cons name todo =>
      simp only [Op.later, Op.cost, List.length_cons]
      omega
  | ensureReady target awaiter => exact Nat.le_refl 19
  | switch newName => exact Nat.le_refl 19
  | evict => cases wanted
  | shutdown => cases wanted

theorem eight_le_cost (op : Op) : 8 ≤ op.cost := by
  cases op with
  | enumerate todo out asked => exact Nat.le_add_left 8 _
  | _ => exact Nat.le_of_ble_eq_true rfl

theorem lives_le (proc : ProviderProcess) : proc.lives ≤ 1 := by
  unfold ProviderProcess.lives
  split <;> omega

theorem runs_beginOp (left : u.lifecycleLock = s.lifecycleLock.release) (later : Op) :
    s.Runs i op stage (u.beginOp i later) := by
  unfold beginOp
  split
  · rename_i idle
    rw [left] at idle
    refine .returns idle later (tasks_setTask_self ..) ?_
    rw [left]
  · rename_i busy
    rw [left] at busy
    refine .requeues busy ?_ ?_
    · rw [tasks_setTask_self]
      rfl
    · rw [left]

theorem runs_arrive (lock : u.lifecycleLock = s.lifecycleLock) (awaiter : Awaiter) :
    s.Runs i op stage ((u.leave i .done).arrive now i p awaiter) := by
  have left : (u.leave i .done).lifecycleLock = s.lifecycleLock.release := by rw [leave, lock]
  cases awaiter with
  | caller => exact .leaves (by rw [arrive, tasks_setTask_self]; rfl) left
  | reloadVoices => exact .leaves (by rw [arrive, enterExchange, tasks_setTask_self]; rfl) left
  | connection synth route =>
    simp only [arrive]
    split
    · exact runs_beginOp left _
    · exact .leaves (by rw [tasks_setTask_self]; rfl) left
  | generator synth route =>
    simp only [arrive]
    split
    · exact .leaves (by rw [enterExchange, tasks_setTask_self]; rfl) left
    · exact .leaves (by rw [tasks_setTask_self]; rfl) left

theorem runs_route (left : u.lifecycleLock = s.lifecycleLock.release) (synth : SynthesizeRequest) :
    s.Runs i op stage (u.route i synth) := by
  unfold route
  split
  · exact runs_beginOp left _
  · exact .leaves (by rw [tasks_setTask_self]; rfl) left

theorem runs_leave {task : Task} (resting : task = .done ∨ task = .sleeping)
    (same : u.lifecycleLock = s.lifecycleLock) : s.Runs i op stage (u.leave i task) := by
  refine .leaves ?_ (by rw [leave, same])
  rw [tasks_leave_self]
  rcases resting with rfl | rfl <;> rfl

theorem runs_fail (same : u.lifecycleLock = s.lifecycleLock) (less : op.later < s.stageCost op stage)
    (cancelled : Bool) : s.Runs i op stage (u.fail i op cancelled) := by
  unfold fail
  split
  · rename_i name todo out asked
    exact .continues (.enumerate todo out asked) .entered (tasks_setTask_self ..) same less trivial
  · exact runs_leave (.inl rfl) same

theorem runs_startReap (same : u.lifecycleLock = s.lifecycleLock) (born : p < u.nextProc) (later : Op)
    (sequel : Sequel) (less : sequel.cost later + 6 < s.stageCost op stage) :
    s.Runs i op stage (u.startReap i later p sequel) := by
  have torn : (u.startReap i later p sequel).procs p = (u.procs p).beginTeardown := Function.update_self ..
  have lives := lives_le (u.procs p).beginTeardown
  refine .continues later (.reaping p sequel) (tasks_setTask_self ..) same ?_ ⟨born, ?_⟩
  · show ((u.startReap i later p sequel).procs p).teardown.rank + _ + _ < _
    rw [torn]
    show 5 + _ + _ < _
    omega
  · rw [torn]
    nofun

theorem runs_enter (kept : Kept c s) (inside : s.tasks i = .inside op .entered) :
    s.Runs i op .entered (s.enter c now i op) := by
  have entry := entry c s now i op
  generalize s.enter c now i op = t at entry
  cases entry with
  | serves awaiter active provider ready => exact runs_arrive rfl awaiter
  | spawns eager wanted vacant =>
    have enough := cost_of_wanted wanted
    refine .continues op _ (tasks_setTask_self ..) rfl ?_ trivial
    simp only [stageCost]
    omega
  | @replaces op name p eager wanted active =>
    have enough := cost_of_wanted wanted
    apply runs_startReap rfl (kept.tended.born p active)
    simp only [stageCost, Sequel.cost]
    omega
  | @removes op p active =>
    have enough := eight_le_cost op
    apply runs_startReap rfl (kept.tended.born p active)
    simp only [stageCost, Sequel.cost]
    omega
  | passes name todo out asked =>
    refine .continues _ .entered (tasks_setTask_self ..) rfl ?_ trivial
    simp only [stageCost, Op.cost, List.length_cons]
    omega
  | reuses name todo out asked p =>
    refine .continues _ .entered (tasks_setTask_self ..) rfl ?_ trivial
    simp only [stageCost, Op.cost, List.length_cons]
    omega
  | rebuilds out => exact .leaves (by rw [leave, setTask]; simp [Task.place]) rfl
  | routes out synth => exact runs_route rfl synth
  | leaves resting => exact runs_leave resting rfl

theorem runs_spawn {name : String} {eager : Bool} : s.Runs i op (.spawning name eager) (s.spawn c now i op name eager) := by
  unfold spawn
  split
  · refine .continues op (.creating s.nextProc) (tasks_setTask_self ..) rfl ?_ trivial
    simp only [stageCost]
    omega
  · apply runs_fail rfl
    simp only [stageCost]
    omega

/-- The spawn is over; `u` has the process READY. -/
theorem runs_spawned (lock : u.lifecycleLock = s.lifecycleLock) (born : p < u.nextProc) :
    s.Runs i op (.warming p) (u.spawned now i p op) := by
  have left : s.Runs i op (.warming p) (u.leave i .done) := runs_leave (.inl rfl) lock
  cases op with
  | ensureReady target awaiter => exact runs_arrive lock awaiter
  | switch newName => exact .leaves (by rw [spawned, leave, setTask]; simp [Task.place]) (by rw [spawned, leave, lock])
  | enumerate todo out asked =>
    cases todo with
    | nil => exact left
    | cons name todo =>
      apply runs_startReap lock born
      simp only [stageCost, Sequel.cost, Op.cost, Op.later]
      omega
  | evict => exact left
  | shutdown => exact left

theorem runs_failWarmup (lock : u.lifecycleLock = s.lifecycleLock) (born : p < u.nextProc)
    (cancelled : Bool) : s.Runs i op (.warming p) (u.failWarmup i op p cancelled) := by
  have failed : (u.failWarmup i op p cancelled).procs p = (u.procs p).failWarmup := Function.update_self ..
  have lives := lives_le (u.procs p).failWarmup
  refine .continues op (.killing p cancelled) (tasks_setTask_self ..) lock ?_ ⟨born, ?_⟩
  · show ((u.failWarmup i op p cancelled).procs p).killer.rank + _ + _ + _ < op.later + 8
    rw [failed]
    show 2 + _ + _ + _ < _
    omega
  · rw [failed]
    nofun

theorem runs_reaped {sequel : Sequel} (raised : Bool) : s.Runs i op (.reaping p sequel) (s.reaped i op sequel raised) := by
  have lock : ({ s with active := none } : Supervisor).lifecycleLock = s.lifecycleLock := rfl
  unfold reaped
  split
  · refine .continues op (.spawning _ _) (tasks_setTask_self ..) rfl ?_ trivial
    simp only [stageCost, Sequel.cost]
    omega
  · refine runs_fail lock ?_ false
    simp only [stageCost, Sequel.cost]
    omega
  · refine .continues op .entered (tasks_setTask_self ..) rfl ?_ trivial
    simp only [stageCost, Sequel.cost]
    omega
  · exact runs_leave (.inl rfl) rfl
  · split
    · exact runs_leave loopTask_rests rfl
    · exact runs_leave (.inl rfl) rfl

theorem runs_cancelInside (kept : Kept c s) (inside : s.tasks i = .inside op stage) (suspended : stage.suspended = true) :
    s.Runs i op stage (s.cancelInside i op stage) := by
  have born {p : ProcId} (raises : stage.raises = some p) : p < s.nextProc := by
    have spawning := kept.spawns i op stage inside
    cases stage <;> cases raises <;> exact spawning.1
  cases stage with
  | entered => cases suspended
  | spawning name eager => cases suspended
  | reaping p sequel =>
    refine .leaves ?_ rfl
    show ((s.leave i .done).tasks i).place = .outside
    rw [tasks_leave_self]
    rfl
  | creating p =>
    have lives := lives_le (s.procs p)
    refine .continues op (.abandoning p) (tasks_setTask_self ..) rfl ?_ (born rfl)
    show (s.procs p).lives + 1 < op.later + 10
    omega
  | warming p => exact runs_failWarmup rfl (born rfl) true
  | abandoning p => exact runs_leave (.inl rfl) rfl
  | connecting p => exact runs_leave (.inl rfl) rfl
  | killing p cancelled => exact runs_leave (.inl rfl) rfl

theorem runs_next (kept : Kept c s) (inside : s.tasks i = .inside op stage) {act : SupervisorAct}
    (mine : act.task = some i) (enabled : s.Enabled act) (moves : act ≠ .parkWarmup i) :
    s.Runs i op stage (s.next c now act) := by
  cases act with
  | acquire j =>
    cases mine
    obtain ⟨⟨other, waiting⟩, -⟩ := enabled
    cases inside.symm.trans waiting
  | proceed j =>
    cases mine
    obtain ⟨other, reached, here, passing⟩ := enabled
    cases inside.symm.trans here
    simp only [next, inside]
    cases stage with
    | entered => exact runs_enter kept inside
    | spawning name eager => exact runs_spawn
    | _ => cases passing
  | spawnFails j =>
    cases mine
    obtain ⟨other, name, eager, here⟩ := enabled
    cases inside.symm.trans here
    simp only [next, inside]
    apply runs_fail rfl
    simp only [stageCost]
    omega
  | created j =>
    cases mine
    obtain ⟨other, p, here⟩ := enabled
    cases inside.symm.trans here
    simp only [next, inside]
    refine .continues op (.connecting p) (tasks_setTask_self ..) rfl ?_ trivial
    simp only [stageCost]
    omega
  | abandoned j =>
    cases mine
    exact runs_leave (.inl rfl) rfl
  | connected j =>
    cases mine
    obtain ⟨other, p, here⟩ := enabled
    cases inside.symm.trans here
    simp only [next, inside]
    refine .continues op (.warming p) (tasks_setTask_self ..) rfl ?_ trivial
    simp only [stageCost]
    omega
  | parkWarmup j =>
    cases mine
    exact absurd rfl moves
  | readWarmup j =>
    cases mine
    obtain ⟨other, p, here, -⟩ := enabled
    cases inside.symm.trans here
    have born : p < s.nextProc := (kept.spawns i op _ inside).1
    simp only [next, inside]
    split
    · apply runs_spawned
      · rfl
      · exact born
    · apply runs_failWarmup
      · rfl
      · exact born
  | failWarmup j =>
    cases mine
    obtain ⟨other, p, here⟩ := enabled
    cases inside.symm.trans here
    simp only [next, inside]
    exact runs_failWarmup rfl (kept.spawns i op _ inside).1 false
  | reaped j =>
    cases mine
    obtain ⟨other, p, sequel, raised, here, finished⟩ := enabled
    cases inside.symm.trans here
    simp only [next, inside, finished]
    exact runs_reaped raised
  | killed j =>
    cases mine
    obtain ⟨other, p, cancelled, here, finished⟩ := enabled
    cases inside.symm.trans here
    have lock : ({ s with active := none } : Supervisor).lifecycleLock = s.lifecycleLock := rfl
    simp only [next, inside]
    refine runs_fail lock ?_ cancelled
    simp only [stageCost]
    omega
  | cancel j =>
    cases mine
    rcases enabled with sleeping | ⟨other, waiting⟩ | ⟨other, reached, here, suspended⟩
    · cases inside.symm.trans sleeping
    · cases inside.symm.trans waiting
    · cases inside.symm.trans here
      simp only [next, inside]
      exact runs_cancelInside kept inside suspended
  | exchange q step => cases mine
  | teardown q step => cases mine
  | killer q step => cases mine
  | exits q => cases mine
  | _ =>
    cases mine
    cases inside.symm.trans enabled

theorem Runs.step (runs : s.Runs i op stage t) (inside : s.tasks i = .inside op stage) :
    s.lifecycleLock.Step i (s.tasks i).place t.lifecycleLock (t.tasks i).place := by
  rw [inside]
  cases runs with
  | continues later next here lock less underway =>
    rw [here, lock]
    exact .stays _
  | leaves outside lock =>
    rw [outside, lock]
    exact .leaves
  | returns idle later here lock =>
    rw [here, lock]
    exact .returns idle
  | requeues busy queued lock =>
    rw [queued, lock]
    exact .requeues busy

/-- What a step does of a task that is not under the lock: it leaves the processes alone, and a task that it
lets in is at its start. -/
structure Aloof (s : Supervisor) (i : TaskId) (t : Supervisor) : Prop where
  step : s.lifecycleLock.Step i (s.tasks i).place t.lifecycleLock (t.tasks i).place
  procs : t.procs = s.procs
  nextProc : t.nextProc = s.nextProc
  entered : ∀ op stage, t.tasks i = .inside op stage → stage = .entered

theorem aloof_rests {task : Task} (outside : (s.tasks i).place = .outside) (rests : task.place = .outside) :
    s.Aloof i (s.setTask i task) := by
  refine ⟨?_, rfl, rfl, ?_⟩
  · rw [tasks_setTask_self, outside, rests]
    exact .stays _
  · intro op stage inside
    rw [tasks_setTask_self] at inside
    rw [inside] at rests
    cases rests

theorem aloof_beginOp (outside : (s.tasks i).place = .outside) (lock : u.lifecycleLock = s.lifecycleLock)
    (procs : u.procs = s.procs) (nextProc : u.nextProc = s.nextProc) (op : Op) : s.Aloof i (u.beginOp i op) := by
  unfold beginOp
  rw [lock]
  split
  · rename_i idle
    refine ⟨?_, procs, nextProc, ?_⟩
    · show s.lifecycleLock.Step i _ _ ((u.setTask i _).tasks i).place
      rw [tasks_setTask_self, outside]
      exact .enters idle
    · intro other stage inside
      cases (tasks_setTask_self _).symm.trans inside
      rfl
  · rename_i busy
    refine ⟨?_, procs, nextProc, ?_⟩
    · show s.lifecycleLock.Step i _ _ ((u.setTask i _).tasks i).place
      rw [tasks_setTask_self, outside]
      exact .queues busy
    · intro other stage inside
      cases (tasks_setTask_self _).symm.trans inside

theorem place_loopTask (s : Supervisor) : s.loopTask.place = .outside := by
  unfold loopTask
  split <;> rfl

variable {act : SupervisorAct}

theorem aloof_outside (outside : (s.tasks i).place = .outside) (mine : act.task = some i) (enabled : s.Enabled act) :
    s.Aloof i (s.next c now act) := by
  have apart {op : Op} {stage : Stage} {k : Prop} (inside : s.tasks i = .inside op stage) : k := by
    rw [inside] at outside
    cases outside
  cases act with
  | connect j synth =>
    cases mine
    simp only [next]
    split
    · exact aloof_rests outside rfl
    · split
      · exact aloof_beginOp outside rfl rfl rfl _
      · unfold route
        split
        · exact aloof_beginOp outside rfl rfl rfl _
        · exact aloof_rests outside rfl
  | ensureReady j name =>
    cases mine
    exact aloof_beginOp outside rfl rfl rfl _
  | reloadVoices j =>
    cases mine
    exact aloof_beginOp outside rfl rfl rfl _
  | enumerateAll j =>
    cases mine
    exact aloof_beginOp outside rfl rfl rfl _
  | switch j newName =>
    cases mine
    simp only [next]
    split
    · exact aloof_beginOp outside rfl rfl rfl _
    · exact aloof_rests outside rfl
  | shutdown j =>
    cases mine
    have lock : ({ s with closing := true } : Supervisor).lifecycleLock = s.lifecycleLock := rfl
    exact aloof_beginOp outside lock rfl rfl _
  | startIdleLoop j =>
    cases mine
    exact aloof_rests outside (place_loopTask s)
  | wake j =>
    cases mine
    simp only [next, wake]
    split
    · split
      · exact aloof_beginOp outside rfl rfl rfl _
      · exact aloof_rests outside (place_loopTask s)
    · exact aloof_rests outside (place_loopTask s)
  | acquire j =>
    cases mine
    obtain ⟨⟨op, waiting⟩, -⟩ := enabled
    rw [waiting] at outside
    cases outside
  | cancel j =>
    cases mine
    rcases enabled with sleeping | ⟨op, waiting⟩ | ⟨op, stage, inside, -⟩
    · simp only [next, sleeping]
      exact aloof_rests outside rfl
    · rw [waiting] at outside
      cases outside
    · exact apart inside
  | proceed j => cases mine; obtain ⟨_, _, inside, -⟩ := enabled; exact apart inside
  | spawnFails j => cases mine; obtain ⟨_, _, _, inside⟩ := enabled; exact apart inside
  | created j => cases mine; obtain ⟨_, _, inside⟩ := enabled; exact apart inside
  | abandoned j => cases mine; obtain ⟨_, _, inside, -⟩ := enabled; exact apart inside
  | connected j => cases mine; obtain ⟨_, _, inside⟩ := enabled; exact apart inside
  | parkWarmup j => cases mine; obtain ⟨_, _, inside, -⟩ := enabled; exact apart inside
  | readWarmup j => cases mine; obtain ⟨_, _, inside, -⟩ := enabled; exact apart inside
  | failWarmup j => cases mine; obtain ⟨_, _, inside⟩ := enabled; exact apart inside
  | reaped j => cases mine; obtain ⟨_, _, _, _, inside, -⟩ := enabled; exact apart inside
  | killed j => cases mine; obtain ⟨_, _, _, inside, -⟩ := enabled; exact apart inside
  | _ => cases mine

theorem act_of_waiting (waiting : s.tasks i = .waiting op) (mine : act.task = some i) (enabled : s.Enabled act) :
    act = .acquire i ∨ act = .cancel i := by
  have apart {op : Op} {stage : Stage} {k : Prop} (inside : s.tasks i = .inside op stage) : k := by
    cases waiting.symm.trans inside
  cases act with
  | acquire j => cases mine; exact .inl rfl
  | cancel j => cases mine; exact .inr rfl
  | proceed j => cases mine; obtain ⟨_, _, inside, -⟩ := enabled; exact apart inside
  | spawnFails j => cases mine; obtain ⟨_, _, _, inside⟩ := enabled; exact apart inside
  | created j => cases mine; obtain ⟨_, _, inside⟩ := enabled; exact apart inside
  | abandoned j => cases mine; obtain ⟨_, _, inside, -⟩ := enabled; exact apart inside
  | connected j => cases mine; obtain ⟨_, _, inside⟩ := enabled; exact apart inside
  | parkWarmup j => cases mine; obtain ⟨_, _, inside, -⟩ := enabled; exact apart inside
  | readWarmup j => cases mine; obtain ⟨_, _, inside, -⟩ := enabled; exact apart inside
  | failWarmup j => cases mine; obtain ⟨_, _, inside⟩ := enabled; exact apart inside
  | reaped j => cases mine; obtain ⟨_, _, _, _, inside, -⟩ := enabled; exact apart inside
  | killed j => cases mine; obtain ⟨_, _, _, inside, -⟩ := enabled; exact apart inside
  | exchange q step => cases mine
  | teardown q step => cases mine
  | killer q step => cases mine
  | exits q => cases mine
  | _ =>
    cases mine
    cases waiting.symm.trans enabled

theorem tasks_acquire (waiting : s.tasks i = .waiting op) :
    (s.next c now (.acquire i)).tasks i = .inside op .entered := by
  simp only [next, waiting]
  exact tasks_setTask_self _

theorem tasks_cancel_waiting (waiting : s.tasks i = .waiting op) : (s.next c now (.cancel i)).tasks i = .done := by
  simp only [next, waiting]
  exact tasks_setTask_self _

theorem aloof_waiting (waiting : s.tasks i = .waiting op) (mine : act.task = some i) (enabled : s.Enabled act) :
    s.Aloof i (s.next c now act) ∧ (s.next c now act).taskCost i < s.taskCost i := by
  have before : s.taskCost i = op.cost + 1 := by
    unfold taskCost
    rw [waiting]
  rw [before]
  obtain rfl | rfl := act_of_waiting waiting mine enabled
  · obtain ⟨-, first⟩ := enabled
    have here : (s.next c now (.acquire i)).tasks i = .inside op .entered := tasks_acquire waiting
    refine ⟨⟨?_, ?_, ?_, ?_⟩, ?_⟩
    · rw [here, waiting]
      simp only [next, waiting]
      exact .granted first
    · simp only [next, waiting]
      rfl
    · simp only [next, waiting]
      rfl
    · intro other stage inside
      cases here.symm.trans inside
      rfl
    · unfold taskCost
      rw [here]
      exact Nat.lt_succ_self _
  · have here : (s.next c now (.cancel i)).tasks i = .done := tasks_cancel_waiting waiting
    refine ⟨⟨?_, ?_, ?_, ?_⟩, ?_⟩
    · rw [here, waiting]
      simp only [next, waiting]
      exact .quits
    · simp only [next, waiting]
      rfl
    · simp only [next, waiting]
      rfl
    · intro other stage inside
      cases here.symm.trans inside
    · unfold taskCost
      rw [here]
      exact Nat.succ_pos _

theorem parks (inside : s.tasks i = .inside op stage) (enabled : s.Enabled (.parkWarmup i)) :
    (∃ p, stage = .warming p) ∧ (s.next c now (.parkWarmup i)).tasks i = s.tasks i ∧
      (s.next c now (.parkWarmup i)).lifecycleLock = s.lifecycleLock := by
  obtain ⟨other, p, warming, -⟩ := enabled
  cases inside.symm.trans warming
  simp only [next, inside]
  exact ⟨⟨p, rfl⟩, inside, rfl⟩

theorem lock_step (kept : Kept c s) (mine : act.task = some i) (enabled : s.Enabled act) :
    s.lifecycleLock.Step i (s.tasks i).place (s.next c now act).lifecycleLock ((s.next c now act).tasks i).place := by
  cases here : s.tasks i with
  | inside op stage =>
    by_cases parking : act = .parkWarmup i
    · subst parking
      obtain ⟨-, tasks, lock⟩ := @parks c s now i op stage here enabled
      rw [tasks, lock, here]
      exact .stays _
    · have step := (@runs_next c s now i op stage kept here act mine enabled parking).step here
      rwa [here] at step
  | waiting op =>
    have step := (@aloof_waiting c s now i op act here mine enabled).1.step
    rwa [here] at step
  | _ =>
    have outside : (s.tasks i).place = .outside := by rw [here]; rfl
    have step := (@aloof_outside c s now i act outside mine enabled).step
    rwa [here] at step

theorem stageCost_pos (op : Op) (stage : Stage) : 0 < s.stageCost op stage := by
  cases stage with
  | entered => exact Nat.lt_of_lt_of_le (Nat.succ_pos 7) (eight_le_cost op)
  | reaping p sequel =>
    have positive : 0 < sequel.cost op := by cases sequel <;> exact Nat.succ_pos _
    exact Nat.lt_of_lt_of_le positive (Nat.le_add_left ..)
  | _ => exact Nat.succ_pos _

end Supervisor

namespace ProviderProcess

/-- A process that is being taken down gets on with it, if anything. -/
structure Fades (p q : ProviderProcess) : Prop where
  teardown : q.teardown.rank ≤ p.teardown.rank
  killer : q.killer.rank ≤ p.killer.rank
  lives : q.lives ≤ p.lives
  tears : p.teardown ≠ .idle → q.teardown ≠ .idle
  kills : p.killer ≠ .idle → q.killer ≠ .idle

variable {p q : ProviderProcess}

theorem Fades.refl (p : ProviderProcess) : Fades p p := ⟨Nat.le_refl _, Nat.le_refl _, Nat.le_refl _, id, id⟩

theorem SameLife.fades (same : SameLife p q) : Fades p q := by
  refine ⟨?_, ?_, ?_, ?_, ?_⟩
  · rw [same.teardown]
  · rw [same.killer]
  · unfold lives
    rw [same.exited]
  · rw [same.teardown]
    exact id
  · rw [same.killer]
    exact id

theorem torn_teardownStep {act : TeardownAct} (enabled : p.TeardownEnabled act) (moves : act ≠ .park) :
    (p.teardownStep act).teardown ≠ .idle ∧ (p.teardownStep act).teardown.rank < p.teardown.rank := by
  have torn (later : Teardown) (same : (p.teardownStep act).teardown = later) (some_stage : later ≠ .idle)
      (less : later.rank < p.teardown.rank) :
      (p.teardownStep act).teardown ≠ .idle ∧ (p.teardownStep act).teardown.rank < p.teardown.rank := by
    rw [same]
    exact ⟨some_stage, less⟩
  cases act with
  | park => exact absurd rfl moves
  | write =>
    have at_ : p.teardown = .writing := enabled
    exact torn .reading rfl nofun (by rw [at_]; decide)
  | reply => exact torn .waiting rfl nofun (by rw [enabled.1]; decide)
  | giveUp tear => exact torn .waiting rfl nofun (by rw [enabled.1]; decide)
  | collide => exact torn (.finished true) rfl nofun (by rw [enabled.1]; decide)
  | terminate =>
    have at_ : p.teardown = .waiting := enabled
    exact torn .terminating rfl nofun (by rw [at_]; decide)
  | kill =>
    have at_ : p.teardown = .terminating := enabled
    exact torn .killing rfl nofun (by rw [at_]; decide)
  | exited =>
    apply torn (.finished false) rfl nofun
    rcases enabled.1 with at_ | at_ | at_ <;> rw [at_] <;> decide

theorem fades_teardownStep {act : TeardownAct} (enabled : p.TeardownEnabled act) : Fades p (p.teardownStep act) := by
  have killer : (p.teardownStep act).killer = p.killer := by cases act <;> rfl
  have lives : (p.teardownStep act).lives = p.lives := by cases act <;> rfl
  have others : ((p.teardownStep act).killer.rank ≤ p.killer.rank) ∧ (p.teardownStep act).lives ≤ p.lives ∧
      (p.killer ≠ .idle → (p.teardownStep act).killer ≠ .idle) := by
    rw [killer, lives]
    exact ⟨Nat.le_refl _, Nat.le_refl _, id⟩
  by_cases moves : act = .park
  · subst moves
    exact ⟨Nat.le_refl _, others.1, others.2.1, id, others.2.2⟩
  · obtain ⟨torn, less⟩ := torn_teardownStep enabled moves
    exact ⟨Nat.le_of_lt less, others.1, others.2.1, fun _ => torn, others.2.2⟩

theorem fades_killerStep {act : KillerAct} (enabled : p.KillerEnabled act) : Fades p (p.killerStep act) ∧
    (p.killerStep act).killer.rank < p.killer.rank := by
  cases act with
  | kill =>
    have at_ : p.killer = .terminating := enabled
    have less : Killer.rank .killing < p.killer.rank := by rw [at_]; decide
    exact ⟨⟨Nat.le_refl _, Nat.le_of_lt less, Nat.le_refl _, id, nofun⟩, less⟩
  | exited =>
    have less : Killer.rank .finished < p.killer.rank := by
      rcases enabled.1 with at_ | at_ <;> rw [at_] <;> decide
    exact ⟨⟨Nat.le_refl _, Nat.le_of_lt less, Nat.le_refl _, id, nofun⟩, less⟩

theorem fades_exits (p : ProviderProcess) : Fades p { p with exited := true } :=
  ⟨Nat.le_refl _, Nat.le_refl _, Nat.zero_le _, id, id⟩

end ProviderProcess

namespace Supervisor

variable {c : Settings} {s t : Supervisor} {now : Nat} {i j w : TaskId} {op : Op} {stage : Stage} {p : ProcId}
  {act : SupervisorAct} {proc : ProviderProcess}

theorem fades_setProc (fades : (s.procs p).Fades proc) (q : ProcId) :
    (s.procs q).Fades ((s.setProc p proc).procs q) := by
  by_cases same : q = p
  · subst same
    rwa [procs_setProc]
  · rw [procs_setProc_of_ne same]
    exact .refl _

structure Fading (s t : Supervisor) : Prop where
  tasks : t.tasks = s.tasks
  lock : t.lifecycleLock = s.lifecycleLock
  nextProc : t.nextProc = s.nextProc
  fades : ∀ p, (s.procs p).Fades (t.procs p)

theorem fading_setProc (fades : (s.procs p).Fades proc) : s.Fading (s.setProc p proc) :=
  ⟨rfl, rfl, rfl, fades_setProc fades⟩

theorem fading_next (nobody : act.task = none) (enabled : s.Enabled act) : s.Fading (s.next c now act) := by
  cases act with
  | exchange p step => exact fading_setProc (ProviderProcess.sameLife_next ..).fades
  | teardown p step => exact fading_setProc (ProviderProcess.fades_teardownStep enabled)
  | killer p step => exact fading_setProc (ProviderProcess.fades_killerStep enabled).1
  | exits p => exact fading_setProc (ProviderProcess.fades_exits _)
  | _ => cases nobody

theorem Fading.stageCost_le (fading : s.Fading t) (op : Op) (stage : Stage) : t.stageCost op stage ≤ s.stageCost op stage := by
  cases stage with
  | reaping p sequel =>
    have fades := fading.fades p
    exact Nat.add_le_add_right (Nat.add_le_add fades.teardown fades.lives) _
  | abandoning p => exact Nat.add_le_add_right (fading.fades p).lives _
  | killing p cancelled =>
    have fades := fading.fades p
    exact Nat.add_le_add_right (Nat.add_le_add_right (Nat.add_le_add fades.killer fades.lives) _) _
  | _ => exact Nat.le_refl _

theorem Fading.underway (fading : s.Fading t) (underway : s.Underway stage) : t.Underway stage := by
  cases stage with
  | reaping p sequel => exact ⟨fading.nextProc ▸ underway.1, (fading.fades p).tears underway.2⟩
  | killing p cancelled => exact ⟨fading.nextProc ▸ underway.1, (fading.fades p).kills underway.2⟩
  | abandoning p =>
    show p < t.nextProc
    rw [fading.nextProc]
    exact underway
  | _ => trivial

theorem lives_exits (p : ProcId) (alive : (s.procs p).exited = false) :
    ((s.next c now (.exits p)).procs p).lives + 1 = (s.procs p).lives := by
  have gone : ((s.next c now (.exits p)).procs p) = { s.procs p with exited := true } := procs_setProc ..
  rw [gone]
  unfold ProviderProcess.lives
  rw [alive]
  rfl

theorem stageCost_awaits (awaits : stage.awaits act = true) (enabled : s.Enabled act) :
    (s.next c now act).stageCost op stage < s.stageCost op stage := by
  cases stage with
  | reaping p sequel =>
    cases act with
    | teardown q step =>
      obtain ⟨rfl, moves⟩ := of_decide_eq_true awaits
      obtain ⟨-, less⟩ := ProviderProcess.torn_teardownStep enabled moves
      have lives := (ProviderProcess.fades_teardownStep enabled).lives
      simp only [stageCost, next, procs_setProc]
      omega
    | exits q =>
      obtain rfl := of_decide_eq_true awaits
      have fewer := @lives_exits c s now p enabled.2
      have fades := (@fading_next c s now (.exits p) rfl enabled).fades p
      have rank := fades.teardown
      simp only [stageCost]
      omega
    | _ => cases awaits
  | killing p cancelled =>
    cases act with
    | killer q step =>
      obtain rfl := of_decide_eq_true awaits
      obtain ⟨fades, less⟩ := ProviderProcess.fades_killerStep enabled
      have lives := fades.lives
      simp only [stageCost, next, procs_setProc]
      omega
    | exits q =>
      obtain rfl := of_decide_eq_true awaits
      have fewer := @lives_exits c s now p enabled.2
      have fades := (@fading_next c s now (.exits p) rfl enabled).fades p
      have rank := fades.killer
      simp only [stageCost]
      omega
    | _ => cases awaits
  | abandoning p =>
    cases act with
    | exits q =>
      obtain rfl := of_decide_eq_true awaits
      have fewer := @lives_exits c s now p enabled.2
      simp only [stageCost]
      omega
    | _ => cases awaits
  | _ => cases awaits

/-- What every run keeps: the lock tells where the tasks are, and what a task waits for is under way. -/
structure Orderly (c : Settings) (s : Supervisor) : Prop where
  kept : Kept c s
  tells : s.lifecycleLock.Tells fun i => (s.tasks i).place
  underway : ∀ i op stage, s.tasks i = .inside op stage → s.Underway stage

theorem start_orderly (c : Settings) (defaultProvider : String) : Orderly c (start defaultProvider) where
  kept := start_kept c defaultProvider
  tells := ⟨fun _ => iff_of_false nofun nofun, fun _ => iff_of_false nofun nofun, List.nodup_nil⟩
  underway _ _ _ inside := nomatch inside

theorem aloof_next (mine : act.task = some i) (enabled : s.Enabled act)
    (apart : ∀ op stage, s.tasks i ≠ .inside op stage) : s.Aloof i (s.next c now act) := by
  cases here : s.tasks i with
  | inside op stage => exact absurd here (apart op stage)
  | waiting op => exact (aloof_waiting here mine enabled).1
  | _ => exact aloof_outside (by rw [here]; rfl) mine enabled

theorem Aloof.underway (aloof : s.Aloof i t) (underway : s.Underway stage) : t.Underway stage := by
  cases stage with
  | reaping p sequel => exact ⟨aloof.nextProc ▸ underway.1, aloof.procs ▸ underway.2⟩
  | killing p cancelled => exact ⟨aloof.nextProc ▸ underway.1, aloof.procs ▸ underway.2⟩
  | abandoning p =>
    show p < t.nextProc
    rw [aloof.nextProc]
    exact underway
  | _ => trivial

theorem Aloof.stageCost_eq (aloof : s.Aloof i t) (op : Op) (stage : Stage) : t.stageCost op stage = s.stageCost op stage := by
  cases stage <;> simp only [stageCost, aloof.procs]

theorem Orderly.underway_next (orderly : Orderly c s) (enabled : s.Enabled act)
    (inside : (s.next c now act).tasks j = .inside op stage) : (s.next c now act).Underway stage := by
  cases actor : act.task with
  | none =>
    have fading : s.Fading (s.next c now act) := fading_next actor enabled
    rw [fading.tasks] at inside
    exact fading.underway (orderly.underway j op stage inside)
  | some i =>
    by_cases within : ∃ op stage, s.tasks i = .inside op stage
    · obtain ⟨before, earlier, here⟩ := within
      have mine : j = i := by
        by_contra other
        rw [tasks_next (by rw [actor]; exact fun same => other (Option.some.inj same).symm)] at inside
        exact other (orderly.kept.exclusive.only here inside)
      subst mine
      by_cases parking : act = .parkWarmup j
      · subst parking
        obtain ⟨⟨p, rfl⟩, tasks, -⟩ := @parks c s now j before earlier here enabled
        cases (tasks.trans here).symm.trans inside
        trivial
      · have runs : s.Runs j before earlier (s.next c now act) := runs_next orderly.kept here actor enabled parking
        cases runs with
        | continues later next at_ lock less underway =>
          cases at_.symm.trans inside
          exact underway
        | leaves outside lock =>
          rw [inside] at outside
          cases outside
        | returns idle later at_ lock =>
          cases at_.symm.trans inside
          trivial
        | requeues busy queued lock =>
          rw [inside] at queued
          cases queued
    · have aloof : s.Aloof i (s.next c now act) :=
        aloof_next actor enabled fun op stage here => within ⟨op, stage, here⟩
      by_cases mine : j = i
      · subst mine
        rw [aloof.entered op stage inside]
        trivial
      · rw [tasks_next (by rw [actor]; exact fun same => mine (Option.some.inj same).symm)] at inside
        exact aloof.underway (orderly.underway j op stage inside)

theorem others_next (actor : act.task = some i) : ∀ j, j ≠ i →
    ((s.next c now act).tasks j).place = (s.tasks j).place := by
  intro j other
  rw [tasks_next (by rw [actor]; exact fun same => other (Option.some.inj same).symm)]

theorem Orderly.next (orderly : Orderly c s) (enabled : s.Enabled act) : Orderly c (s.next c now act) := by
  refine ⟨orderly.kept.next enabled, ?_, fun _ _ _ inside => orderly.underway_next enabled inside⟩
  cases actor : act.task with
  | none =>
    have fading : s.Fading (s.next c now act) := fading_next actor enabled
    rw [fading.lock, fading.tasks]
    exact orderly.tells
  | some i => exact orderly.tells.step (lock_step orderly.kept actor enabled) (others_next actor)

theorem Orderly.run {labels : List (Nat × SupervisorAct)} {ok : Supervisor → Nat × SupervisorAct → Prop}
    (orderly : Orderly c s) (run : (system c).Run ok s labels t) : Orderly c t :=
  run.invariant (fun _ _ orderly enabled _ => orderly.next enabled) orderly

theorem taskCost_inside (inside : s.tasks i = .inside op stage) : s.taskCost i = s.stageCost op stage := by
  unfold taskCost
  rw [inside]

theorem Orderly.taskCost_mine (orderly : Orderly c s) (waits : (s.tasks w).place = .queued)
    (still : ((s.next c now act).tasks w).place = .queued) (actor : act.task = some i) (enabled : s.Enabled act)
    (ahead : i ∈ (s.next c now act).lifecycleLock.line w) :
    (s.next c now act).taskCost i ≤ s.taskCost i ∧ (act ≠ .parkWarmup i → (s.next c now act).taskCost i < s.taskCost i) := by
  have step : s.lifecycleLock.Step i (s.tasks i).place (s.next c now act).lifecycleLock
    ((s.next c now act).tasks i).place := lock_step orderly.kept actor enabled
  obtain ⟨-, stayed⟩ := orderly.tells.line_step step (others_next actor) waits still
  have lock := stayed ahead
  have strictly (less : (s.next c now act).taskCost i < s.taskCost i) :
      (s.next c now act).taskCost i ≤ s.taskCost i ∧ (act ≠ .parkWarmup i → (s.next c now act).taskCost i < s.taskCost i) :=
    ⟨Nat.le_of_lt less, fun _ => less⟩
  cases here : s.tasks i with
  | inside op stage =>
    have held := orderly.kept.exclusive i op stage here
    have same : (s.next c now act).lifecycleLock = s.lifecycleLock := by
      rcases lock with same | ⟨first, -⟩
      · exact same
      · cases held.symm.trans first.1
    by_cases parking : act = .parkWarmup i
    · subst parking
      obtain ⟨⟨p, rfl⟩, tasks, -⟩ := @parks c s now i op stage here enabled
      rw [taskCost_inside (tasks.trans here), taskCost_inside here]
      exact ⟨Nat.le_refl _, fun moves => absurd rfl moves⟩
    · have runs : s.Runs i op stage (s.next c now act) := runs_next orderly.kept here actor enabled parking
      cases runs with
      | continues later next at_ _ less underway =>
        apply strictly
        rw [taskCost_inside at_, taskCost_inside here]
        exact less
      | leaves outside left =>
        rw [same.symm.trans left] at held
        cases held
      | returns idle later at_ left =>
        have waiting := (orderly.tells.waiters w).mpr waits
        rw [show s.lifecycleLock.waiters = [] from idle.2] at waiting
        cases waiting
      | requeues busy queued left =>
        rw [same.symm.trans left] at held
        cases held
  | waiting op => exact strictly (aloof_waiting here actor enabled).2
  | _ =>
    exfalso
    rcases lock with same | ⟨first, -⟩
    · rw [same] at ahead
      rcases FifoLock.mem_line orderly.tells ahead with within | queued
      · rw [here] at within
        cases within
      · rw [here] at queued
        cases queued
    · have queued := (orderly.tells.waiters i).mp (List.mem_of_mem_head? first.2)
      rw [here] at queued
      cases queued

theorem Orderly.taskCost_le (orderly : Orderly c s) (waits : (s.tasks w).place = .queued)
    (still : ((s.next c now act).tasks w).place = .queued) (enabled : s.Enabled act)
    (ahead : j ∈ (s.next c now act).lifecycleLock.line w) : (s.next c now act).taskCost j ≤ s.taskCost j := by
  cases actor : act.task with
  | none =>
    have fading : s.Fading (s.next c now act) := fading_next actor enabled
    unfold taskCost
    rw [fading.tasks]
    split
    · exact Nat.le_refl _
    · exact fading.stageCost_le _ _
    · exact Nat.le_refl _
  | some i =>
    by_cases mine : j = i
    · subst mine
      exact (orderly.taskCost_mine waits still actor enabled ahead).1
    · have elsewhere : act.task ≠ some j := by
        rw [actor]
        exact fun same => mine (Option.some.inj same).symm
      have tasks : (s.next c now act).tasks j = s.tasks j := tasks_next elsewhere
      cases here : s.tasks j with
      | inside op stage =>
        have aloof : s.Aloof i (s.next c now act) := by
          apply aloof_next actor enabled
          intro other earlier inside
          exact mine (orderly.kept.exclusive.only inside here)
        rw [taskCost_inside (tasks.trans here), taskCost_inside here, aloof.stageCost_eq]
      | _ =>
        unfold taskCost
        rw [tasks, here]

theorem actor_of_awaits (awaits : stage.awaits act = true) : act.task = none := by
  cases act with
  | exchange p step => rfl
  | teardown p step => rfl
  | killer p step => rfl
  | exits p => rfl
  | _ => cases stage <;> cases awaits

theorem stage_any {awaited : SupervisorAct → Stage → Bool} (found : s.stage.any (awaited act) = true) :
    ∃ i op stage, s.lifecycleLock.holder = some i ∧ s.tasks i = .inside op stage ∧ awaited act stage = true := by
  unfold Supervisor.stage at found
  cases holder : s.lifecycleLock.holder with
  | none =>
    rw [holder] at found
    cases found
  | some i =>
    rw [holder, Option.bind_some] at found
    cases here : s.tasks i with
    | inside op stage =>
      rw [here] at found
      exact ⟨i, op, stage, rfl, here, found⟩
    | _ =>
      rw [here] at found
      cases found

theorem actor_of_pushes (pushes : s.pushes act = true) (actor : act.task = some i) (enabled : s.Enabled act) :
    (∃ op stage, s.tasks i = .inside op stage) ∨ s.lifecycleLock.Granted i := by
  have nobody (found : s.stage.any (·.awaits act) = true) {k : Prop} : k := by
    obtain ⟨j, op, stage, -, -, awaits⟩ := @stage_any s act (fun act stage => stage.awaits act) found
    cases actor.symm.trans (actor_of_awaits awaits)
  cases act with
  | acquire j => cases actor; exact .inr enabled.2
  | proceed j => cases actor; obtain ⟨op, stage, inside, -⟩ := enabled; exact .inl ⟨op, stage, inside⟩
  | spawnFails j => cases actor; obtain ⟨op, _, _, inside⟩ := enabled; exact .inl ⟨op, _, inside⟩
  | created j => cases actor; obtain ⟨op, _, inside⟩ := enabled; exact .inl ⟨op, _, inside⟩
  | abandoned j => cases actor; obtain ⟨op, _, inside, -⟩ := enabled; exact .inl ⟨op, _, inside⟩
  | connected j => cases actor; obtain ⟨op, _, inside⟩ := enabled; exact .inl ⟨op, _, inside⟩
  | readWarmup j => cases actor; obtain ⟨op, _, inside, -⟩ := enabled; exact .inl ⟨op, _, inside⟩
  | failWarmup j => cases actor; obtain ⟨op, _, inside⟩ := enabled; exact .inl ⟨op, _, inside⟩
  | reaped j => cases actor; obtain ⟨op, _, _, _, inside, -⟩ := enabled; exact .inl ⟨op, _, inside⟩
  | killed j => cases actor; obtain ⟨op, _, _, inside, -⟩ := enabled; exact .inl ⟨op, _, inside⟩
  | _ => exact nobody pushes

theorem pushes_of_nobody (nobody : act.task = none) : s.pushes act = s.stage.any (·.awaits act) := by
  cases act with
  | exchange p step => rfl
  | teardown p step => rfl
  | killer p step => rfl
  | exits p => rfl
  | _ => cases nobody

theorem mem_line_of_holder (holder : s.lifecycleLock.holder = some i) : i ∈ s.lifecycleLock.line w := by
  unfold FifoLock.line
  rw [holder]
  exact List.mem_append_left _ (List.mem_singleton.mpr rfl)

theorem mem_line_of_granted (first : s.lifecycleLock.Granted i) (other : i ≠ w) : i ∈ s.lifecycleLock.line w := by
  unfold FifoLock.line
  rw [FifoLock.granted_cons first, List.takeWhile_cons_of_pos (by simpa using other)]
  exact List.mem_append_right _ List.mem_cons_self

/-- Who pushes is ahead of `w`, and gets cheaper or leaves. -/
theorem Orderly.pusher (orderly : Orderly c s) (waits : (s.tasks w).place = .queued)
    (still : ((s.next c now act).tasks w).place = .queued) (enabled : s.Enabled act) (pushes : s.pushes act = true) :
    ∃ j ∈ s.lifecycleLock.line w, 0 < s.taskCost j ∧
      (j ∈ (s.next c now act).lifecycleLock.line w → (s.next c now act).taskCost j < s.taskCost j) := by
  cases actor : act.task with
  | none =>
    rw [pushes_of_nobody actor] at pushes
    obtain ⟨j, op, stage, holder, inside, awaits⟩ := @stage_any s act (fun act stage => stage.awaits act) pushes
    have tasks : (s.next c now act).tasks j = .inside op stage := by
      rw [(fading_next actor enabled : s.Fading (s.next c now act)).tasks, inside]
    refine ⟨j, mem_line_of_holder holder, ?_, ?_⟩
    · rw [taskCost_inside inside]
      exact stageCost_pos op stage
    · intro _
      rw [taskCost_inside tasks, taskCost_inside inside]
      exact stageCost_awaits awaits enabled
  | some i =>
    have moves : act ≠ .parkWarmup i := by
      rintro rfl
      obtain ⟨j, op, stage, -, -, awaits⟩ := @stage_any s (.parkWarmup i) (fun act stage => stage.awaits act) pushes
      cases actor.symm.trans (actor_of_awaits awaits)
    refine ⟨i, ?_⟩
    have fewer (ahead : i ∈ (s.next c now act).lifecycleLock.line w) :=
      (orderly.taskCost_mine waits still actor enabled ahead).2 moves
    rcases actor_of_pushes pushes actor enabled with ⟨op, stage, inside⟩ | first
    · refine ⟨mem_line_of_holder (orderly.kept.exclusive i op stage inside), ?_, fewer⟩
      rw [taskCost_inside inside]
      exact stageCost_pos op stage
    · have queued : (s.tasks i).place = .queued := (orderly.tells.waiters i).mp (List.mem_of_mem_head? first.2)
      cases here : s.tasks i with
      | waiting op =>
        have other : i ≠ w := by
          rintro rfl
          rcases act_of_waiting here actor enabled with rfl | rfl
          · rw [tasks_acquire here] at still
            cases still
          · rw [tasks_cancel_waiting here] at still
            cases still
        refine ⟨mem_line_of_granted first other, ?_, fewer⟩
        unfold taskCost
        rw [here]
        exact Nat.succ_pos _
      | _ =>
        rw [here] at queued
        cases queued

/-- A step makes the line ahead of `w` no longer and no dearer, and cheaper where it pushes. -/
theorem Orderly.delay_next (orderly : Orderly c s) (waits : (s.tasks w).place = .queued)
    (still : ((s.next c now act).tasks w).place = .queued) (enabled : s.Enabled act) :
    ((s.next c now act).lifecycleLock.line w).Sublist (s.lifecycleLock.line w) ∧
      (s.next c now act).delay w + (if s.pushes act then 1 else 0) ≤ s.delay w := by
  have sublist : ((s.next c now act).lifecycleLock.line w).Sublist (s.lifecycleLock.line w) := by
    cases actor : act.task with
    | none =>
      rw [(fading_next actor enabled : s.Fading (s.next c now act)).lock]
    | some i =>
      exact (orderly.tells.line_step (lock_step orderly.kept actor enabled) (others_next actor) waits still).1
  have less : ∀ j ∈ (s.next c now act).lifecycleLock.line w, (s.next c now act).taskCost j ≤ s.taskCost j :=
    fun j ahead => orderly.taskCost_le waits still enabled ahead
  refine ⟨sublist, ?_⟩
  cases pushes : s.pushes act with
  | false => exact load_le_of_sublist sublist less
  | true =>
    obtain ⟨j, ahead, positive, fewer⟩ := orderly.pusher waits still enabled pushes
    exact load_lt_of_sublist sublist less ahead positive fewer

theorem pushes_of_awaits (held : s.lifecycleLock.holder = some i) (inside : s.tasks i = .inside op stage)
    (awaits : stage.awaits act = true) : s.pushes act = true := by
  have found : s.stage.any (·.awaits act) = true := by
    unfold Supervisor.stage
    rw [held, Option.bind_some, inside]
    exact awaits
  cases act with
  | acquire j => rfl
  | proceed j => rfl
  | spawnFails j => rfl
  | created j => rfl
  | abandoned j => rfl
  | connected j => rfl
  | readWarmup j => rfl
  | failWarmup j => rfl
  | reaped j => rfl
  | killed j => rfl
  | _ => exact found

end Supervisor

namespace ProviderProcess

variable {p : ProviderProcess}

theorem teardown_proceeds (torn : p.teardown ≠ .idle) : (∃ raised, p.teardown = .finished raised) ∨
    (∃ act, act ≠ .park ∧ p.TeardownEnabled act) ∨ p.exited = false := by
  cases at_ : p.teardown with
  | idle => exact absurd at_ torn
  | writing => exact .inr (.inl ⟨.write, nofun, at_⟩)
  | reading => exact .inr (.inl ⟨.giveUp false, nofun, at_, nofun⟩)
  | waiting => exact .inr (.inl ⟨.terminate, nofun, at_⟩)
  | terminating => exact .inr (.inl ⟨.kill, nofun, at_⟩)
  | killing =>
    cases gone : p.exited with
    | false => exact .inr (.inr rfl)
    | true => exact .inr (.inl ⟨.exited, nofun, .inr (.inr at_), gone⟩)
  | finished raised => exact .inl ⟨raised, rfl⟩

theorem killer_proceeds (torn : p.killer ≠ .idle) :
    p.killer = .finished ∨ (∃ act, p.KillerEnabled act) ∨ p.exited = false := by
  cases at_ : p.killer with
  | idle => exact absurd at_ torn
  | terminating => exact .inr (.inl ⟨.kill, at_⟩)
  | killing =>
    cases gone : p.exited with
    | false => exact .inr (.inr rfl)
    | true => exact .inr (.inl ⟨.exited, .inr at_, gone⟩)
  | finished => exact .inl rfl

end ProviderProcess

namespace Supervisor

variable {c : Settings} {s : Supervisor} {i w : TaskId} {op : Op} {stage : Stage} {act : SupervisorAct}

/-- The holder of the lock can get on, or what it waits for can. -/
theorem Orderly.holder_proceeds (orderly : Orderly c s) (inside : s.tasks i = .inside op stage) :
    ∃ act, s.Enabled act ∧ s.pushes act = true := by
  have held := orderly.kept.exclusive i op stage inside
  have underway := orderly.underway i op stage inside
  cases stage with
  | entered => exact ⟨.proceed i, ⟨op, _, inside, rfl⟩, rfl⟩
  | spawning name eager => exact ⟨.proceed i, ⟨op, _, inside, rfl⟩, rfl⟩
  | creating p => exact ⟨.created i, ⟨op, p, inside⟩, rfl⟩
  | connecting p => exact ⟨.connected i, ⟨op, p, inside⟩, rfl⟩
  | warming p => exact ⟨.failWarmup i, ⟨op, p, inside⟩, rfl⟩
  | abandoning p =>
    cases gone : (s.procs p).exited with
    | false => exact ⟨.exits p, ⟨underway, gone⟩, pushes_of_awaits held inside (decide_eq_true rfl)⟩
    | true => exact ⟨.abandoned i, ⟨op, p, inside, gone⟩, rfl⟩
  | reaping p sequel =>
    obtain ⟨born, torn⟩ := underway
    rcases ProviderProcess.teardown_proceeds torn with ⟨raised, ended⟩ | ⟨step, moves, enabled⟩ | alive
    · exact ⟨.reaped i, ⟨op, p, sequel, raised, inside, ended⟩, rfl⟩
    · exact ⟨.teardown p step, enabled, pushes_of_awaits held inside (decide_eq_true ⟨rfl, moves⟩)⟩
    · exact ⟨.exits p, ⟨born, alive⟩, pushes_of_awaits held inside (decide_eq_true rfl)⟩
  | killing p cancelled =>
    obtain ⟨born, torn⟩ := underway
    rcases ProviderProcess.killer_proceeds torn with ended | ⟨step, enabled⟩ | alive
    · exact ⟨.killed i, ⟨op, p, cancelled, inside, ended⟩, rfl⟩
    · exact ⟨.killer p step, enabled, pushes_of_awaits held inside (decide_eq_true rfl)⟩
    · exact ⟨.exits p, ⟨born, alive⟩, pushes_of_awaits held inside (decide_eq_true rfl)⟩

theorem Orderly.proceeds (orderly : Orderly c s) (waits : (s.tasks w).place = .queued) :
    ∃ act, s.Enabled act ∧ s.pushes act = true := by
  cases holder : s.lifecycleLock.holder with
  | some i =>
    have within := (orderly.tells.holder i).mp holder
    cases here : s.tasks i with
    | inside op stage => exact orderly.holder_proceeds here
    | _ =>
      rw [here] at within
      cases within
  | none =>
    have queued := (orderly.tells.waiters w).mpr waits
    cases waiters : s.lifecycleLock.waiters with
    | nil =>
      rw [waiters] at queued
      cases queued
    | cons first rest =>
      have granted : s.lifecycleLock.Granted first := ⟨holder, by rw [waiters]; rfl⟩
      have place := (orderly.tells.waiters first).mp (List.mem_of_mem_head? granted.2)
      cases here : s.tasks first with
      | waiting op => exact ⟨.acquire first, ⟨⟨op, here⟩, granted⟩, rfl⟩
      | _ =>
        rw [here] at place
        cases place

end Supervisor

def Op.todo : Op → List String
  | .enumerate todo _ _ => todo
  | .ensureReady _ _ | .switch _ | .evict | .shutdown => []

namespace Supervisor

variable {c : Settings} {s t : Supervisor} {now : Nat} {w : TaskId} {op later : Op} {act : SupervisorAct}

def Limited (c : Settings) (s : Supervisor) : Prop :=
  ∀ i op, (s.tasks i).pursues = some op → op.todo.length ≤ c.registry.length

theorem todo_of_opens {i : TaskId} (opens : Opens c s i act op) : op.todo.length ≤ c.registry.length := by
  cases opens with
  | enumerateAll => exact Nat.le_of_eq (List.length_insertionSort _ _)
  | populates empty => exact Nat.le_of_eq (List.length_insertionSort _ _)
  | _ => exact Nat.zero_le _

theorem todo_of_follows (follows : Follows t op later) : later.todo.length ≤ op.todo.length := by
  cases follows with
  | same => exact Nat.le_refl _
  | lists => exact Nat.le_succ _
  | streams => exact Nat.le_refl _
  | routes found => exact Nat.le_refl _

theorem Limited.next (limited : Limited c s) (enabled : s.Enabled act) : Limited c (s.next c now act) := by
  intro i op pursues
  rcases pursues_cases enabled pursues with same | opens | ⟨before, stage, inside, follows⟩
  · exact limited i op same
  · exact todo_of_opens opens
  · have earlier : (s.tasks i).pursues = some before := by rw [inside]; rfl
    exact Nat.le_trans (todo_of_follows follows) (limited i before earlier)

theorem cost_le_todo (op : Op) : op.cost ≤ 19 * op.todo.length + 19 := by
  cases op with
  | enumerate todo out asked =>
    show 19 * todo.length + 8 ≤ 19 * todo.length + 19
    omega
  | _ => exact Nat.le_refl 19

theorem later_le_todo (op : Op) : op.later ≤ 19 * op.todo.length := by
  cases op with
  | enumerate todo out asked =>
    cases todo with
    | nil => exact Nat.zero_le _
    | cons name todo =>
      show 19 * todo.length + 8 ≤ 19 * (todo.length + 1)
      omega
  | _ => exact Nat.zero_le _

theorem stageCost_le_todo (op : Op) (stage : Stage) : s.stageCost op stage ≤ 19 * (op.todo.length + 2) := by
  have cost := cost_le_todo op
  have later := later_le_todo op
  cases stage with
  | reaping p sequel =>
    have rank : (s.procs p).teardown.rank ≤ 5 := by
      cases (s.procs p).teardown <;> exact Nat.le_of_ble_eq_true rfl
    have lives := lives_le (s.procs p)
    have rest : sequel.cost op ≤ 19 * op.todo.length + 20 := by
      cases sequel <;> simp only [Sequel.cost] <;> omega
    simp only [stageCost]
    omega
  | killing p cancelled =>
    have rank : (s.procs p).killer.rank ≤ 2 := by
      cases (s.procs p).killer <;> exact Nat.le_of_ble_eq_true rfl
    have lives := lives_le (s.procs p)
    simp only [stageCost]
    omega
  | abandoning p =>
    have lives := lives_le (s.procs p)
    simp only [stageCost]
    omega
  | _ =>
    simp only [stageCost]
    omega

theorem Limited.taskCost_le (limited : Limited c s) (i : TaskId) :
    s.taskCost i ≤ 19 * (c.registry.length + 2) := by
  unfold taskCost
  split
  · rename_i op here
    have few := limited i op (by rw [here]; rfl)
    have cost := cost_le_todo op
    omega
  · rename_i op stage here
    have few := limited i op (by rw [here]; rfl)
    have cost := @stageCost_le_todo s op stage
    omega
  · exact Nat.zero_le _

/-- The wait of `w` for the lifecycle lock, from `s` on. -/
structure Served (c : Settings) (s : Supervisor) (w : TaskId) (labels : List (Nat × SupervisorAct))
    (t : Supervisor) : Prop where
  waits : t.tasks w = s.tasks w
  overtaken : (t.lifecycleLock.line w).Sublist (s.lifecycleLock.line w)
  bounded : pushed c s labels ≤ 19 * (c.registry.length + 2) * (s.lifecycleLock.line w).length
  proceeds : ∃ act, t.Enabled act ∧ t.pushes act = true

def Stays (w : TaskId) (_ : Supervisor) (label : Nat × SupervisorAct) : Prop :=
  label.2 ≠ .acquire w ∧ label.2 ≠ .cancel w

theorem tasks_of_stays (waiting : s.tasks w = .waiting op) (enabled : s.Enabled act)
    (stays : act ≠ .acquire w ∧ act ≠ .cancel w) : (s.next c now act).tasks w = .waiting op := by
  rw [tasks_next, waiting]
  intro mine
  rcases act_of_waiting waiting mine enabled with acquires | cancels
  · exact stays.1 acquires
  · exact stays.2 cancels

theorem Orderly.delay_run {labels : List (Nat × SupervisorAct)} (orderly : Orderly c s)
    (waiting : s.tasks w = .waiting op) (run : (system c).Run (Stays w) s labels t) :
    t.tasks w = .waiting op ∧ (t.lifecycleLock.line w).Sublist (s.lifecycleLock.line w) ∧
      pushed c s labels + t.delay w ≤ s.delay w := by
  induction run with
  | nil s => exact ⟨waiting, .refl _, by rw [pushed, Nat.zero_add]⟩
  | @cons s t label labels allowed meets rest ih =>
    have enabled : s.Enabled label.2 := allowed
    have still : (s.next c label.1 label.2).tasks w = .waiting op := tasks_of_stays waiting enabled meets
    have queued : (s.tasks w).place = .queued := by rw [waiting]; rfl
    have queues : ((s.next c label.1 label.2).tasks w).place = .queued := by rw [still]; rfl
    obtain ⟨shorter, less⟩ := orderly.delay_next queued queues enabled
    obtain ⟨waits, sublist, rest⟩ := ih (orderly.next enabled) still
    refine ⟨waits, sublist.trans shorter, ?_⟩
    have step : pushed c s (label :: labels) =
      (if s.pushes label.2 then 1 else 0) + pushed c (s.next c label.1 label.2) labels := rfl
    rw [step]
    have rest : pushed c (s.next c label.1 label.2) labels + t.delay w ≤ (s.next c label.1 label.2).delay w := rest
    omega

theorem lifecycleLock_serves {defaultProvider : String} {labels later : List (Nat × SupervisorAct)}
    (run : (system c).Run (fun _ _ => True) (start defaultProvider) labels s) (waiting : s.tasks w = .waiting op)
    (rest : (system c).Run (Stays w) s later t) : Served c s w later t := by
  have orderly : Orderly c s := (start_orderly c defaultProvider).run run
  have limited : Limited c s :=
    run.invariant (fun _ _ limited enabled _ => limited.next enabled) (fun _ _ pursues => nomatch pursues)
  obtain ⟨waits, overtaken, less⟩ := orderly.delay_run waiting rest
  have most : s.delay w ≤ 19 * (c.registry.length + 2) * (s.lifecycleLock.line w).length :=
    load_le fun i _ => limited.taskCost_le i
  refine ⟨waits.trans waiting.symm, overtaken, by omega, ?_⟩
  have queued : (t.tasks w).place = .queued := by rw [waits]; rfl
  exact (orderly.run rest).proceeds queued

def secondInLine : List (Nat × SupervisorAct) := untimed
  [.ensureReady 1 (some "kokoro-onnx"), .ensureReady 2 (some "omnivoice")]

def firstFails : List (Nat × SupervisorAct) := untimed
  [.proceed 1, .proceed 1, .created 1, .connected 1, .failWarmup 1, .exits 0, .killer 0 .exited, .killed 1]

theorem secondInLine_served :
    Served twoProviders ((system twoProviders).after (start "kokoro-onnx") secondInLine) 2 firstFails
      ((system twoProviders).after ((system twoProviders).after (start "kokoro-onnx") secondInLine) firstFails) := by
  have admitted : (system twoProviders).Admits (fun _ _ => True) (start "kokoro-onnx") secondInLine :=
    ⟨⟨rfl, trivial⟩, ⟨rfl, trivial⟩, trivial⟩
  have later : (system twoProviders).Admits (Stays 2)
      ((system twoProviders).after (start "kokoro-onnx") secondInLine) firstFails :=
    ⟨⟨⟨_, _, rfl, rfl⟩, nofun, nofun⟩, ⟨⟨_, _, rfl, rfl⟩, nofun, nofun⟩, ⟨⟨_, _, rfl⟩, nofun, nofun⟩,
      ⟨⟨_, _, rfl⟩, nofun, nofun⟩, ⟨⟨_, _, rfl⟩, nofun, nofun⟩, ⟨⟨by decide, rfl⟩, nofun, nofun⟩,
      ⟨⟨.inl rfl, rfl⟩, nofun, nofun⟩, ⟨⟨_, _, _, rfl, rfl⟩, nofun, nofun⟩, trivial⟩
  exact lifecycleLock_serves admitted.run rfl later.run

end Supervisor

end Daemon

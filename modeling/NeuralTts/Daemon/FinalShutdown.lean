import NeuralTts.Daemon.Actors

/-! What `shutdown` leaves when it has returned. `_closing` stops the idle loop and nothing else: a
task that waits for the lifecycle lock is let in afterwards, and may spawn. -/

namespace Daemon

open Library

def Settings.Startable (c : Settings) (name : String) : Prop :=
  name ∈ c.registry ∧ c.installed name = true

def Op.CanSpawn (c : Settings) : Op → Prop
  | .ensureReady target _ => c.Startable target
  | .switch newName => c.Startable newName
  | .enumerate todo _ _ => ∃ name ∈ todo, c.Startable name
  | .evict | .shutdown => False

def Op.Unlisted : Op → Prop
  | .enumerate _ out _ => out = ∅
  | _ => True

/-- A task that is not under the lifecycle lock with an operation that can spawn. -/
def Task.Quiet (c : Settings) : Task → Prop
  | .absent => False
  | .waiting op => op.Unlisted
  | .inside op _ => ¬op.CanSpawn c ∧ op.Unlisted
  | .exchanging _ _ | .sleeping | .done => True

theorem Begun.eq_of_waiting {op other : Op} {task : Task} (begun : Begun other task) (waits : task = .waiting op) : op = other := by
  cases begun with
  | waiting =>
    cases waits
    rfl
  | entered => cases waits

/-- A teardown that has ended normally has seen its process exit. -/
def ProviderProcess.Reaped (p : ProviderProcess) : Prop := p.teardown = .finished false → p.exited = true

namespace Supervisor

/-- `shutdown` returns in this step. -/
inductive ShutsDown (s : Supervisor) : SupervisorAct → Prop
  | vacant {i : TaskId} (inside : s.tasks i = .inside .shutdown .entered) (vacant : s.active = none) :
      ShutsDown s (.proceed i)
  | reaped {i : TaskId} {p : ProcId} (inside : s.tasks i = .inside .shutdown (.reaping p .leave))
      (finished : (s.procs p).teardown = .finished false) : ShutsDown s (.reaped i)

inductive Spawns (c : Settings) (s : Supervisor) (i : TaskId) : SupervisorAct → Prop
  | intro {op : Op} {name : String} {eager : Bool} (inside : s.tasks i = .inside op (.spawning name eager))
      (startable : c.Startable name) : Spawns c s i (.proceed i)

/-- A task that had begun at `before` gets the lifecycle lock for an operation that can spawn. -/
inductive LetsIn (c : Settings) (before s : Supervisor) : SupervisorAct → Prop
  | intro {i : TaskId} {op : Op} (begun : before.tasks i ≠ .absent) (waiting : s.tasks i = .waiting op)
      (spawns : op.CanSpawn c) : LetsIn c before s (.acquire i)

structure Tidy (c : Settings) (s : Supervisor) : Prop where
  kept : Kept c s
  fits : ∀ i op stage, s.tasks i = .inside op stage → stage.Fits s.active
  startable : ∀ p, p < s.nextProc → c.Startable (s.procs p).provider
  reaped : ∀ p, (s.procs p).Reaped
  unlisted : ∀ i op, s.tasks i = .waiting op → op.Unlisted

variable {c : Settings} {s t : Supervisor} {now : Nat} {i : TaskId} {op : Op} {stage : Stage}
  {act : SupervisorAct} {p : ProcId} {task : Task}

theorem canSpawn_of_spawn {name : String} {eager : Bool} (spawn : op.spawn c = some (name, eager))
    (startable : c.Startable name) : op.CanSpawn c := by
  cases op with
  | ensureReady target awaiter =>
    cases spawn
    exact startable
  | switch newName =>
    cases spawn
    exact startable
  | enumerate todo out asked =>
    cases todo with
    | nil => cases spawn
    | cons head todo =>
      cases spawn
      exact ⟨name, List.mem_cons_self .., startable⟩
  | evict => cases spawn
  | shutdown => cases spawn

theorem unlisted_of_asks (asked : Asks c s op) : op.Unlisted := by
  cases asked with
  | enumerate => rfl
  | _ => trivial

theorem Arrival.unlisted {awaiter : Awaiter} {proc : ProviderProcess}
    (arrival : s.Arrival now i p awaiter proc task) (waits : task = .waiting op) : op.Unlisted := by
  cases arrival with
  | streams synth route listed begun =>
    cases begun with
    | waiting =>
      cases waits
      trivial
    | entered => cases waits
  | _ => cases waits

theorem ne_waiting_of_resting (resting : task = .done ∨ task = .sleeping) : task ≠ .waiting op := by
  rcases resting with rfl | rfl <;> simp

theorem Moves.unlisted (moves : Moves c s now act t) (unlisted : ∀ i op, s.tasks i = .waiting op → op.Unlisted)
    (waits : t.tasks i = .waiting op) : op.Unlisted := by
  rcases moves.changes i with same | changes
  · exact unlisted i op (same.symm.trans waits)
  rw [waits] at changes
  cases changes with
  | rests aside resting => exact absurd rfl (ne_waiting_of_resting resting)
  | asks aside asked begun index =>
    rw [begun.eq_of_waiting rfl]
    exact unlisted_of_asks asked
  | serves inside active provider ready arrival => exact arrival.unlisted rfl
  | rebuilds inside goes =>
    rcases goes with ended | ⟨u, other, asked, index, begun⟩
    · cases ended
    · rw [begun.eq_of_waiting rfl]
      exact unlisted_of_asks asked
  | leaves inside leaves resting => exact absurd rfl (ne_waiting_of_resting resting)
  | warms inside read goes became =>
    cases goes with
    | returns arrival => exact arrival.unlisted rfl
  | removes inside clears removed active =>
    cases removed with
    | throws q name eager thrown => cases thrown
    | killed q cancelled thrown => cases thrown
    | ends q sequel resting => exact absurd rfl (ne_waiting_of_resting resting)

theorem Moves.startable (moves : Moves c s now act t)
    (startable : ∀ p, p < s.nextProc → c.Startable (s.procs p).provider) (born : p < t.nextProc) :
    c.Startable (t.procs p).provider := by
  by_cases older : p < s.nextProc
  · rw [(moves.make older).1]
    exact startable p older
  · have counted : t.nextProc ≠ s.nextProc := by
      intro same
      exact older (same ▸ born)
    cases moves with
    | @spawns _ i op name eager inside known installed becomes =>
      rw [show t.nextProc = s.nextProc + 1 from becomes.nextProc] at born
      have new : p = s.nextProc := Nat.le_antisymm (Nat.lt_succ_iff.mp born) (Nat.not_lt.mp older)
      have spawned : t.procs p = .spawned name eager now := by
        rw [new, becomes.procs]
        exact procs_setProc ..
      rw [spawned]
      exact ⟨known, installed⟩
    | works step => exact absurd rfl counted
    | rests aside resting becomes => exact absurd becomes.nextProc counted
    | asks aside asked begun becomes => exact absurd becomes.nextProc counted
    | admitted waiting becomes => exact absurd becomes.nextProc counted
    | serves inside active provider ready arrival becomes => exact absurd becomes.nextProc counted
    | advances inside advance becomes => exact absurd becomes.nextProc counted
    | reaps inside active displaces becomes => exact absurd becomes.nextProc counted
    | rebuilds inside index goes becomes =>
      subst index
      exact absurd becomes.nextProc counted
    | leaves inside leaves resting becomes => exact absurd becomes.nextProc counted
    | connects inside becomes => exact absurd becomes.nextProc counted
    | warms inside read goes becomes => exact absurd becomes.nextProc counted
    | warmupFails inside read becomes => exact absurd becomes.nextProc counted
    | removes inside clears removed becomes => exact absurd becomes.nextProc counted

theorem Works.reaped {proc : ProviderProcess} (works : s.Works now p act proc)
    (reaped : (s.procs p).Reaped) : proc.Reaped := by
  cases works with
  | exchange =>
    intro finished
    have same := ProviderProcess.sameLife_next (s.procs p) now
    rw [(same _).exited]
    exact reaped ((same _).teardown ▸ finished)
  | @teardown step enabled =>
    cases step with
    | exited => exact fun _ => enabled.2
    | park => exact reaped
    | _ => nofun
  | @killer step enabled => cases step <;> exact reaped
  | exits => exact fun _ => rfl
  | parks => exact reaped

theorem Moves.reaped (moves : Moves c s now act t) (reaped : ∀ p, (s.procs p).Reaped) (p : ProcId) :
    (t.procs p).Reaped := by
  have before := reaped p
  have handles := moves.handles p
  generalize t.procs p = proc at handles ⊢
  cases handles with
  | spared => exact before
  | works step => exact step.reaped before
  | serves inside active provider ready arrival =>
    intro finished
    rw [arrival.sameLife.exited]
    exact before (arrival.sameLife.teardown ▸ finished)
  | reaps inside later => nofun
  | spawns inside new => nofun
  | connects inside later => exact before
  | @warms i op warm proc inside read goes =>
    have warmed : ((s.setProc p warm).procs p).Reaped := by
      rw [procs_setProc]
      intro finished
      rw [(sameLife_warms read).exited]
      exact before ((sameLife_warms read).teardown ▸ finished)
    generalize t.tasks i = task at goes
    cases goes with
    | returns arrival =>
      intro finished
      rw [arrival.sameLife.exited]
      exact warmed (arrival.sameLife.teardown ▸ finished)
    | lists name todo out asked => nofun
    | switched newName => exact warmed
    | unasked unwanted => exact warmed
  | warmupFails inside read later => rcases read with rfl | rfl <;> exact before

theorem Tidy.next (tidy : Tidy c s) (enabled : s.Enabled act) : Tidy c (s.next c now act) := by
  have moved : Moves c s now act (s.next c now act) := moves enabled
  exact ⟨tidy.kept.next enabled, fun _ _ _ inside => moved.fits tidy.kept.exclusive tidy.fits inside,
    fun _ born => moved.startable tidy.startable born, fun p => moved.reaped tidy.reaped p,
    fun _ _ waits => moved.unlisted tidy.unlisted waits⟩

theorem start_tidy (c : Settings) (defaultProvider : String) : Tidy c (start defaultProvider) :=
  ⟨start_kept c defaultProvider, nofun, nofun, nofun, nofun⟩

/-- A process that was spawned before `before` has exited, and the tasks that had begun then stay
away from the lifecycle lock, or have it for something that cannot spawn. -/
structure Closed (c : Settings) (before s : Supervisor) : Prop where
  tidy : Tidy c s
  dead : ∀ p, s.Live p → before.nextProc ≤ p
  quiet : ∀ i, before.tasks i ≠ .absent → (s.tasks i).Quiet c

theorem tasks_of_unlisted {asked : Option SynthesizeRequest}
    (inside : s.tasks i = .inside (.enumerate [] ∅ asked) .entered) :
    (s.next c now (.proceed i)).tasks i = .done := by
  simp only [next, inside, enter]
  cases asked with
  | none => exact Function.update_self ..
  | some synth => exact Function.update_self ..

theorem Tidy.mature (tidy : Tidy c s) {q : ProcId} (active : s.active = some q) :
    c.Startable (s.procs q).provider :=
  tidy.startable q (tidy.kept.tended.born q active)

theorem Tidy.canSpawn_of_warming (tidy : Tidy c s) (inside : s.tasks i = .inside op (.warming p)) :
    op.CanSpawn c := by
  obtain ⟨born, asked⟩ := tidy.kept.spawns i op _ inside
  exact canSpawn_of_spawn asked (tidy.startable p born)

theorem quiet_of_resting {resting : Task} (rests : resting = .done ∨ resting = .sleeping) : resting.Quiet c := by
  rcases rests with rfl | rfl <;> trivial

theorem quiet_of_thrown (thrown : Thrown op task) (quiet : ¬op.CanSpawn c ∧ op.Unlisted) : task.Quiet c := by
  cases thrown with
  | ended => trivial
  | skipped name todo out asked =>
    refine ⟨?_, quiet.2⟩
    rintro ⟨wanted, listed, startable⟩
    exact quiet.1 ⟨wanted, List.mem_cons_of_mem _ listed, startable⟩

/-- A task that has begun stays quiet unless it is let in. -/
theorem Tidy.quiet_next (tidy : Tidy c s) (enabled : s.Enabled act) (quiet : (s.tasks i).Quiet c)
    (kept : ∀ op, act = .acquire i → s.tasks i = .waiting op → ¬op.CanSpawn c) :
    ((s.next c now act).tasks i).Quiet c := by
  by_cases waits : ∃ op, s.tasks i = .waiting op
  · obtain ⟨op, waiting⟩ := waits
    have unlisted : op.Unlisted := by
      rw [waiting] at quiet
      exact quiet
    rcases tasks_of_waiting c now enabled waiting with still | gone | ⟨acquires, within⟩
    · rw [still]
      exact unlisted
    · rw [gone]
      trivial
    · rw [within]
      exact ⟨kept op acquires waiting, unlisted⟩
  have moved : Moves c s now act (s.next c now act) := moves enabled
  rcases moved.changes i with same | changes
  · rw [same]
    exact quiet
  generalize here : (s.next c now act).tasks i = task at changes ⊢
  have within : ∀ {op : Op} {stage : Stage}, s.tasks i = .inside op stage → ¬op.CanSpawn c ∧ op.Unlisted := by
    intro op stage inside
    rw [inside] at quiet
    exact quiet
  have fewer : ∀ {name : String} {todo : List String} {out : Dict String (List Voice)}
      {asked : Option SynthesizeRequest} {stage : Stage},
      s.tasks i = .inside (.enumerate (name :: todo) out asked) stage →
      (Task.inside (.enumerate todo out asked) .entered).Quiet c := by
    intro name todo out asked stage inside
    exact quiet_of_thrown (.skipped name todo out asked) (within inside)
  cases changes with
  | rests aside resting => exact quiet_of_resting resting
  | asks aside asked begun index =>
    have apart : s.tasks i = .absent ∨ s.tasks i = .sleeping := by
      cases at_ : s.tasks i with
      | waiting op => exact absurd ⟨op, at_⟩ waits
      | absent => exact .inl rfl
      | sleeping => exact .inr rfl
      | _ =>
        rw [at_] at aside
        cases aside
    have opens := opens_of_pursues c now enabled apart (by rw [here]; exact begun.pursues)
    cases opens with
    | evict sleeping =>
      cases begun with
      | waiting => trivial
      | entered => exact ⟨id, trivial⟩
    | _ =>
      rw [show s.tasks i = .absent from enabled] at quiet
      exact quiet.elim
  | admitted waiting => exact absurd ⟨_, waiting⟩ waits
  | serves inside active provider ready arrival =>
    exact absurd (provider ▸ tidy.mature active) (within inside).1
  | advances inside advance =>
    cases advance with
    | wants wanted vacant => exact within inside
    | passes name todo out asked => exact fewer inside
    | reuses todo out asked active ready =>
      exact absurd ⟨_, List.mem_cons_self .., tidy.mature active⟩ (within inside).1
    | skips name todo out asked wanted eager => exact fewer inside
    | created => exact within inside
    | abandons => exact within inside
  | reaps inside active displaces => exact within inside
  | rebuilds inside goes =>
    obtain ⟨-, rfl⟩ := within inside
    rw [← here, show (s.next c now (.proceed i)).tasks i = .done from tasks_of_unlisted inside]
    trivial
  | leaves inside leaves resting => exact quiet_of_resting resting
  | spawns inside known installed new grown =>
    exact absurd (canSpawn_of_spawn (tidy.kept.spawns i _ _ inside) ⟨known, installed⟩) (within inside).1
  | connects inside active => exact within inside
  | warms inside read goes became => exact absurd (tidy.canSpawn_of_warming inside) (within inside).1
  | warmupFails inside read became => exact within inside
  | removes inside clears removed active =>
    cases removed with
    | throws q name eager thrown => exact quiet_of_thrown thrown (within inside)
    | killed q cancelled thrown => exact quiet_of_thrown thrown (within inside)
    | ends q sequel resting => exact quiet_of_resting resting
    | _ => exact within inside

theorem Closed.next {before : Supervisor} (closed : Closed c before s) (older : before.nextProc ≤ s.nextProc)
    (enabled : s.Enabled act) (kept : ¬LetsIn c before s act) : Closed c before (s.next c now act) := by
  have moved : Moves c s now act (s.next c now act) := moves enabled
  refine ⟨closed.tidy.next enabled, ?_, ?_⟩
  · intro p alive
    by_cases known : p < s.nextProc
    · exact closed.dead p ⟨known, moved.breathes known alive.2⟩
    · exact Nat.le_trans older (Nat.not_lt.mp known)
  · intro i begun
    refine closed.tidy.quiet_next enabled (closed.quiet i begun) ?_
    rintro op rfl waiting spawns
    exact kept (.intro begun waiting spawns)

/-- When `shutdown` returns, the only process that could still have been alive is gone. -/
theorem Tidy.closed (tidy : Tidy c s) (enabled : s.Enabled act) (returns : s.ShutsDown act)
    (orphanless : ∀ p, s.Live p → s.active = some p) : Closed c s (s.next c now act) := by
  have moved : Moves c s now act (s.next c now act) := moves enabled
  refine ⟨tidy.next enabled, ?_, ?_⟩
  · intro p alive
    by_contra known
    have before := moved.breathes (Nat.not_le.mp known) alive.2
    have active := orphanless p ⟨Nat.not_le.mp known, before⟩
    cases returns with
    | vacant inside vacant => cases vacant.symm.trans active
    | reaped inside finished =>
      cases active.symm.trans (tidy.fits _ _ _ inside)
      rw [tidy.reaped p finished] at before
      cases before
  · intro i begun
    obtain ⟨j, mine, stage, inside, done⟩ : ∃ j, act.task = some j ∧ ∃ stage, s.tasks j = .inside .shutdown stage ∧
        (s.next c now act).tasks j = .done := by
      cases returns with
      | @vacant j inside vacant =>
        refine ⟨j, rfl, _, inside, ?_⟩
        simp only [Supervisor.next, inside, enter, vacant]
        exact Function.update_self ..
      | @reaped j p inside finished =>
        refine ⟨j, rfl, _, inside, ?_⟩
        simp only [Supervisor.next, inside, finished, Supervisor.reaped]
        exact Function.update_self ..
    by_cases same : i = j
    · rw [same, done]
      trivial
    · have elsewhere : act.task ≠ some i := by
        rw [mine]
        exact fun eq => same (Option.some.inj eq).symm
      rw [tasks_next elsewhere]
      cases at_ : s.tasks i with
      | absent => exact absurd at_ begun
      | waiting op => exact tidy.unlisted i op at_
      | inside op stage => exact absurd (tidy.kept.exclusive.only inside at_) same
      | _ => trivial

/-- No process is left behind when `shutdown` returns, unless a step before has left one. -/
theorem orphanless_of_leavesNothing {defaultProvider : String} {labels : List (Nat × SupervisorAct)}
    (run : (system c).Run (fun s label => s.LeavesNothing label.2) (start defaultProvider) labels s)
    (returns : s.ShutsDown act) : ∀ p, s.Live p → s.active = some p := by
  obtain ⟨exclusive, accounted⟩ := accounted_of_leavesNothing run
  intro p alive
  rcases accounted.live p alive with active | ⟨i, op, stage, inside, carries⟩
  · exact active
  · obtain ⟨j, other, within, idle⟩ : ∃ j stage', s.tasks j = .inside .shutdown stage' ∧ stage'.carries = none := by
      cases returns with
      | vacant within => exact ⟨_, _, within, rfl⟩
      | reaped within => exact ⟨_, _, within, rfl⟩
    obtain rfl := exclusive.only inside within
    cases inside.symm.trans within
    rw [idle] at carries
    cases carries

/-- Once `shutdown` has returned with no process left behind, and as long as no task that had begun
by then gets the lifecycle lock for an operation that can spawn, none of the processes of that time
is alive, and whoever spawns a process had not begun. -/
theorem shutdown_final {defaultProvider : String} {labels later : List (Nat × SupervisorAct)}
    {before : Supervisor}
    (run : (system c).Run (fun _ _ => True) (start defaultProvider) labels before)
    (enabled : before.Enabled act) (returns : before.ShutsDown act)
    (orphanless : ∀ p, before.Live p → before.active = some p)
    (rest : (system c).Run (fun s label => ¬LetsIn c before s label.2) (before.next c now act) later t) :
    (∀ p, t.Live p → before.nextProc ≤ p) ∧ ∀ i act, Spawns c t i act → before.tasks i = .absent := by
  have tidies : ∀ s label, Tidy c s → (system c).enabled s label → True → Tidy c ((system c).next s label) :=
    fun _ _ tidy allowed _ => tidy.next allowed
  have tidy : Tidy c before := run.invariant tidies (start_tidy c defaultProvider)
  have moved : Moves c before now act (before.next c now act) := moves enabled
  have preserved : ∀ s label, (Closed c before s ∧ before.nextProc ≤ s.nextProc) → (system c).enabled s label →
      ¬LetsIn c before s label.2 →
      Closed c before ((system c).next s label) ∧ before.nextProc ≤ ((system c).next s label).nextProc := by
    intro s label sound allowed kept
    have goes : Moves c s label.1 label.2 (s.next c label.1 label.2) := moves allowed
    exact ⟨sound.1.next sound.2 allowed kept, Nat.le_trans sound.2 goes.frame.nextProc_le⟩
  obtain ⟨closed, -⟩ := rest.invariant preserved
    ⟨tidy.closed enabled returns orphanless, moved.frame.nextProc_le⟩
  refine ⟨closed.dead, ?_⟩
  intro i act spawns
  by_contra begun
  cases spawns with
  | @intro op name eager inside startable =>
    have quiet := closed.quiet i begun
    rw [inside] at quiet
    exact quiet.1 (canSpawn_of_spawn (closed.tidy.kept.spawns i op _ inside) startable)

def kokoroReady : List SupervisorAct :=
  [.ensureReady 1 (some "kokoro-onnx"), .proceed 1, .proceed 1, .created 1, .connected 1,
    .exchange 0 (.answer (.warmup 24000 [])), .readWarmup 1]

def queuedBehindShutdown : List (Nat × SupervisorAct) := untimed (kokoroReady ++
  [.shutdown 2, .ensureReady 3 (some "kokoro-onnx"), .proceed 2, .teardown 0 .write, .exits 0,
    .teardown 0 (.giveUp false), .teardown 0 .exited])

theorem queuedBehindShutdown_spawns :
    ¬∀ (c : Settings) (defaultProvider : String) (labels later : List (Nat × SupervisorAct))
      (before t : Supervisor) (now : Nat) (act : SupervisorAct),
      (system c).Run (fun _ _ => True) (start defaultProvider) labels before → before.Enabled act →
      before.ShutsDown act → (system c).Run (fun _ _ => True) (before.next c now act) later t →
      (∀ p, t.Live p → before.nextProc ≤ p) ∧ ∀ i act, Spawns c t i act → before.tasks i = .absent := by
  intro claimed
  have admitted : (system twoProviders).Admits (fun _ _ => True) (start "kokoro-onnx") queuedBehindShutdown :=
    ⟨⟨rfl, trivial⟩, ⟨⟨_, _, rfl, rfl⟩, trivial⟩, ⟨⟨_, _, rfl, rfl⟩, trivial⟩, ⟨⟨_, _, rfl⟩, trivial⟩,
      ⟨⟨_, _, rfl⟩, trivial⟩, ⟨⟨by decide, rfl, ⟨rfl, nofun⟩, trivial⟩, trivial⟩,
      ⟨⟨_, _, rfl, nofun⟩, trivial⟩, ⟨rfl, trivial⟩, ⟨rfl, trivial⟩, ⟨⟨_, _, rfl, rfl⟩, trivial⟩,
      ⟨rfl, trivial⟩, ⟨⟨by decide, rfl⟩, trivial⟩, ⟨⟨rfl, nofun⟩, trivial⟩, ⟨⟨.inl rfl, rfl⟩, trivial⟩, trivial⟩
  have resumed : (system twoProviders).Admits (fun _ _ => True)
      (((system twoProviders).after (start "kokoro-onnx") queuedBehindShutdown).next twoProviders 0 (.reaped 2))
      (untimed [.acquire 3, .proceed 3]) :=
    ⟨⟨⟨⟨_, rfl⟩, rfl, rfl⟩, trivial⟩, ⟨⟨_, _, rfl, rfl⟩, trivial⟩, trivial⟩
  obtain ⟨-, new⟩ := claimed twoProviders "kokoro-onnx" queuedBehindShutdown _ _ _ 0 (.reaped 2) admitted.run
    ⟨_, _, _, _, rfl, rfl⟩ (.reaped rfl rfl) resumed.run
  have waited := new 3 (.proceed 3) (.intro rfl ⟨by decide, rfl⟩)
  cases waited

def orderlyShutdown : List (Nat × SupervisorAct) := untimed (kokoroReady ++
  [.shutdown 2, .proceed 2, .teardown 0 .write, .exits 0, .teardown 0 (.giveUp false), .teardown 0 .exited])

theorem orderlyShutdown_final :
    (∀ p, ((system twoProviders).after
        (((system twoProviders).after (start "kokoro-onnx") orderlyShutdown).next twoProviders 0 (.reaped 2))
        (untimed [.ensureReady 3 none, .proceed 3])).Live p → 1 ≤ p) ∧
      ∀ i act, Spawns twoProviders ((system twoProviders).after
        (((system twoProviders).after (start "kokoro-onnx") orderlyShutdown).next twoProviders 0 (.reaped 2))
        (untimed [.ensureReady 3 none, .proceed 3])) i act →
        ((system twoProviders).after (start "kokoro-onnx") orderlyShutdown).tasks i = .absent := by
  have leaves : (system twoProviders).Admits (fun s label => s.LeavesNothing label.2) (start "kokoro-onnx")
      orderlyShutdown :=
    ⟨⟨rfl, trivial⟩, ⟨⟨_, _, rfl, rfl⟩, trivial⟩, ⟨⟨_, _, rfl, rfl⟩, trivial⟩, ⟨⟨_, _, rfl⟩, trivial⟩,
      ⟨⟨_, _, rfl⟩, trivial⟩, ⟨⟨by decide, rfl, ⟨rfl, nofun⟩, trivial⟩, trivial⟩,
      ⟨⟨_, _, rfl, nofun⟩, trivial⟩, ⟨rfl, trivial⟩, ⟨⟨_, _, rfl, rfl⟩, trivial⟩,
      ⟨rfl, nofun⟩, ⟨⟨by decide, rfl⟩, trivial⟩, ⟨⟨rfl, nofun⟩, nofun⟩, ⟨⟨.inl rfl, rfl⟩, nofun⟩, trivial⟩
  have later : (system twoProviders).Admits
      (fun s label => ¬LetsIn twoProviders ((system twoProviders).after (start "kokoro-onnx") orderlyShutdown) s label.2)
      (((system twoProviders).after (start "kokoro-onnx") orderlyShutdown).next twoProviders 0 (.reaped 2))
      (untimed [.ensureReady 3 none, .proceed 3]) :=
    ⟨⟨rfl, nofun⟩, ⟨⟨_, _, rfl, rfl⟩, nofun⟩, trivial⟩
  have returns : ((system twoProviders).after (start "kokoro-onnx") orderlyShutdown).ShutsDown (.reaped 2) :=
    .reaped rfl rfl
  have enabled : ((system twoProviders).after (start "kokoro-onnx") orderlyShutdown).Enabled (.reaped 2) :=
    ⟨_, _, _, _, rfl, rfl⟩
  exact shutdown_final (leaves.run.mono fun _ _ _ => trivial) enabled returns (orphanless_of_leavesNothing leaves.run returns) later.run

end Supervisor

end Daemon

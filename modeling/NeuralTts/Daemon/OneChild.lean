import NeuralTts.Daemon.Readiness

/-! How many provider processes are alive: `_active`, or what a task is spawning, accounts for
each of them as long as no teardown is left behind. -/

namespace Daemon

open Library

/-- How `_active` stands while a task is at this stage. -/
def Stage.Fits (active : Option ProcId) : Stage → Prop
  | .entered => True
  | .spawning _ _ | .creating _ | .abandoning _ | .connecting _ => active = none
  | .reaping p _ | .warming p | .killing p _ => active = some p

def Stage.carries : Stage → Option ProcId
  | .creating p | .abandoning p | .connecting p => some p
  | .entered | .reaping _ _ | .spawning _ _ | .warming _ | .killing _ _ => none

/-- A teardown or kill that is over has not left its process behind. -/
structure ProviderProcess.Settled (p : ProviderProcess) : Prop where
  teardown : ∀ raised, p.teardown = .finished raised → raised = false ∧ p.exited = true
  killer : p.killer = .finished → p.exited = true

namespace Supervisor

def Live (s : Supervisor) (p : ProcId) : Prop := p < s.nextProc ∧ (s.procs p).exited = false

def AtMostOneChild (s : Supervisor) : Prop := ∀ p q, s.Live p → s.Live q → p = q

/-- No step leaves a teardown or a spawn behind: no `RuntimeError` escapes `_do_shutdown`, and no
cancellation hits a task that awaits a teardown, a connection or the exit of a cancelled spawn. -/
def LeavesNothing (s : Supervisor) : SupervisorAct → Prop
  | .teardown _ act => act ≠ .collide
  | .cancel i => ∀ op stage, s.tasks i = .inside op stage →
    (∀ p sequel, stage ≠ .reaping p sequel) ∧ ∀ p, stage ≠ .connecting p ∧ stage ≠ .abandoning p
  | _ => True

structure Accounted (s : Supervisor) : Prop where
  fits : ∀ i op stage, s.tasks i = .inside op stage → stage.Fits s.active
  live : ∀ p, s.Live p → s.active = some p ∨
    ∃ i op stage, s.tasks i = .inside op stage ∧ stage.carries = some p
  settled : ∀ p, (s.procs p).Settled

theorem Stage.fits_of_carries {stage : Stage} {p : ProcId} {active : Option ProcId}
    (carries : stage.carries = some p) (fits : stage.Fits active) : active = none := by
  cases stage <;> first | exact fits | cases carries

theorem Accounted.atMostOne {s : Supervisor} (accounted : Accounted s) (exclusive : Exclusive s) :
    AtMostOneChild s := by
  intro p q aliveP aliveQ
  rcases accounted.live p aliveP with active | ⟨i, op, stage, inside, carries⟩
  · rcases accounted.live q aliveQ with also | ⟨j, other, elsewhere, within, carried⟩
    · exact Option.some.inj (active.symm.trans also)
    · have idle := Stage.fits_of_carries carried (accounted.fits j other elsewhere within)
      rw [active] at idle
      cases idle
  · rcases accounted.live q aliveQ with also | ⟨j, other, elsewhere, within, carried⟩
    · have idle := Stage.fits_of_carries carries (accounted.fits i op stage inside)
      rw [also] at idle
      cases idle
    · obtain rfl := exclusive.only inside within
      cases inside.symm.trans within
      exact Option.some.inj (carries.symm.trans carried)

variable {c : Settings} {s t : Supervisor} {now : Nat} {i j : TaskId} {op : Op} {stage : Stage}

theorem Settled.same {p q : ProviderProcess} (settled : p.Settled) (same : p.SameLife q) : q.Settled := by
  refine ⟨?_, ?_⟩
  · rw [same.teardown, same.exited]
    exact settled.teardown
  · rw [same.killer, same.exited]
    exact settled.killer

variable {act : SupervisorAct} {p : ProcId} {proc : ProviderProcess}

theorem Works.settled (works : s.Works now p act proc) (settled : (s.procs p).Settled)
    (kept : s.LeavesNothing act) : proc.Settled := by
  cases works with
  | exchange => exact Settled.same settled (ProviderProcess.sameLife_next ..)
  | @teardown step enabled =>
    cases step with
    | collide => exact absurd rfl kept
    | exited =>
      refine ⟨?_, settled.killer⟩
      intro raised finished
      cases finished
      exact ⟨rfl, enabled.2⟩
    | park => exact Settled.same settled ⟨rfl, rfl, rfl, rfl⟩
    | _ => exact ⟨nofun, settled.killer⟩
  | @killer step enabled =>
    cases step with
    | kill => exact ⟨settled.teardown, nofun⟩
    | exited => exact ⟨settled.teardown, fun _ => enabled.2⟩
  | exits => exact ⟨fun raised finished => ⟨(settled.teardown raised finished).1, rfl⟩, fun _ => rfl⟩
  | parks => exact Settled.same settled ⟨rfl, rfl, rfl, rfl⟩

theorem sameLife_warms {p warm : ProviderProcess} (read : p.Warms warm) : p.SameLife warm := by
  cases read with
  | ready answered => exact ⟨rfl, rfl, rfl, rfl⟩

theorem Accounted.settled_next (accounted : Accounted s) (moves : Moves c s now act t)
    (kept : s.LeavesNothing act) (p : ProcId) : (t.procs p).Settled := by
  have settled := accounted.settled p
  have handles := moves.handles p
  generalize t.procs p = proc at handles ⊢
  cases handles with
  | spared => exact settled
  | works step => exact step.settled settled kept
  | serves inside active provider ready arrival => exact Settled.same settled arrival.sameLife
  | reaps inside later => exact ⟨nofun, settled.killer⟩
  | spawns inside new => exact ⟨nofun, nofun⟩
  | connects inside later => exact Settled.same settled ⟨rfl, rfl, rfl, rfl⟩
  | @warms i op warm proc inside read goes =>
    have warmed : ((s.setProc p warm).procs p).Settled := by
      rw [procs_setProc]
      exact Settled.same settled (sameLife_warms read)
    generalize t.tasks i = task at goes
    cases goes with
    | returns arrival => exact Settled.same warmed arrival.sameLife
    | lists name todo out asked => exact ⟨nofun, warmed.killer⟩
    | switched newName => exact warmed
    | unasked unwanted => exact warmed
  | warmupFails inside read later => rcases read with rfl | rfl <;> exact ⟨settled.teardown, nofun⟩

theorem Moves.breathes (moves : Moves c s now act t) (older : p < s.nextProc)
    (alive : (t.procs p).exited = false) : (s.procs p).exited = false := by
  have handles := moves.handles p
  generalize t.procs p = proc at handles alive
  cases handles with
  | spared => exact alive
  | works step =>
    cases step with
    | exchange =>
      rw [(ProviderProcess.sameLife_next ..).exited] at alive
      exact alive
    | @teardown step enabled => cases step <;> exact alive
    | @killer step enabled => cases step <;> exact alive
    | exits => cases alive
    | parks => exact alive
  | serves inside active provider ready arrival => exact arrival.sameLife.exited.symm.trans alive
  | reaps inside later => exact alive
  | spawns inside new => exact absurd (new ▸ older) (Nat.lt_irrefl _)
  | connects inside later => exact alive
  | @warms i op warm proc inside read goes =>
    have warmed : ((s.setProc p warm).procs p).exited = (s.procs p).exited := by
      rw [procs_setProc]
      exact (sameLife_warms read).exited
    generalize t.tasks i = task at goes
    rw [← warmed]
    cases goes with
    | returns arrival => exact arrival.sameLife.exited.symm.trans alive
    | lists name todo out asked => exact alive
    | switched newName => exact alive
    | unasked unwanted => exact alive
  | warmupFails inside read later => rcases read with rfl | rfl <;> exact alive

theorem Moves.live (moves : Moves c s now act t) (alive : t.Live p) :
    s.Live p ∨ ∃ i op, t.tasks i = .inside op (.creating p) := by
  by_cases older : p < s.nextProc
  · exact .inl ⟨older, moves.breathes older alive.2⟩
  · have born := alive.1
    rcases moves.frame.nextProc with same | ⟨next, i, op, creating⟩
    · rw [same] at born
      exact absurd born older
    · rw [next] at born
      have new : p = s.nextProc := Nat.le_antisymm (Nat.lt_succ_iff.mp born) (Nat.not_lt.mp older)
      exact .inr ⟨i, op, new ▸ creating⟩

theorem Moves.carried (moves : Moves c s now act t) (inside : s.tasks i = .inside op stage)
    (carries : stage.carries = some p) :
    (t.active = some p ∨ ∃ later, t.tasks i = .inside op later ∧ later.carries = some p) ∨
      s.Leaves i act stage := by
  cases moves.goes inside with
  | stays still => exact .inl (.inr ⟨stage, still, carries⟩)
  | created later =>
    rcases later with connecting | abandoning
    · exact .inl (.inr ⟨_, connecting, carries⟩)
    · exact .inl (.inr ⟨_, abandoning, carries⟩)
  | connects active =>
    cases carries
    exact .inl (.inl active)
  | clears clears gone => cases clears <;> cases carries
  | leaves leaves => exact .inr leaves
  | _ => cases carries

theorem Accounted.exited_of_clears (accounted : Accounted s) (kept : s.LeavesNothing act)
    (inside : s.tasks i = .inside op stage) (clears : s.Clears i act stage) (active : s.active = some p) :
    (s.procs p).exited = true := by
  have fits := accounted.fits i op stage inside
  cases clears with
  | reaped finished =>
    cases active.symm.trans fits
    exact ((accounted.settled p).teardown _ finished).2
  | killed finished =>
    cases active.symm.trans fits
    exact (accounted.settled p).killer finished
  | cancelled q sequel => exact absurd rfl ((kept op _ inside).1 q sequel)

theorem Accounted.exited_of_leaves (kept : s.LeavesNothing act) (inside : s.tasks i = .inside op stage)
    (leaves : s.Leaves i act stage) (carries : stage.carries = some p) : (s.procs p).exited = true := by
  cases leaves with
  | abandoned exited =>
    cases carries
    exact exited
  | abandons q => exact absurd rfl ((kept op _ inside).2 q).2
  | disconnects q => exact absurd rfl ((kept op _ inside).2 q).1
  | _ => cases carries

theorem Accounted.live_next (accounted : Accounted s) (moves : Moves c s now act t)
    (kept : s.LeavesNothing act) (alive : t.Live p) : t.active = some p ∨
      ∃ i op stage, t.tasks i = .inside op stage ∧ stage.carries = some p := by
  rcases moves.live alive with ⟨older, breathing⟩ | ⟨i, op, creating⟩
  · rcases accounted.live p ⟨older, breathing⟩ with active | ⟨i, op, stage, inside, carries⟩
    · rcases moves.frame.active with same | ⟨i, op, q, connecting, -⟩ | ⟨-, i, op, stage, inside, clears⟩
      · exact .inl (same.trans active)
      · have vacant : s.active = none := accounted.fits i op _ connecting
        cases vacant.symm.trans active
      · rw [accounted.exited_of_clears kept inside clears active] at breathing
        cases breathing
    · rcases moves.carried inside carries with (active | ⟨later, within, carried⟩) | leaves
      · exact .inl active
      · exact .inr ⟨i, op, later, within, carried⟩
      · rw [exited_of_leaves kept inside leaves carries] at breathing
        cases breathing
  · exact .inr ⟨i, op, _, creating, rfl⟩

theorem Moves.fits (moves : Moves c s now act t) (exclusive : Exclusive s)
    (fits : ∀ i op stage, s.tasks i = .inside op stage → stage.Fits s.active)
    (inside : t.tasks i = .inside op stage) : stage.Fits t.active := by
  have beside : ∀ {j : TaskId} {task : Task}, s.Becomes t j task s.active →
      (task = .inside op stage → stage = .entered) → stage.Fits t.active := by
    intro j task becomes entered
    rcases becomes.tasks_cases i with same | ⟨-, mine⟩
    · rw [becomes.active]
      exact fits i op stage (same.symm.trans inside)
    · rw [entered (mine.symm.trans inside)]
      trivial
  -- When the task under the lock moves, nobody else is to be looked at.
  have moved : ∀ (u : Supervisor) {j : TaskId} {other : Op} {earlier : Stage} {task : Task}
      {active : Option ProcId}, s.tasks j = .inside other earlier → u.tasks = s.tasks →
      u.Becomes t j task active → (task = .inside op stage → stage.Fits active) → stage.Fits t.active := by
    intro u j other earlier task active within tasks becomes here
    rw [becomes.active]
    rcases becomes.tasks_cases i with same | ⟨-, mine⟩
    · have before : s.tasks i = .inside op stage := by rw [← tasks, ← same, inside]
      obtain rfl := exclusive.only within before
      exact here (becomes.here.symm.trans inside)
    · exact here (mine.symm.trans inside)
  have entered : ∀ {active : Option ProcId}, stage = .entered → stage.Fits active := by
    rintro active rfl
    trivial
  cases moves with
  | works step => exact fits i op stage inside
  | rests aside resting becomes => exact beside becomes fun at_ => absurd at_ (ne_inside_of_resting resting)
  | asks aside asked begun becomes => exact beside becomes begun.at_entered
  | admitted waiting becomes => exact beside becomes Begun.entered.at_entered
  | serves within active provider ready arrival becomes =>
    exact moved (s.setProc _ _) within rfl becomes fun at_ => entered (arrival.at_entered at_)
  | advances within advance becomes =>
    refine moved s within rfl becomes ?_
    rintro ⟨⟩
    have before := fits _ _ _ within
    cases advance with
    | wants wanted vacant => exact vacant
    | created => exact before
    | abandons => exact before
    | _ => trivial
  | reaps within active displaces becomes =>
    refine moved (s.setProc _ _) within rfl becomes ?_
    rintro ⟨⟩
    exact active
  | rebuilds within index goes becomes =>
    refine moved _ within (by rw [index]) becomes ?_
    rcases goes with rfl | ⟨other, asked, begun⟩
    · rintro ⟨⟩
    · exact fun at_ => entered (begun.at_entered at_)
  | leaves within leaves resting becomes =>
    exact moved s within rfl becomes fun at_ => absurd at_ (ne_inside_of_resting resting)
  | spawns within known installed becomes =>
    refine moved { s.setProc _ _ with nextProc := _ } within rfl becomes ?_
    rintro ⟨⟩
    have before := fits _ _ _ within
    exact before
  | connects within becomes =>
    refine moved (s.setProc _ _) within rfl becomes ?_
    rintro ⟨⟩
    rfl
  | warms within read goes becomes =>
    refine moved (s.setProc _ _) within rfl becomes ?_
    cases goes with
    | returns arrival => exact fun at_ => entered (arrival.at_entered at_)
    | lists name todo out asked =>
      rintro ⟨⟩
      have before := fits _ _ _ within
      exact before
    | switched newName => rintro ⟨⟩
    | unasked unwanted => rintro ⟨⟩
  | warmupFails within read becomes =>
    refine moved (s.setProc _ _) within rfl becomes ?_
    rintro ⟨⟩
    have before := fits _ _ _ within
    exact before
  | removes within clears removed becomes =>
    refine moved s within rfl becomes ?_
    cases removed with
    | spawns => rintro ⟨⟩; rfl
    | continues => rintro ⟨⟩; trivial
    | throws q name eager thrown => exact fun at_ => entered (thrown.at_entered at_)
    | killed q cancelled thrown => exact fun at_ => entered (thrown.at_entered at_)
    | ends q sequel resting => exact fun at_ => absurd at_ (ne_inside_of_resting resting)

theorem Accounted.next (accounted : Accounted s) (exclusive : Exclusive s) {act : SupervisorAct}
    (enabled : s.Enabled act) (kept : s.LeavesNothing act) : Accounted (s.next c now act) :=
  have moves := moves enabled
  ⟨fun _ _ _ inside => moves.fits exclusive accounted.fits inside,
    fun _ alive => accounted.live_next moves kept alive, accounted.settled_next moves kept⟩

theorem start_accounted (defaultProvider : String) : Accounted (start defaultProvider) :=
  ⟨nofun, nofun, fun _ => ⟨nofun, nofun⟩⟩

theorem accounted_of_leavesNothing {defaultProvider : String} {labels : List (Nat × SupervisorAct)}
    (run : (system c).Run (fun s label => s.LeavesNothing label.2) (start defaultProvider) labels t) :
    Exclusive t ∧ Accounted t := by
  have preserved : ∀ s label, (Exclusive s ∧ Accounted s) → (system c).enabled s label →
      s.LeavesNothing label.2 →
      Exclusive ((system c).next s label) ∧ Accounted ((system c).next s label) :=
    fun _ _ sound enabled kept => ⟨sound.1.next enabled, sound.2.next sound.1 enabled kept⟩
  have sound := run.invariant preserved ⟨start_exclusive defaultProvider, start_accounted defaultProvider⟩
  exact sound

/-- In a run whose steps leave no process behind, at most one spawned process has not exited. -/
theorem atMostOneChild_of_leavesNothing {defaultProvider : String} {labels : List (Nat × SupervisorAct)}
    (run : (system c).Run (fun s label => s.LeavesNothing label.2) (start defaultProvider) labels t) :
    AtMostOneChild t := by
  obtain ⟨exclusive, accounted⟩ := accounted_of_leavesNothing run
  exact accounted.atMostOne exclusive

def twoProviders : Settings where
  voiceAllowlists := ∅
  voiceLocaleOverrides := ∅
  registry := ["kokoro-onnx", "omnivoice"]
  distinct := by decide
  named := by decide
  installed _ := true
  idleTimeoutSeconds := 300
  eagerStartup := true

/-- Task 1 makes kokoro-onnx READY. While task 2 awaits its list, task 3 asks for omnivoice: the
teardown raises at the reader, and task 4 spawns beside the child that is left behind. -/
def collidingReaders : List (Nat × SupervisorAct) := untimed
  [.ensureReady 1 (some "kokoro-onnx"), .proceed 1, .proceed 1, .created 1, .connected 1,
    .exchange 0 (.answer (.warmup 24000 [])), .readWarmup 1, .reloadVoices 2, .proceed 2,
    .exchange 0 (.begin 2), .exchange 0 (.flushed 2), .exchange 0 (.park 2),
    .ensureReady 3 (some "omnivoice"), .proceed 3, .teardown 0 .write, .teardown 0 .collide,
    .reaped 3, .ensureReady 4 (some "omnivoice"), .proceed 4, .proceed 4]

theorem collidingReaders_two_children :
    ¬∀ (c : Settings) (defaultProvider : String) (labels : List (Nat × SupervisorAct)) (t : Supervisor),
      (system c).Run (fun _ _ => True) (start defaultProvider) labels t → AtMostOneChild t := by
  intro claimed
  have admitted : (system twoProviders).Admits (fun _ _ => True) (start "kokoro-onnx") collidingReaders :=
    ⟨⟨rfl, trivial⟩, ⟨⟨_, _, rfl, rfl⟩, trivial⟩, ⟨⟨_, _, rfl, rfl⟩, trivial⟩, ⟨⟨_, _, rfl⟩, trivial⟩,
      ⟨⟨_, _, rfl⟩, trivial⟩, ⟨⟨by decide, rfl, ⟨rfl, nofun⟩, trivial⟩, trivial⟩,
      ⟨⟨_, _, rfl, nofun⟩, trivial⟩, ⟨rfl, trivial⟩, ⟨⟨_, _, rfl, rfl⟩, trivial⟩,
      ⟨⟨by decide, rfl, ⟨_, rfl⟩, ⟨_, rfl⟩⟩, trivial⟩,
      ⟨⟨by decide, rfl, ⟨_, rfl⟩, ⟨_, rfl⟩⟩, trivial⟩,
      ⟨⟨by decide, rfl, ⟨rfl, rfl⟩, ⟨_, rfl⟩⟩, trivial⟩,
      ⟨rfl, trivial⟩, ⟨⟨_, _, rfl, rfl⟩, trivial⟩, ⟨rfl, trivial⟩, ⟨⟨rfl, nofun, nofun⟩, trivial⟩,
      ⟨⟨_, _, _, _, rfl, rfl⟩, trivial⟩, ⟨rfl, trivial⟩, ⟨⟨_, _, rfl, rfl⟩, trivial⟩,
      ⟨⟨_, _, rfl, rfl⟩, trivial⟩, trivial⟩
  have one := claimed twoProviders "kokoro-onnx" collidingReaders _ admitted.run
  have same := one 0 1 ⟨Nat.lt_of_sub_ne_zero nofun, rfl⟩ ⟨Nat.lt_of_sub_ne_zero nofun, rfl⟩
  cases same

def orderlySwitch : List (Nat × SupervisorAct) := untimed
  [.ensureReady 1 (some "kokoro-onnx"), .proceed 1, .proceed 1, .created 1, .connected 1,
    .exchange 0 (.answer (.warmup 24000 [])), .readWarmup 1, .switch 2 "omnivoice", .proceed 2,
    .teardown 0 .write, .exits 0, .teardown 0 (.giveUp false), .teardown 0 .exited, .reaped 2,
    .proceed 2]

theorem orderlySwitch_atMostOneChild :
    AtMostOneChild ((system twoProviders).after (start "kokoro-onnx") orderlySwitch) := by
  have admitted : (system twoProviders).Admits (fun s label => s.LeavesNothing label.2)
      (start "kokoro-onnx") orderlySwitch :=
    ⟨⟨rfl, trivial⟩, ⟨⟨_, _, rfl, rfl⟩, trivial⟩, ⟨⟨_, _, rfl, rfl⟩, trivial⟩, ⟨⟨_, _, rfl⟩, trivial⟩,
      ⟨⟨_, _, rfl⟩, trivial⟩, ⟨⟨by decide, rfl, ⟨rfl, nofun⟩, trivial⟩, trivial⟩,
      ⟨⟨_, _, rfl, nofun⟩, trivial⟩, ⟨rfl, trivial⟩, ⟨⟨_, _, rfl, rfl⟩, trivial⟩, ⟨rfl, nofun⟩,
      ⟨⟨by decide, rfl⟩, trivial⟩, ⟨⟨rfl, nofun⟩, nofun⟩, ⟨⟨.inl rfl, rfl⟩, nofun⟩,
      ⟨⟨_, _, _, _, rfl, rfl⟩, trivial⟩, ⟨⟨_, _, rfl, rfl⟩, trivial⟩, trivial⟩
  exact atMostOneChild_of_leavesNothing admitted.run

end Supervisor

end Daemon

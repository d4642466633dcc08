import NeuralTts.Daemon.Moves

/-! When a process is READY, and what `_active` is while nobody has the lifecycle lock. -/

namespace Daemon

open Library

namespace ProviderProcess

/-- What was fixed when the process was spawned and warmed up; its state may become FAILED. -/
structure SameMake (p q : ProviderProcess) : Prop where
  provider : q.provider = p.provider
  eager : q.eager = p.eager
  sampleRate : q.sampleRate = p.sampleRate
  state : q.state = p.state ∨ q.state = .failed

variable {p q : ProviderProcess} {i : TaskId} {now : Nat}

theorem SameMake.refl (p : ProviderProcess) : SameMake p p := ⟨rfl, rfl, rfl, .inl rfl⟩

theorem SameMake.write (same : SameMake p q) (ex : Exchange) : SameMake p (q.write i ex) := by
  obtain ⟨provider, eager, sampleRate, state⟩ := same
  cases ex with
  | listVoices => exact ⟨provider, eager, sampleRate, state⟩
  | synthesize synth =>
    simp only [ProviderProcess.write]
    split <;> exact ⟨provider, eager, sampleRate, state⟩

theorem SameMake.react (same : SameMake p q) (frame : Option TaskId × Response) :
    SameMake p (q.react i now frame) := by
  obtain ⟨provider, eager, sampleRate, state⟩ := same
  unfold ProviderProcess.react
  split
  · split
    · refine SameMake.write ?_ _
      exact ⟨provider, eager, sampleRate, state⟩
    · exact ⟨provider, eager, sampleRate, state⟩
  · split <;> exact ⟨provider, eager, sampleRate, state⟩
  · dsimp only
    split <;> exact ⟨provider, eager, sampleRate, state⟩
  · split <;> exact ⟨provider, eager, sampleRate, state⟩
  · exact ⟨provider, eager, sampleRate, state⟩

theorem SameMake.abandonDrain (same : SameMake p q) (ex : Exchange) :
    SameMake p (q.abandonDrain i ex) := by
  refine SameMake.write ?_ ex
  exact ⟨same.provider, same.eager, same.sampleRate, .inr rfl⟩

theorem SameMake.raiseRead (same : SameMake p q) (error : ReadError) :
    SameMake p (q.raiseRead i error) := by
  unfold ProviderProcess.raiseRead
  split
  · exact same.abandonDrain _
  · exact ⟨same.provider, same.eager, same.sampleRate, same.state⟩
  · exact ⟨same.provider, same.eager, same.sampleRate, same.state⟩

theorem sameMake_next (p : ProviderProcess) (now : Nat) (act : ExchangeAct) :
    SameMake p (p.next now act) := by
  have unparked : ∀ i, SameMake p (p.unpark i) := fun _ => ⟨rfl, rfl, rfl, .inl rfl⟩
  cases act with
  | begin i =>
    simp only [next]
    split
    · unfold beginExchange
      split
      · exact ⟨rfl, rfl, rfl, .inl rfl⟩
      · exact (SameMake.refl p).write _
    · exact .refl p
  | read i =>
    simp only [next]
    split
    · refine SameMake.react ?_ _
      exact ⟨rfl, rfl, rfl, .inl rfl⟩
    · exact .refl p
  | garble i b => exact (unparked i).react _
  | collide i => exact (SameMake.refl p).raiseRead _
  | lost i error => exact (unparked i).raiseRead _
  | timeout i tear =>
    simp only [next]
    split
    · refine SameMake.abandonDrain ?_ _
      exact ⟨rfl, rfl, rfl, .inl rfl⟩
    · exact .refl p
  | cancel i tear => simp only [next, interrupt]; split <;> exact ⟨rfl, rfl, rfl, .inl rfl⟩
  | enter i ex => simp only [next]; split <;> exact ⟨rfl, rfl, rfl, .inl rfl⟩
  | acquire i => simp only [next]; split <;> exact ⟨rfl, rfl, rfl, .inl rfl⟩
  | flushed i => simp only [next]; split <;> exact ⟨rfl, rfl, rfl, .inl rfl⟩
  | serveHeader rate => simp only [next]; split <;> exact ⟨rfl, rfl, rfl, .inl rfl⟩
  | answer b => simp only [next]; split <;> exact ⟨rfl, rfl, rfl, .inl rfl⟩
  | _ => exact ⟨rfl, rfl, rfl, .inl rfl⟩

/-- The same child, and READY only if it was READY before. -/
structure Outlives (p q : ProviderProcess) : Prop where
  provider : q.provider = p.provider
  eager : q.eager = p.eager
  sampleRate : q.sampleRate = p.sampleRate
  ready : q.state = .ready → p.state = .ready

def Sound (p : ProviderProcess) : Prop := p.teardown = .idle ∧ (p.state = .ready ∨ p.state = .failed)

theorem Sound.same (sound : p.Sound) (teardown : q.teardown = p.teardown)
    (state : q.state = p.state ∨ q.state = .failed) : q.Sound := by
  refine ⟨teardown.trans sound.1, ?_⟩
  rcases state with kept | failed
  · rw [kept]
    exact sound.2
  · exact .inr failed

theorem Outlives.refl (p : ProviderProcess) : Outlives p p := ⟨rfl, rfl, rfl, id⟩

theorem SameMake.outlives (same : SameMake p q) : Outlives p q := by
  refine ⟨same.provider, same.eager, same.sampleRate, fun ready => ?_⟩
  rcases same.state with kept | failed
  · rw [← kept, ready]
  · rw [failed] at ready
    cases ready

theorem outlives_beginTeardown (p : ProviderProcess) : Outlives p p.beginTeardown :=
  ⟨rfl, rfl, rfl, nofun⟩

theorem outlives_failWarmup (p : ProviderProcess) : Outlives p p.failWarmup := ⟨rfl, rfl, rfl, nofun⟩

theorem outlives_teardownStep (p : ProviderProcess) (act : TeardownAct) :
    Outlives p (p.teardownStep act) := by
  cases act with
  | exited => exact ⟨rfl, rfl, rfl, nofun⟩
  | _ => exact ⟨rfl, rfl, rfl, id⟩

end ProviderProcess

/-- Who awaits `ensure_ready` in order to enter an exchange, and the route it has. -/
inductive Awaiter.Joins : Awaiter → Option Route → Prop
  | lists : Joins .reloadVoices none
  | synthesizes (synth : SynthesizeRequest) (route : Route) : Joins (.generator synth route) (some route)

def Stage.attends : Stage → Option ProcId
  | .warming p | .reaping p _ => some p
  | .entered | .spawning _ _ | .creating _ | .abandoning _ | .connecting _ | .killing _ _ => none

theorem ProviderProcess.outlives_warms {p warm : ProviderProcess} (read : p.Warms warm) :
    warm.provider = p.provider ∧ warm.eager = p.eager ∧ warm.teardown = p.teardown ∧ warm.state = .ready := by
  cases read with
  | ready answered => exact ⟨rfl, rfl, rfl, rfl⟩

namespace Supervisor

inductive Fate (s : Supervisor) (now : Nat) (p : ProcId) : SupervisorAct → ProviderProcess → Prop
  | kept {act : SupervisorAct} {proc : ProviderProcess} (outlives : (s.procs p).Outlives proc) :
      Fate s now p act proc
  | born {i : TaskId} {op : Op} {name : String} {eager : Bool} (new : p = s.nextProc)
      (inside : s.tasks i = .inside op (.spawning name eager)) :
      Fate s now p (.proceed i) (.spawned name eager now)
  | warmed {i : TaskId} {op : Op} {warm proc : ProviderProcess} {task : Task}
      (inside : s.tasks i = .inside op (.warming p)) (read : (s.procs p).Warms warm)
      (goes : Warmed (s.setProc p warm) now i p op proc task) : Fate s now p (.readWarmup i) proc

variable {c : Settings} {s t : Supervisor} {now : Nat} {i : TaskId} {p : ProcId} {op : Op} {stage : Stage}
  {act : SupervisorAct} {proc : ProviderProcess} {task : Task}

theorem Works.outlives (works : s.Works now p act proc) : (s.procs p).Outlives proc := by
  cases works with
  | exchange => exact (ProviderProcess.sameMake_next ..).outlives
  | teardown => exact ProviderProcess.outlives_teardownStep ..
  | @killer act enabled => cases act <;> exact ⟨rfl, rfl, rfl, id⟩
  | exits => exact ⟨rfl, rfl, rfl, id⟩
  | parks => exact ⟨rfl, rfl, rfl, id⟩

theorem Arrival.sameMake {awaiter : Awaiter} (arrival : s.Arrival now i p awaiter proc task) :
    (s.procs p).SameMake proc := by
  cases arrival with
  | ends => exact .refl _
  | lists => exact ProviderProcess.sameMake_next ..
  | streams => exact .refl _
  | synthesizes synth route =>
    obtain ⟨provider, eager, sampleRate, state⟩ := ProviderProcess.sameMake_next
      ({ s.procs p with lastActivity := now } : ProviderProcess) now
      (.enter i (.synthesize { synth with voice := s.voiceIndex.localIdFor synth.voice }))
    exact ⟨provider, eager, sampleRate, state⟩

theorem Moves.fate (moves : Moves c s now act t) (q : ProcId) : Fate s now q act (t.procs q) := by
  have handles := moves.handles q
  generalize t.procs q = proc at handles ⊢
  cases handles with
  | spared => exact .kept (.refl _)
  | works step => exact .kept step.outlives
  | serves inside active provider ready arrival => exact .kept arrival.sameMake.outlives
  | reaps inside later => exact .kept (ProviderProcess.outlives_beginTeardown _)
  | spawns inside new => exact .born new inside
  | connects inside later => exact .kept ⟨rfl, rfl, rfl, id⟩
  | warms inside read goes => exact .warmed inside read goes
  | warmupFails inside read later =>
    refine .kept ?_
    rcases read with rfl | rfl
    · exact ProviderProcess.outlives_failWarmup _
    · exact ⟨rfl, rfl, rfl, nofun⟩

theorem Warmed.outlives {warm : ProviderProcess} (goes : Warmed (s.setProc p warm) now i p op proc task) :
    warm.Outlives proc := by
  have same : (s.setProc p warm).procs p = warm := procs_setProc s p warm
  cases goes with
  | returns arrival =>
    rw [← same]
    exact arrival.sameMake.outlives
  | lists name todo out asked =>
    rw [same]
    exact ProviderProcess.outlives_beginTeardown warm
  | switched newName =>
    rw [same]
    exact .refl warm
  | unasked unwanted =>
    rw [same]
    exact .refl warm

/-- The spawn in hand is of the provider, and of the kind, that the operation asks for. -/
def Spawning (c : Settings) (s : Supervisor) (op : Op) : Stage → Prop
  | .reaping _ (.spawn name eager) | .spawning name eager => op.spawn c = some (name, eager)
  | .creating p | .abandoning p | .connecting p | .warming p =>
    p < s.nextProc ∧ op.spawn c = some ((s.procs p).provider, (s.procs p).eager)
  | .entered | .reaping _ _ | .killing _ _ => True

def SpawnsAsAsked (c : Settings) (s : Supervisor) : Prop :=
  ∀ i op stage, s.tasks i = .inside op stage → s.Spawning c op stage

theorem Moves.make (moves : Moves c s now act t) (older : p < s.nextProc) :
    (t.procs p).provider = (s.procs p).provider ∧ (t.procs p).eager = (s.procs p).eager := by
  have fate := moves.fate p
  generalize t.procs p = proc at fate ⊢
  cases fate with
  | kept outlives => exact ⟨outlives.provider, outlives.eager⟩
  | born new inside => exact absurd (new ▸ older) (Nat.lt_irrefl _)
  | warmed inside read goes =>
    have outlives := goes.outlives
    cases read with
    | ready answered => exact ⟨outlives.provider, outlives.eager⟩

theorem Spawning.moved (spawning : s.Spawning c op stage) (moves : Moves c s now act t) :
    t.Spawning c op stage := by
  have aged : ∀ p, p < s.nextProc ∧ op.spawn c = some ((s.procs p).provider, (s.procs p).eager) →
      p < t.nextProc ∧ op.spawn c = some ((t.procs p).provider, (t.procs p).eager) := by
    rintro p ⟨older, asked⟩
    obtain ⟨provider, eager⟩ := moves.make older
    exact ⟨Nat.lt_of_lt_of_le older moves.frame.nextProc_le, by rw [provider, eager]; exact asked⟩
  cases stage with
  | reaping p sequel => cases sequel <;> exact spawning
  | creating p => exact aged p spawning
  | abandoning p => exact aged p spawning
  | connecting p => exact aged p spawning
  | warming p => exact aged p spawning
  | _ => exact spawning

theorem SpawnsAsAsked.next (spawns : SpawnsAsAsked c s) (moves : Moves c s now act t) :
    SpawnsAsAsked c t := by
  intro i op stage inside
  rcases moves.turn inside with same | turn
  · exact (spawns i op stage same).moved moves
  · cases turn with
    | entered => trivial
    | wants wanted => exact wanted
    | resumes within => exact spawns i op _ within
    | reaps active displaces =>
      cases displaces with
      | spawn wanted => exact wanted
      | leave => trivial
    | lists within => trivial
    | creates within new later =>
      refine ⟨by rw [later]; exact Nat.lt_succ_self _, ?_⟩
      rw [new]
      exact spawns i op _ within
    | @raises _ before _ p within goes raised =>
      have spawning := (spawns i op before within).moved moves
      have here : ∀ {stage : Stage}, stage.raises = some p → (Spawning c t op stage ↔ p < t.nextProc ∧
          op.spawn c = some ((t.procs p).provider, (t.procs p).eager)) := by
        intro stage raised
        cases stage <;> cases raised <;> exact Iff.rfl
      rw [here (goes.symm.trans raised)] at spawning
      rwa [here raised]
    | kills within => trivial

theorem Arrival.sameLife {awaiter : Awaiter} (arrival : s.Arrival now i p awaiter proc task) :
    (s.procs p).SameLife proc := by
  cases arrival with
  | ends => exact ⟨rfl, rfl, rfl, rfl⟩
  | lists => exact ProviderProcess.sameLife_next ..
  | streams => exact ⟨rfl, rfl, rfl, rfl⟩
  | synthesizes synth route =>
    obtain ⟨exited, teardown, killer, provider⟩ := ProviderProcess.sameLife_next
      ({ s.procs p with lastActivity := now } : ProviderProcess) now
      (.enter i (.synthesize { synth with voice := s.voiceIndex.localIdFor synth.voice }))
    exact ⟨exited, teardown, killer, provider⟩

theorem Works.calm (works : s.Works now p act proc) (idle : (s.procs p).teardown = .idle) :
    proc.teardown = (s.procs p).teardown ∧
      (proc.state = (s.procs p).state ∨ proc.state = .failed) := by
  cases works with
  | exchange =>
    exact ⟨(ProviderProcess.sameLife_next ..).teardown, (ProviderProcess.sameMake_next ..).state⟩
  | @teardown act enabled => cases act <;> simp [ProviderProcess.TeardownEnabled, idle] at enabled
  | @killer act enabled => cases act <;> exact ⟨rfl, .inl rfl⟩
  | exits => exact ⟨rfl, .inl rfl⟩
  | parks => exact ⟨rfl, .inl rfl⟩

theorem Moves.idle (moves : Moves c s now act t) (idle : (s.procs p).teardown = .idle) :
    (t.procs p).teardown = .idle ∨ ∃ i op sequel, t.tasks i = .inside op (.reaping p sequel) := by
  have handles := moves.handles p
  generalize t.procs p = proc at handles ⊢
  cases handles with
  | spared => exact .inl idle
  | works step => exact .inl ((step.calm idle).1.trans idle)
  | serves inside active provider ready arrival => exact .inl (arrival.sameLife.teardown.trans idle)
  | reaps inside later => exact .inr ⟨_, _, _, later⟩
  | spawns inside new => exact .inl rfl
  | connects inside later => exact .inl idle
  | @warms i op warm proc inside read goes =>
    have calm : ((s.setProc p warm).procs p).teardown = .idle := by
      rw [procs_setProc]
      cases read with
      | ready answered => exact idle
    generalize at_ : t.tasks i = task at goes
    cases goes with
    | returns arrival => exact .inl (arrival.sameLife.teardown.trans calm)
    | lists name todo out asked => exact .inr ⟨i, _, _, at_⟩
    | switched newName => exact .inl calm
    | unasked unwanted => exact .inl calm
  | warmupFails inside read later => rcases read with rfl | rfl <;> exact .inl idle

theorem Moves.raises (moves : Moves c s now act t) (inside : t.tasks i = .inside op stage)
    (raises : stage.raises = some p) :
    (∃ op stage, s.tasks i = .inside op stage ∧ stage.raises = some p) ∨
      p = s.nextProc ∧ ∃ name eager, t.procs p = .spawned name eager now := by
  rcases moves.turn inside with same | turn
  · exact .inl ⟨op, stage, same, raises⟩
  · cases turn with
    | raises within goes => exact .inl ⟨_, _, within, goes.symm.trans raises⟩
    | creates within new =>
      cases raises
      exact .inr ⟨rfl, _, _, new⟩
    | _ => cases raises

/-- A process is READY or FAILED, unless a task warms it up or reaps it. -/
def Attended (s : Supervisor) (p : ProcId) : Prop :=
  (s.procs p).Sound ∨ ∃ i op stage, s.tasks i = .inside op stage ∧ stage.attends = some p

structure Tended (s : Supervisor) : Prop where
  born : ∀ p, s.active = some p → p < s.nextProc
  raised : ∀ i op stage p, s.tasks i = .inside op stage → stage.raises = some p →
    (s.procs p).teardown = .idle
  attended : ∀ p, s.active = some p → s.Attended p
  current : ∀ i op p, s.tasks i = .inside op (.warming p) → s.active = some p

theorem Warmed.sound {warm : ProviderProcess} (goes : Warmed (s.setProc p warm) now i p op proc task)
    (idle : (s.procs p).teardown = .idle) (read : (s.procs p).Warms warm) :
    proc.Sound ∨ ∃ later, task = .inside later (.reaping p .next) := by
  obtain ⟨-, -, teardown, ready⟩ := ProviderProcess.outlives_warms read
  have sound : ((s.setProc p warm).procs p).Sound := by
    rw [procs_setProc]
    exact ⟨teardown.trans idle, .inl ready⟩
  cases goes with
  | returns arrival => exact .inl (sound.same arrival.sameLife.teardown arrival.sameMake.state)
  | lists name todo out asked => exact .inr ⟨_, rfl⟩
  | switched newName => exact .inl sound
  | unasked unwanted => exact .inl sound

theorem ProviderProcess.sound_failWarmup {p proc : ProviderProcess} (idle : p.teardown = .idle)
    (read : proc = p ∨ proc = (p.leaveReader .warmup).pop) : proc.failWarmup.Sound := by
  rcases read with rfl | rfl <;> exact ⟨idle, .inr rfl⟩

theorem Moves.sound (moves : Moves c s now act t) (sound : (s.procs p).Sound) (older : p < s.nextProc) :
    t.Attended p := by
  unfold Attended
  have handles := moves.handles p
  generalize t.procs p = proc at handles ⊢
  cases handles with
  | spared => exact .inl sound
  | works step => exact .inl (sound.same (step.calm sound.1).1 (step.calm sound.1).2)
  | serves inside active provider ready arrival =>
    exact .inl (sound.same arrival.sameLife.teardown arrival.sameMake.state)
  | reaps inside later => exact .inr ⟨_, _, _, later, rfl⟩
  | spawns inside new => exact absurd (new ▸ older) (Nat.lt_irrefl _)
  | connects inside later => exact .inr ⟨_, _, _, later, rfl⟩
  | warms inside read goes =>
    rcases goes.sound sound.1 read with still | ⟨later, at_⟩
    · exact .inl still
    · exact .inr ⟨_, _, _, at_, rfl⟩
  | warmupFails inside read later => exact .inl (ProviderProcess.sound_failWarmup sound.1 read)

theorem Moves.attends (moves : Moves c s now act t) (inside : s.tasks i = .inside op stage)
    (attends : stage.attends = some p) (idle : stage.raises = some p → (s.procs p).teardown = .idle)
    (active : t.active = some p) : t.Attended p := by
  cases moves.goes inside with
  | stays still => exact .inr ⟨i, op, stage, still, attends⟩
  | warms read goes =>
    cases attends
    rcases goes.sound (idle rfl) read with sound | ⟨later, at_⟩
    · exact .inl sound
    · exact .inr ⟨i, _, _, at_, rfl⟩
  | warmupFails read later =>
    cases attends
    refine .inl ?_
    rw [later]
    exact ProviderProcess.sound_failWarmup (idle rfl) read
  | clears clears gone => cases gone.symm.trans active
  | leaves leaves => cases leaves <;> cases attends
  | _ => cases attends

theorem Tended.attended_next (tended : Tended s) (moves : Moves c s now act t) (active : t.active = some p) :
    t.Attended p := by
  rcases moves.frame.was_active active with before | ⟨i, op, -, warming⟩
  · rcases tended.attended p before with sound | ⟨i, op, stage, inside, attends⟩
    · exact moves.sound sound (tended.born p before)
    · exact moves.attends inside attends (tended.raised i op stage p inside) active
  · exact .inr ⟨i, op, _, warming, rfl⟩

theorem Moves.born (moves : Moves c s now act t) (spawns : SpawnsAsAsked c s)
    (born : ∀ p, s.active = some p → p < s.nextProc) (active : t.active = some p) : p < t.nextProc := by
  refine Nat.lt_of_lt_of_le ?_ moves.frame.nextProc_le
  rcases moves.frame.was_active active with before | ⟨i, op, inside, -⟩
  · exact born p before
  · exact (spawns i op _ inside).1

theorem Moves.current (moves : Moves c s now act t) (exclusive : Exclusive s)
    (current : ∀ i op p, s.tasks i = .inside op (.warming p) → s.active = some p)
    (inside : t.tasks i = .inside op (.warming p)) : t.active = some p := by
  rcases moves.changes i with same | changes
  · have before := same.symm.trans inside
    have held := current i op p before
    rcases moves.frame.active with kept | ⟨j, other, q, connecting, -, -⟩ | ⟨-, j, other, stage, within, clears⟩
    · exact kept.trans held
    · -- Only one task is under the lock, and it was not yet warming the process up.
      obtain rfl := exclusive.only connecting before
      cases connecting.symm.trans before
    · obtain rfl := exclusive.only within before
      cases within.symm.trans before
      cases clears
  · rw [inside] at changes
    cases changes with
    | rests aside rests => exact absurd rfl (ne_inside_of_resting rests)
    | asks aside asked begun => cases begun.at_entered rfl
    | serves within active provider ready arrival => cases arrival.at_entered rfl
    | advances within advance => cases advance
    | rebuilds within goes =>
      rcases goes with ended | ⟨u, other, asked, index, begun⟩
      · cases ended
      · cases begun.at_entered rfl
    | leaves within leaves rests => exact absurd rfl (ne_inside_of_resting rests)
    | connects within active => exact active
    | warms within read goes became =>
      cases goes with
      | returns arrival => cases arrival.at_entered rfl
    | removes within clears removed active =>
      cases removed with
      | throws q name eager thrown => cases thrown.at_entered rfl
      | killed q cancelled thrown => cases thrown.at_entered rfl
      | ends q sequel rests => exact absurd rfl (ne_inside_of_resting rests)

theorem Tended.next (tended : Tended s) (spawns : SpawnsAsAsked c s) (before : Exclusive s)
    (exclusive : Exclusive t) (moves : Moves c s now act t) : Tended t := by
  refine ⟨fun p active => moves.born spawns tended.born active, ?_, fun p active =>
    tended.attended_next moves active, fun i op p inside => moves.current before tended.current inside⟩
  intro i op stage p inside raises
  rcases moves.raises inside raises with ⟨before, earlier, within, also⟩ | ⟨-, name, eager, new⟩
  · rcases moves.idle (tended.raised i before earlier p within also) with idle | ⟨j, other, sequel, reaping⟩
    · exact idle
    · obtain rfl := exclusive.only inside reaping
      cases inside.symm.trans reaping
      cases raises
  · rw [new]
    rfl

structure Kept (c : Settings) (s : Supervisor) : Prop where
  exclusive : Exclusive s
  spawns : SpawnsAsAsked c s
  tended : Tended s

theorem start_kept (c : Settings) (defaultProvider : String) : Kept c (start defaultProvider) :=
  ⟨start_exclusive defaultProvider, nofun, nofun, nofun, nofun, nofun⟩

theorem Kept.next (kept : Kept c s) (enabled : s.Enabled act) : Kept c (s.next c now act) := by
  have exclusive : Exclusive (s.next c now act) := kept.exclusive.next enabled
  have moves : Moves c s now act (s.next c now act) := moves enabled
  exact ⟨exclusive, kept.spawns.next moves, kept.tended.next kept.spawns kept.exclusive exclusive moves⟩

/-- While nobody has the lifecycle lock, `_active` is None or a process in state READY or FAILED. -/
def SettledWhenUnlocked (s : Supervisor) : Prop :=
  s.lifecycleLock.holder = none → ∀ p, s.active = some p →
    (s.procs p).state = .ready ∨ (s.procs p).state = .failed

theorem Kept.settledWhenUnlocked (kept : Kept c s) : SettledWhenUnlocked s := by
  intro free p active
  rcases kept.tended.attended p active with sound | ⟨i, op, stage, inside, -⟩
  · exact sound.2
  · have held := kept.exclusive i op stage inside
    rw [free] at held
    cases held

/-- `ensure_ready`, awaited by the task `i`, returns `p` in this step; `proc` is what it is then. -/
inductive Returns (s : Supervisor) (i : TaskId) (awaiter : Awaiter) (p : ProcId) :
    SupervisorAct → ProviderProcess → Prop
  | reused {target : String} (inside : s.tasks i = .inside (.ensureReady target awaiter) .entered)
      (active : s.active = some p) (provider : (s.procs p).provider = target)
      (ready : (s.procs p).state = .ready) : Returns s i awaiter p (.proceed i) (s.procs p)
  | spawned {target : String} {warm : ProviderProcess}
      (inside : s.tasks i = .inside (.ensureReady target awaiter) (.warming p))
      (read : (s.procs p).Warms warm) : Returns s i awaiter p (.readWarmup i) warm

theorem Returns.inside {awaiter : Awaiter} (returns : s.Returns i awaiter p act proc) :
    ∃ target stage, s.tasks i = .inside (.ensureReady target awaiter) stage := by
  cases returns with
  | reused inside => exact ⟨_, _, inside⟩
  | spawned inside => exact ⟨_, _, inside⟩

theorem Arrival.joins {q : ProcId} {awaiter : Awaiter} {route : Option Route}
    (arrival : s.Arrival now i q awaiter proc task) (at_ : task = .exchanging p route) :
    q = p ∧ awaiter.Joins route := by
  cases arrival with
  | ends => cases at_
  | lists =>
    cases at_
    exact ⟨rfl, .lists⟩
  | streams synth route listed begun => cases begun <;> cases at_
  | synthesizes synth route listed =>
    cases at_
    exact ⟨rfl, .synthesizes synth route⟩

theorem ne_exchanging_of_resting {route : Option Route} (resting : task = .done ∨ task = .sleeping) :
    task ≠ .exchanging p route := by
  rcases resting with rfl | rfl <;> simp

theorem Moves.exchanging {route : Option Route} (moves : Moves c s now act t)
    (at_ : t.tasks i = .exchanging p route) :
    s.tasks i = .exchanging p route ∨
      ∃ awaiter proc, s.Returns i awaiter p act proc ∧ awaiter.Joins route := by
  rcases moves.changes i with same | changes
  · exact .inl (same.symm.trans at_)
  rw [at_] at changes
  refine .inr ?_
  cases changes with
  | rests aside resting => exact absurd rfl (ne_exchanging_of_resting resting)
  | asks aside asked begun => cases begun
  | serves inside active provider ready arrival =>
    obtain ⟨rfl, joins⟩ := arrival.joins rfl
    exact ⟨_, _, .reused inside active provider ready, joins⟩
  | rebuilds inside goes =>
    rcases goes with ended | ⟨u, other, asked, index, begun⟩
    · cases ended
    · cases begun
  | leaves inside leaves resting => exact absurd rfl (ne_exchanging_of_resting resting)
  | warms inside read goes became =>
    cases goes with
    | returns arrival =>
      obtain ⟨rfl, joins⟩ := arrival.joins rfl
      exact ⟨_, _, .spawned inside read, joins⟩
  | removes inside clears removed active =>
    cases removed with
    | throws q name eager thrown => cases thrown
    | killed q cancelled thrown => cases thrown
    | ends q sequel resting => exact absurd rfl (ne_exchanging_of_resting resting)

/-- How a task comes to pursue an operation that it did not pursue before. -/
inductive Takes (c : Settings) (s t : Supervisor) (i : TaskId) (act : SupervisorAct) : Op → Prop
  | asked {op : Op} {u : Supervisor} (asked : Asks c u op) (index : t.voiceIndex = u.voiceIndex) :
      Takes c s t i act op
  | streams {p : ProcId} {proc : ProviderProcess} {synth : SynthesizeRequest} {route : Route}
      (returns : s.Returns i (.connection synth route) p act proc)
      (listed : s.voiceIndex.localIdFor synth.voice ∈ proc.voices.map Voice.id) :
      Takes c s t i act (.ensureReady ((s.setProc p proc).targetName none)
        (.generator (withDefaults synth) route))
  | enumerates {name : String} {todo : List String} {out later : Dict String (List Voice)}
      {asked : Option SynthesizeRequest}
      (before : (s.tasks i).pursues = some (.enumerate (name :: todo) out asked))
      (grows : later = out ∨ ∃ voices, later = out.set name voices) :
      Takes c s t i act (.enumerate todo later asked)

theorem takes_of_thrown {other : Op} {before : Stage} (inside : s.tasks i = .inside other before)
    (thrown : Thrown other task) (pursues : task.pursues = some op) : Takes c s t i act op := by
  cases thrown with
  | ended => cases pursues
  | skipped name todo out asked =>
    cases pursues
    exact .enumerates (by rw [inside]; rfl) (.inl rfl)

theorem takes_of_arrival {awaiter : Awaiter} {arrived : ProviderProcess}
    (arrival : (s.setProc p proc).Arrival now i p awaiter arrived task)
    (returns : s.Returns i awaiter p act proc) (pursues : task.pursues = some op) :
    Takes c s t i act op := by
  cases arrival with
  | streams synth route listed begun =>
    cases begun.pursues.symm.trans pursues
    rw [procs_setProc] at listed
    exact .streams returns listed
  | _ => cases pursues

theorem Moves.pursues (moves : Moves c s now act t) (pursues : (t.tasks i).pursues = some op) :
    (s.tasks i).pursues = some op ∨ Takes c s t i act op := by
  rcases moves.changes i with same | changes
  · exact .inl (same ▸ pursues)
  generalize t.tasks i = task at changes pursues
  have goesOn : ∀ {before : Op} {earlier later : Stage}, s.tasks i = .inside before earlier →
      (Task.inside before later).pursues = some op → (s.tasks i).pursues = some op := by
    intro before earlier later inside at_
    rw [inside]
    exact at_
  have rests : (task = .done ∨ task = .sleeping) → (s.tasks i).pursues = some op := by
    rintro (rfl | rfl) <;> cases pursues
  cases changes with
  | rests aside resting => exact .inl (rests resting)
  | asks aside asked begun index =>
    cases begun.pursues.symm.trans pursues
    exact .inr (.asked asked index)
  | admitted waiting =>
    refine .inl ?_
    rw [waiting]
    exact pursues
  | @serves target awaiter p proc _ inside active provider ready arrival =>
    rw [← setProc_self s p] at arrival
    exact .inr (takes_of_arrival arrival (.reused inside active provider ready) pursues)
  | advances inside advance =>
    cases advance with
    | wants wanted vacant => exact .inl (goesOn inside pursues)
    | created other q => exact .inl (goesOn inside pursues)
    | abandons other q => exact .inl (goesOn inside pursues)
    | passes name todo out asked =>
      cases pursues
      exact .inr (.enumerates (by rw [inside]; rfl) (.inl rfl))
    | reuses todo out asked active ready =>
      cases pursues
      exact .inr (.enumerates (by rw [inside]; rfl) (.inr ⟨_, rfl⟩))
    | skips name todo out asked wanted eager =>
      cases pursues
      exact .inr (.enumerates (by rw [inside]; rfl) (.inl rfl))
  | reaps inside active displaces => exact .inl (goesOn inside pursues)
  | rebuilds inside goes =>
    rcases goes with ended | ⟨u, other, asked, index, begun⟩
    · exact .inl (rests (.inl ended))
    · cases begun.pursues.symm.trans pursues
      exact .inr (.asked asked index)
  | leaves inside leaves resting => exact .inl (rests resting)
  | spawns inside known installed new later => exact .inl (goesOn inside pursues)
  | connects inside active => exact .inl (goesOn inside pursues)
  | warms inside read goes became =>
    cases goes with
    | returns arrival => exact .inr (takes_of_arrival arrival (.spawned inside read) pursues)
    | lists name todo out asked =>
      cases pursues
      exact .inr (.enumerates (by rw [inside]; rfl) (.inr ⟨_, rfl⟩))
    | switched newName => exact .inl (rests (.inl rfl))
    | unasked unwanted => exact .inl (rests (.inl rfl))
  | warmupFails inside read became => exact .inl (goesOn inside pursues)
  | removes inside clears removed active =>
    cases removed with
    | spawns q name eager => exact .inl (goesOn inside pursues)
    | continues q => exact .inl (goesOn inside pursues)
    | throws q name eager thrown => exact .inr (takes_of_thrown inside thrown pursues)
    | killed q cancelled thrown => exact .inr (takes_of_thrown inside thrown pursues)
    | ends q sequel resting => exact .inl (rests resting)

theorem Returns.born {awaiter : Awaiter} (returns : s.Returns i awaiter p act proc) (kept : Kept c s) :
    p < s.nextProc := by
  cases returns with
  | reused inside active provider ready => exact kept.tended.born p active
  | spawned inside read => exact (kept.spawns i _ _ inside).1

theorem Returns.active {awaiter : Awaiter} (returns : s.Returns i awaiter p act proc) (kept : Kept c s) :
    s.active = some p := by
  cases returns with
  | reused inside active => exact active
  | spawned inside read => exact kept.tended.current i _ p inside

theorem Returns.provider {awaiter : Awaiter} {target : String}
    (returns : s.Returns i awaiter p act proc) (kept : Kept c s)
    (pursues : (s.tasks i).pursues = some (.ensureReady target awaiter)) :
    (s.procs p).provider = target ∧ proc.provider = target := by
  cases returns with
  | reused inside active provider ready =>
    rw [inside] at pursues
    cases pursues
    exact ⟨provider, provider⟩
  | spawned inside read =>
    rw [inside] at pursues
    cases pursues
    obtain ⟨rfl, -⟩ := Prod.mk.inj (Option.some.inj (kept.spawns i _ _ inside).2)
    exact ⟨rfl, (ProviderProcess.outlives_warms read).1⟩

def Grown (s : Supervisor) (p : ProcId) : Prop :=
  p < s.nextProc ∧ ∀ i op stage, s.tasks i = .inside op stage → stage.raises ≠ some p

theorem Grown.next (grown : s.Grown p) (moves : Moves c s now act t) : t.Grown p := by
  refine ⟨Nat.lt_of_lt_of_le grown.1 moves.frame.nextProc_le, ?_⟩
  intro i op stage inside raises
  rcases moves.raises inside raises with ⟨before, earlier, within, also⟩ | ⟨new, -⟩
  · exact grown.2 i before earlier within also
  · exact absurd (new ▸ grown.1) (Nat.lt_irrefl _)

theorem Returns.grown {awaiter : Awaiter} (returns : s.Returns i awaiter p act proc) (kept : Kept c s)
    (moves : Moves c s now act (s.next c now act)) : (s.next c now act).Grown p := by
  have born := returns.born kept
  refine ⟨Nat.lt_of_lt_of_le born moves.frame.nextProc_le, ?_⟩
  intro j op stage inside raises
  rcases moves.raises inside raises with ⟨before, earlier, within, also⟩ | ⟨new, -⟩
  · cases returns with
    | reused mine =>
      obtain rfl := kept.exclusive.only mine within
      cases mine.symm.trans within
      cases also
    | spawned mine read =>
      obtain rfl := kept.exclusive.only mine within
      obtain ⟨proc, task, goes, becomes⟩ := warmed_next c now mine read
      cases goes with
      | returns arrival =>
        rw [becomes.tasks, Function.update_self] at inside
        rw [arrival.at_entered inside] at raises
        cases raises
      | unasked unwanted => cases unwanted
  · exact absurd (new ▸ born) (Nat.lt_irrefl _)

def Engaged (s : Supervisor) : Prop := ∀ i p route, s.tasks i = .exchanging p route → s.Grown p

theorem Engaged.next (engaged : Engaged s) (kept : Kept c s) (enabled : s.Enabled act) :
    Engaged (s.next c now act) := by
  have moves : Moves c s now act (s.next c now act) := moves enabled
  intro i p route at_
  rcases moves.exchanging at_ with before | ⟨awaiter, proc, returns, -⟩
  · exact (engaged i p route before).next moves
  · exact returns.grown kept moves

end Supervisor

end Daemon

import NeuralTts.Daemon.Readiness

/-! Who works on a provider process while a `synthesize` exchange is under way on it. The two locks
are not coordinated: the invariant holds of the runs in which no teardown begins under an exchange,
and no exchange begins under a teardown. -/

namespace Daemon

open Library

namespace Phase

def synthesizing : Phase → Bool
  | .flushing (.synthesize _) | .header | .streaming | .yielded => true
  | _ => false

def holdsSynth : Phase → Bool
  | .locked (.synthesize _) | .draining (.synthesize _) | .flushing (.synthesize _)
  | .header | .streaming | .yielded => true
  | _ => false

theorem holdsSynth_of_synthesizing {phase : Phase} (running : phase.synthesizing) :
    phase.holdsSynth := by
  unfold synthesizing at running
  split at running <;> first | rfl | cases running

theorem holds_of_holdsSynth {phase : Phase} (inside : phase.holdsSynth) : phase.holds := by
  unfold holdsSynth at inside
  split at inside <;> first | rfl | cases inside

end Phase

def Teardown.underway : Teardown → Bool
  | .idle | .finished _ => false
  | _ => true

namespace ProviderProcess

/-- The request lock excludes, and nothing kills or tears down what an exchange works on. -/
structure Calm (p : ProviderProcess) : Prop where
  lock : ∀ i, (p.phase i).holds → p.requestLock.holder = some i
  killer : p.killer ≠ .idle → p.state ≠ .ready ∧ ∀ i, p.phase i = .outside
  teardown : p.teardown.underway → p.state ≠ .ready ∧ ∀ i, (p.phase i).holdsSynth = false

/-- A process that `ensure_ready` has never returned. -/
structure Untouched (p : ProviderProcess) : Prop where
  state : p.state = .starting
  killer : p.killer = .idle
  teardown : p.teardown = .idle
  phase : ∀ i, p.phase i = .outside

variable {p q : ProviderProcess} {i : TaskId} {now : Nat} {ex : Exchange}

theorem Untouched.calm (untouched : Untouched p) : Calm p := by
  refine ⟨?_, ?_, ?_⟩
  · intro i holds
    rw [untouched.phase i] at holds
    cases holds
  · intro started
    exact absurd untouched.killer started
  · intro underway
    rw [untouched.teardown] at underway
    cases underway

theorem Calm.same (calm : Calm p) (phase : q.phase = p.phase) (lock : q.requestLock = p.requestLock)
    (state : q.state = .ready → p.state = .ready) (killer : q.killer = p.killer)
    (teardown : q.teardown = p.teardown) : Calm q := by
  refine ⟨?_, ?_, ?_⟩
  · rw [phase, lock]
    exact calm.lock
  · rw [killer, phase]
    intro started
    obtain ⟨unready, outside⟩ := calm.killer started
    exact ⟨fun ready => unready (state ready), outside⟩
  · rw [teardown, phase]
    intro underway
    obtain ⟨unready, free⟩ := calm.teardown underway
    exact ⟨fun ready => unready (state ready), free⟩

theorem Calm.moved (calm : Calm p) (begun : p.phase i ≠ .outside) (phase : Phase)
    (phases : q.phase = Function.update p.phase i phase)
    (kept : ∀ j, j ≠ i → (p.phase j).holds → q.requestLock.holder = some j)
    (mine : phase.holds → q.requestLock.holder = some i)
    (quiet : phase.holdsSynth → (p.phase i).holdsSynth ∨ p.teardown.underway = false)
    (state : q.state = .ready → p.state = .ready) (killer : q.killer = p.killer)
    (teardown : q.teardown = p.teardown) : Calm q := by
  refine ⟨?_, ?_, ?_⟩
  · intro j holds
    rw [phases] at holds
    by_cases same : j = i
    · subst same
      rw [Function.update_self] at holds
      exact mine holds
    · rw [Function.update_of_ne same] at holds
      exact kept j same holds
  · intro started
    rw [killer] at started
    exact absurd ((calm.killer started).2 i) begun
  · intro underway
    rw [teardown] at underway
    obtain ⟨unready, free⟩ := calm.teardown underway
    refine ⟨fun ready => unready (state ready), ?_⟩
    intro j
    rw [phases]
    by_cases same : j = i
    · subst same
      rw [Function.update_self]
      by_contra inside
      rcases quiet (by simpa using inside) with before | idle
      · rw [free j] at before
        cases before
      · rw [underway] at idle
        cases idle
    · rw [Function.update_of_ne same]
      exact free j

theorem ne_outside_of_holds (holds : (p.phase i).holds) : p.phase i ≠ .outside := by
  intro outside
  rw [outside] at holds
  cases holds

theorem Calm.guards (calm : Calm p) : p.requestLock.Guards fun i => (p.phase i).holds := calm.lock

theorem Calm.alone (calm : Calm p) (holds : (p.phase i).holds) {j : TaskId} (other : j ≠ i) :
    (p.phase j).holds = false := by
  by_contra also
  exact other (calm.guards.only holds (by simpa using also))

theorem Calm.setPhase (calm : Calm p) (holds : (p.phase i).holds) (phase : Phase)
    (quiet : phase.holdsSynth → (p.phase i).holdsSynth) : Calm (p.setPhase i phase) :=
  calm.moved (ne_outside_of_holds holds) phase rfl (fun j _ held => calm.lock j held)
    (fun _ => calm.lock i holds) (fun inside => .inl (quiet inside)) id rfl rfl

theorem Calm.finish (calm : Calm p) (holds : (p.phase i).holds) : Calm (p.finish i) := by
  refine calm.moved (ne_outside_of_holds holds) .finished rfl ?_ nofun nofun id rfl rfl
  intro j other held
  rw [calm.alone holds other] at held
  cases held

theorem Calm.write (calm : Calm p) (holds : (p.phase i).holds)
    (synth : ex ≠ .listVoices → (p.phase i).holdsSynth) : Calm (p.write i ex) := by
  cases ex with
  | listVoices =>
    exact calm.moved (ne_outside_of_holds holds) (.flushing .listVoices) rfl
      (fun j _ held => calm.lock j held) (fun _ => calm.lock i holds) (fun inside => by cases inside)
      id rfl rfl
  | synthesize s =>
    have marked : Calm { p with needsDrain := true } := calm.same rfl rfl id rfl rfl
    simp only [ProviderProcess.write]
    split
    · exact marked.finish holds
    · exact marked.moved (ne_outside_of_holds holds) (.flushing (.synthesize s)) rfl
        (fun j _ held => marked.lock j held) (fun _ => marked.lock i holds)
        (fun _ => .inl (synth (by simp))) id rfl rfl

theorem holdsSynth_of_locked (locked : p.phase i = .locked ex) (synth : ex ≠ .listVoices) :
    (p.phase i).holdsSynth := by
  rw [locked]
  cases ex with
  | synthesize => rfl
  | listVoices => exact absurd rfl synth

theorem holdsSynth_of_draining (draining : p.phase i = .draining ex) (synth : ex ≠ .listVoices) :
    (p.phase i).holdsSynth := by
  rw [draining]
  cases ex with
  | synthesize => rfl
  | listVoices => exact absurd rfl synth

theorem Calm.react (calm : Calm p) (reads : (p.phase i).reads) (frame : Option TaskId × Response) :
    Calm (p.react i now frame) := by
  have holds := Phase.holds_of_reads reads
  unfold ProviderProcess.react
  split
  · rename_i ex draining
    split
    · have cleared : Calm { p with needsDrain := false } := calm.same rfl rfl id rfl rfl
      exact cleared.write holds (holdsSynth_of_draining draining)
    · exact calm
  · rename_i header
    have cleared : Calm { p with needsDrain := false } := calm.same rfl rfl id rfl rfl
    split
    · exact cleared.finish holds
    · exact calm.setPhase holds _ fun _ => by rw [header]; rfl
    · exact calm.finish holds
  · rename_i streaming
    have stamped : Calm { p with lastActivity := now } := calm.same rfl rfl id rfl rfl
    have cleared : Calm { p with lastActivity := now, needsDrain := false } :=
      calm.same rfl rfl id rfl rfl
    dsimp only
    split
    · have yields := stamped.setPhase holds .yielded fun _ => by
        change (p.phase i).holdsSynth
        rw [streaming]
        rfl
      exact yields.same rfl rfl id rfl rfl
    · exact cleared.finish holds
    · exact stamped.finish holds
    · exact stamped
  · split
    · rename_i voices _
      have listed : Calm { p with voices := voices.map voiceFromPb } := calm.same rfl rfl id rfl rfl
      exact listed.finish holds
    · exact calm.finish holds
  · exact calm

theorem Calm.abandonDrain (calm : Calm p) (draining : p.phase i = .draining ex) :
    Calm (p.abandonDrain i ex) := by
  have failed : Calm { p with state := .failed, needsDrain := false } :=
    calm.same rfl rfl nofun rfl rfl
  have holds : (p.phase i).holds := by rw [draining]; rfl
  exact failed.write holds (holdsSynth_of_draining draining)

theorem Calm.raiseRead (calm : Calm p) (reads : (p.phase i).reads) (error : ReadError) :
    Calm (p.raiseRead i error) := by
  have holds := Phase.holds_of_reads reads
  unfold ProviderProcess.raiseRead
  split
  · rename_i draining
    exact calm.abandonDrain draining
  · have cleared : Calm { p with needsDrain := false } := calm.same rfl rfl id rfl rfl
    exact cleared.finish holds
  · exact calm.finish holds

theorem Calm.interrupt (calm : Calm p) (suspended : (p.phase i).suspended) : Calm (p.interrupt i) := by
  unfold ProviderProcess.interrupt
  split
  · rename_i queued
    exact calm.moved (by rw [queued]; nofun) .finished rfl (fun j _ held => calm.lock j held) nofun
      nofun id rfl rfl
  · rename_i draining
    have cleared : Calm { p with needsDrain := false } := calm.same rfl rfl id rfl rfl
    exact cleared.finish (by change (p.phase i).holds; rw [draining]; rfl)
  · rename_i unqueued _
    refine calm.finish ?_
    cases phase : p.phase i with
    | queued ex => exact absurd phase (unqueued ex)
    | _ => rw [phase] at suspended; simp_all [Phase.holds, Phase.suspended]

/-- A `synthesize` call gets the request lock of a process that is being torn down. -/
def TakesUnderTeardown (p : ProviderProcess) : ExchangeAct → Prop
  | .acquire i => p.teardown.underway ∧ ∃ synth, p.phase i = .queued (.synthesize synth)
  | _ => False

theorem Calm.next (calm : Calm p) {act : ExchangeAct} (enabled : p.Enabled act)
    (enters : act.enters = false) (apart : ¬p.TakesUnderTeardown act) : Calm (p.next now act) := by
  have unparked : ∀ i, Calm (p.unpark i) := fun _ => calm.same rfl rfl id rfl rfl
  cases act with
  | enter i ex => cases enters
  | acquire i =>
    obtain ⟨⟨ex, queued⟩, free, -⟩ := enabled
    simp only [ProviderProcess.next, queued]
    refine calm.moved (by rw [queued]; simp) (.locked ex) rfl ?_ (fun _ => rfl) ?_ id rfl rfl
    · exact fun j _ held => absurd held (calm.guards.vacant free j)
    · intro inside
      right
      by_contra underway
      cases ex with
      | listVoices => cases inside
      | synthesize synth => exact apart ⟨by simpa using underway, synth, queued⟩
  | begin i =>
    obtain ⟨ex, locked⟩ := enabled
    have holds : (p.phase i).holds := by rw [locked]; rfl
    simp only [ProviderProcess.next, locked, beginExchange]
    split
    · refine calm.setPhase holds _ fun inside => ?_
      cases ex with
      | listVoices => cases inside
      | synthesize synth => exact holdsSynth_of_locked locked (by simp)
    · exact calm.write holds (holdsSynth_of_locked locked)
  | park i => exact calm.same rfl rfl id rfl rfl
  | read i =>
    simp only [ProviderProcess.next]
    split
    · have popped : Calm (p.unpark i).pop := calm.same rfl rfl id rfl rfl
      exact popped.react enabled.1 _
    · exact calm
  | garble i b => exact (unparked i).react enabled.1 _
  | collide i => exact calm.raiseRead enabled.1 _
  | lost i error => exact (unparked i).raiseRead enabled _
  | timeout i tear =>
    obtain ⟨⟨ex, draining⟩, -⟩ := enabled
    simp only [ProviderProcess.next, draining]
    have torn : Calm ((p.unpark i).tearIf tear) := calm.same rfl rfl id rfl rfl
    exact torn.abandonDrain draining
  | flushed i =>
    obtain ⟨ex, flushing⟩ := enabled
    have holds : (p.phase i).holds := by rw [flushing]; rfl
    cases ex with
    | listVoices =>
      simp only [ProviderProcess.next, flushing]
      exact calm.setPhase holds _ fun inside => by cases inside
    | synthesize synth =>
      simp only [ProviderProcess.next, flushing]
      exact calm.setPhase holds _ fun _ => by rw [flushing]; rfl
  | unflushed i =>
    obtain ⟨ex, flushing⟩ := enabled
    exact calm.finish (by rw [flushing]; rfl)
  | resume i => exact calm.setPhase (by rw [enabled]; rfl) _ fun _ => by rw [enabled]; rfl
  | close i => exact calm.finish (by rw [enabled]; rfl)
  | cancel i tear =>
    have torn : Calm ((p.unpark i).tearIf tear) := calm.same rfl rfl id rfl rfl
    exact torn.interrupt enabled.1
  | serveHeader rate =>
    simp only [ProviderProcess.next]
    split
    · exact calm.same rfl rfl id rfl rfl
    · exact calm
  | answer b =>
    simp only [ProviderProcess.next]
    split
    · exact calm.same rfl rfl id rfl rfl
    · exact calm
  | _ => exact calm.same rfl rfl id rfl rfl

theorem Calm.enter (calm : Calm p) (ready : p.state = .ready) (i : TaskId) (ex : Exchange) :
    Calm (p.next now (.enter i ex)) := by
  have unkilled : p.killer = .idle := by
    by_contra started
    exact (calm.killer started).1 ready
  have idle : p.teardown.underway = false := by
    by_contra underway
    exact (calm.teardown (by simpa using underway)).1 ready
  have joined : ∀ phase lock, (phase.holds → lock.holder = some i) →
      (∀ j, j ≠ i → (p.phase j).holds → lock.holder = some j) →
      Calm { p.setPhase i phase with requestLock := lock } := by
    intro phase lock mine kept
    refine ⟨?_, fun started => absurd unkilled started, ?_⟩
    · intro j holds
      by_cases same : j = i
      · subst same
        simp only [ProviderProcess.setPhase, Function.update_self] at holds
        exact mine holds
      · simp only [ProviderProcess.setPhase, Function.update_of_ne same] at holds
        exact kept j same holds
    · intro underway
      rw [show p.teardown.underway = true from underway] at idle
      cases idle
  simp only [ProviderProcess.next]
  split
  · rename_i free
    exact joined _ _ (fun _ => rfl) fun j _ holds => absurd holds (calm.guards.vacant free.1 j)
  · exact joined _ _ (fun holds => by cases holds) fun j _ holds => calm.lock j holds

theorem underway_of_enabled {act : TeardownAct} (enabled : p.TeardownEnabled act) : p.teardown.underway := by
  cases act with
  | write => rw [show p.teardown = .writing from enabled]; rfl
  | terminate => rw [show p.teardown = .waiting from enabled]; rfl
  | kill => rw [show p.teardown = .terminating from enabled]; rfl
  | exited => rcases enabled.1 with at_ | at_ | at_ <;> rw [at_] <;> rfl
  | _ => rw [enabled.1]; rfl

theorem started_of_enabled {act : KillerAct} (enabled : p.KillerEnabled act) : p.killer ≠ .idle := by
  cases act with
  | kill => rw [show p.killer = .terminating from enabled]; nofun
  | exited => rcases enabled.1 with at_ | at_ <;> rw [at_] <;> nofun

theorem Calm.teardownStep (calm : Calm p) {act : TeardownAct} (enabled : p.TeardownEnabled act) :
    Calm (p.teardownStep act) := by
  obtain ⟨lock, killer, teardown⟩ := calm
  have shared := teardown (underway_of_enabled enabled)
  cases act with
  | write => exact ⟨lock, killer, fun _ => shared⟩
  | park => exact ⟨lock, killer, teardown⟩
  | reply => exact ⟨lock, killer, fun _ => shared⟩
  | giveUp tear => exact ⟨lock, killer, fun _ => shared⟩
  | collide => exact ⟨lock, killer, nofun⟩
  | terminate => exact ⟨lock, killer, fun _ => shared⟩
  | kill => exact ⟨lock, killer, fun _ => shared⟩
  | exited => exact ⟨lock, fun started => ⟨nofun, (killer started).2⟩, nofun⟩

theorem Calm.killerStep (calm : Calm p) {act : KillerAct} (enabled : p.KillerEnabled act) :
    Calm (p.killerStep act) := by
  have started := started_of_enabled enabled
  cases act with
  | kill => exact ⟨calm.lock, fun _ => calm.killer started, calm.teardown⟩
  | exited => exact ⟨calm.lock, fun _ => calm.killer started, calm.teardown⟩

theorem Calm.beginTeardown (calm : Calm p) (spared : ∀ i, (p.phase i).holdsSynth = false) :
    Calm p.beginTeardown :=
  ⟨calm.lock, fun started => ⟨nofun, (calm.killer started).2⟩, fun _ => ⟨nofun, spared⟩⟩

theorem Untouched.failWarmup (untouched : Untouched p) : Calm p.failWarmup := by
  refine ⟨?_, fun _ => ⟨nofun, untouched.phase⟩, ?_⟩
  · intro i holds
    rw [show p.failWarmup.phase i = .outside from untouched.phase i] at holds
    cases holds
  · intro underway
    rw [show p.failWarmup.teardown = .idle from untouched.teardown] at underway
    cases underway

theorem Untouched.warmedUp (untouched : Untouched p) (rate : Int) (voices : List PbVoice) :
    Calm (p.warmedUp rate voices) := by
  refine ⟨?_, fun started => absurd untouched.killer started, ?_⟩
  · intro i holds
    rw [show (p.warmedUp rate voices).phase i = .outside from untouched.phase i] at holds
    cases holds
  · intro underway
    rw [show (p.warmedUp rate voices).teardown = .idle from untouched.teardown] at underway
    cases underway

theorem Untouched.next (untouched : Untouched p) {act : ExchangeAct} (enabled : p.Enabled act)
    (enters : act.enters = false) : Untouched (p.next now act) := by
  obtain ⟨state, killer, teardown, phase⟩ := untouched
  have stuck : ∀ i, (p.phase i).reads → Untouched (p.next now act) := by
    intro i reads
    rw [phase i] at reads
    cases reads
  cases act with
  | enter i ex => cases enters
  | acquire i =>
    obtain ⟨⟨ex, at_⟩, -⟩ := enabled
    rw [phase i] at at_
    cases at_
  | begin i =>
    obtain ⟨ex, at_⟩ := enabled
    rw [phase i] at at_
    cases at_
  | park i => exact stuck i enabled.1
  | read i => exact stuck i enabled.1
  | garble i b => exact stuck i enabled.1
  | collide i => exact stuck i enabled.1
  | lost i error => exact stuck i enabled
  | timeout i tear =>
    obtain ⟨⟨ex, at_⟩, -⟩ := enabled
    rw [phase i] at at_
    cases at_
  | flushed i =>
    obtain ⟨ex, at_⟩ := enabled
    rw [phase i] at at_
    cases at_
  | unflushed i =>
    obtain ⟨ex, at_⟩ := enabled
    rw [phase i] at at_
    cases at_
  | resume i => exact nomatch (phase i).symm.trans enabled
  | close i => exact nomatch (phase i).symm.trans enabled
  | cancel i tear =>
    have suspended := enabled.1
    rw [phase i] at suspended
    cases suspended
  | serveHeader rate => simp only [ProviderProcess.next]; split <;> exact ⟨state, killer, teardown, phase⟩
  | answer b => simp only [ProviderProcess.next]; split <;> exact ⟨state, killer, teardown, phase⟩
  | _ => exact ⟨state, killer, teardown, phase⟩

end ProviderProcess

def Task.reaps : Task → Option ProcId
  | .inside _ (.reaping p _) => some p
  | _ => none

/-- The task that takes the step; exchanges are told apart by their own labels. -/
def SupervisorAct.task : SupervisorAct → Option TaskId
  | .connect i _ | .ensureReady i _ | .reloadVoices i | .enumerateAll i | .switch i _ | .shutdown i
  | .startIdleLoop i | .wake i | .acquire i | .proceed i | .spawnFails i | .created i | .abandoned i
  | .connected i | .parkWarmup i | .readWarmup i | .failWarmup i | .reaped i | .killed i | .cancel i =>
    some i
  | .exchange _ _ | .teardown _ _ | .killer _ _ | .exits _ => none

/-- Writes to the process's writer, or reads from its reader. -/
def ExchangeAct.works : ExchangeAct → Bool
  | .begin _ | .park _ | .read _ | .garble _ _ | .collide _ | .lost _ _ | .timeout _ _ | .flushed _
  | .unflushed _ => true
  | _ => false

namespace Supervisor

/-- The process on whose writer, reader or life a step works, and the task that takes the step;
no task for the shielded teardown and kill. -/
def touches (s : Supervisor) : SupervisorAct → Option (ProcId × Option TaskId)
  | .exchange p act => if act.works then some (p, act.actor) else none
  | .teardown p _ | .killer p _ => some (p, none)
  | .connected i | .parkWarmup i | .readWarmup i | .failWarmup i | .cancel i =>
    match s.tasks i with
    | .inside _ stage => stage.raises.map fun p => (p, some i)
    | _ => none
  | _ => none

/-- Nobody but the caller of a running `synthesize` exchange works on its process. -/
def Undisturbed (s : Supervisor) (act : SupervisorAct) : Prop :=
  ∀ p j, ((s.procs p).phase j).synthesizing → ∀ who, s.touches act = some (p, who) → who = some j

/-- A step begins to tear a process down only while no `synthesize` call is inside its request
lock, and no such call takes the lock of a process that is being torn down. -/
structure Spares (c : Settings) (s : Supervisor) (now : Nat) (act : SupervisorAct) : Prop where
  reap : ∀ i, act.task = some i → ∀ p, ((s.next c now act).tasks i).reaps = some p →
    (s.tasks i).reaps = some p ∨ ∀ j, ((s.procs p).phase j).holdsSynth = false
  lock : ∀ p e, act = .exchange p e → ¬(s.procs p).TakesUnderTeardown e

structure Guarded (s : Supervisor) : Prop where
  calm : ∀ p, (s.procs p).Calm
  fresh : ∀ i op stage p, s.tasks i = .inside op stage → stage.raises = some p → (s.procs p).Untouched

variable {c : Settings} {s t : Supervisor} {now : Nat} {i j : TaskId} {op : Op} {stage : Stage}

theorem not_holds_of_outside {p : ProviderProcess} (outside : ∀ i, p.phase i = .outside) (i : TaskId) :
    (p.phase i).holdsSynth = false := by
  rw [outside i]
  rfl

theorem Guarded.undisturbed (guarded : Guarded s) {act : SupervisorAct} (enabled : s.Enabled act) :
    Undisturbed s act := by
  intro p j running who touch
  have inside := Phase.holdsSynth_of_synthesizing running
  have calm := guarded.calm p
  have raised : ∀ i, (match s.tasks i with
      | .inside _ stage => stage.raises.map fun p => (p, some i)
      | _ => none) = some (p, who) → who = some j := by
    intro i at_
    split at at_
    · rename_i op stage within
      obtain ⟨q, raises, same⟩ := Option.map_eq_some_iff.mp at_
      cases same
      have outside := (guarded.fresh i op stage p within raises).phase
      rw [not_holds_of_outside outside j] at inside
      cases inside
    · cases at_
  cases act with
  | exchange q e =>
    simp only [touches] at touch
    split at touch
    · rename_i works
      cases touch
      have holds := Phase.holds_of_holdsSynth inside
      have mine : ∀ i, ((s.procs p).phase i).holds → some i = some j := fun i held =>
        congrArg some (calm.guards.only holds held)
      obtain ⟨-, -, able, -⟩ := enabled
      cases e with
      | begin i => obtain ⟨ex, at_⟩ := able; exact mine i (by rw [at_]; rfl)
      | park i => exact mine i (Phase.holds_of_reads able.1)
      | read i => exact mine i (Phase.holds_of_reads able.1)
      | garble i b => exact mine i (Phase.holds_of_reads able.1)
      | collide i => exact mine i (Phase.holds_of_reads able.1)
      | lost i error => exact mine i (Phase.holds_of_reads able)
      | timeout i tear => obtain ⟨⟨ex, at_⟩, -⟩ := able; exact mine i (by rw [at_]; rfl)
      | flushed i => obtain ⟨ex, at_⟩ := able; exact mine i (by rw [at_]; rfl)
      | unflushed i => obtain ⟨ex, at_⟩ := able; exact mine i (by rw [at_]; rfl)
      | _ => cases works
    · cases touch
  | teardown q e =>
    cases touch
    rw [(calm.teardown (ProviderProcess.underway_of_enabled enabled)).2 j] at inside
    cases inside
  | killer q e =>
    cases touch
    rw [not_holds_of_outside (calm.killer (ProviderProcess.started_of_enabled enabled)).2 j] at inside
    cases inside
  | connected i => exact raised i touch
  | parkWarmup i => exact raised i touch
  | readWarmup i => exact raised i touch
  | failWarmup i => exact raised i touch
  | cancel i => exact raised i touch
  | _ => cases touch

theorem Works.untouched {p : ProcId} {act : SupervisorAct} {proc : ProviderProcess}
    (works : s.Works now p act proc) (untouched : (s.procs p).Untouched) : proc.Untouched := by
  cases works with
  | exchange born enters enabled => exact untouched.next enabled enters
  | teardown enabled =>
    have underway := ProviderProcess.underway_of_enabled enabled
    rw [untouched.teardown] at underway
    cases underway
  | killer enabled => exact absurd untouched.killer (ProviderProcess.started_of_enabled enabled)
  | exits => exact ⟨untouched.state, untouched.killer, untouched.teardown, untouched.phase⟩
  | parks => exact ⟨untouched.state, untouched.killer, untouched.teardown, untouched.phase⟩

theorem Works.keepsCalm {p : ProcId} {act : SupervisorAct} {proc : ProviderProcess}
    (works : s.Works now p act proc) (calm : (s.procs p).Calm)
    (apart : ∀ e, act = .exchange p e → ¬(s.procs p).TakesUnderTeardown e) : proc.Calm := by
  cases works with
  | exchange born enters enabled => exact calm.next enabled enters (apart _ rfl)
  | teardown enabled => exact calm.teardownStep enabled
  | killer enabled => exact calm.killerStep enabled
  | exits => exact calm.same rfl rfl id rfl rfl
  | parks => exact calm.same rfl rfl id rfl rfl

theorem Arrival.keepsCalm {p : ProcId} {awaiter : Awaiter} {proc : ProviderProcess} {task : Task}
    (arrival : s.Arrival now i p awaiter proc task) (calm : (s.procs p).Calm)
    (ready : (s.procs p).state = .ready) : proc.Calm := by
  cases arrival with
  | ends => exact calm
  | lists => exact calm.enter ready i _
  | streams => exact calm
  | synthesizes synth route =>
    have stamped : ({ s.procs p with lastActivity := now } : ProviderProcess).Calm :=
      calm.same rfl rfl id rfl rfl
    exact stamped.enter ready i _

theorem Warmed.calm {p : ProcId} {warm proc : ProviderProcess} {task : Task}
    (goes : Warmed (s.setProc p warm) now i p op proc task) (untouched : (s.procs p).Untouched)
    (read : (s.procs p).Warms warm) : proc.Calm := by
  obtain ⟨-, -, -, ready⟩ := ProviderProcess.outlives_warms read
  have phase : ∀ j, warm.phase j = .outside := by
    cases read with
    | ready answered => exact untouched.phase
  have calm : warm.Calm := by
    cases read with
    | @ready asked rate voices rest answered =>
      have popped : ((s.procs p).leaveReader .warmup).pop.Untouched :=
        ⟨untouched.state, untouched.killer, untouched.teardown, untouched.phase⟩
      exact popped.warmedUp rate voices
  have here : (s.setProc p warm).procs p = warm := procs_setProc s p warm
  cases goes with
  | returns arrival => exact arrival.keepsCalm (by rw [here]; exact calm) (by rw [here]; exact ready)
  | lists name todo out asked =>
    rw [here]
    exact calm.beginTeardown fun j => not_holds_of_outside phase j
  | switched newName => rw [here]; exact calm
  | unasked unwanted => rw [here]; exact calm

theorem newborn_untouched (name : String) (eager : Bool) (now : Nat) :
    (ProviderProcess.spawned name eager now).Untouched := ⟨rfl, rfl, rfl, fun _ => rfl⟩

theorem Guarded.calm_next (guarded : Guarded s) {act : SupervisorAct} (enabled : s.Enabled act)
    (spares : Spares c s now act) (p : ProcId) : ((s.next c now act).procs p).Calm := by
  have moves : Moves c s now act (s.next c now act) := moves enabled
  have handles := moves.handles p
  generalize (s.next c now act).procs p = proc at handles ⊢
  cases handles with
  | spared => exact guarded.calm p
  | works step => exact step.keepsCalm (guarded.calm p) fun e => spares.lock p e
  | serves inside active provider ready arrival => exact arrival.keepsCalm (guarded.calm p) ready
  | @reaps i op sequel inside later =>
    refine (guarded.calm p).beginTeardown ((spares.reap i rfl p (by rw [later]; rfl)).resolve_left ?_)
    rw [inside]
    simp [Task.reaps]
  | spawns inside new => exact (newborn_untouched ..).calm
  | connects inside later => exact (guarded.calm p).same rfl rfl id rfl rfl
  | warms inside read goes => exact goes.calm (guarded.fresh _ _ _ p inside rfl) read
  | warmupFails inside read later =>
    have untouched := guarded.fresh _ _ _ p inside rfl
    rcases read with rfl | rfl
    · exact untouched.failWarmup
    · exact ProviderProcess.Untouched.failWarmup
        ⟨untouched.state, untouched.killer, untouched.teardown, untouched.phase⟩

theorem Guarded.fresh_next (guarded : Guarded s) (before : Exclusive s) (exclusive : Exclusive t)
    {act : SupervisorAct} (moves : Moves c s now act t) {p : ProcId} (inside : t.tasks i = .inside op stage)
    (raises : stage.raises = some p) : (t.procs p).Untouched := by
  rcases moves.raises inside raises with ⟨other, earlier, within, also⟩ | ⟨-, name, eager, new⟩
  · have untouched := guarded.fresh i other earlier p within also
    have handles := moves.handles p
    generalize t.procs p = proc at handles ⊢
    cases handles with
    | spared => exact untouched
    | works step => exact step.untouched untouched
    | serves within active provider ready arrival => exact nomatch ready.symm.trans untouched.state
    | spawns within new => exact newborn_untouched ..
    | connects within later => exact ⟨untouched.state, untouched.killer, untouched.teardown, untouched.phase⟩
    -- In the other cases the task that has raised the process does so no longer.
    | reaps reaping later =>
      obtain rfl := exclusive.only inside later
      cases inside.symm.trans later
      cases raises
    | warms warming read goes =>
      obtain rfl := before.only within warming
      rw [inside] at goes
      cases goes with
      | returns arrival =>
        rw [arrival.at_entered rfl] at raises
        cases raises
      | lists => cases raises
    | warmupFails warming read later =>
      obtain rfl := exclusive.only inside later
      cases inside.symm.trans later
      cases raises
  · rw [new]
    exact newborn_untouched ..

theorem Guarded.next (guarded : Guarded s) (exclusive : Exclusive s) {act : SupervisorAct}
    (enabled : s.Enabled act) (spares : Spares c s now act) : Guarded (s.next c now act) :=
  ⟨guarded.calm_next enabled spares, fun _ _ _ _ inside raises =>
    guarded.fresh_next exclusive (exclusive.next enabled) (moves enabled) inside raises⟩

theorem start_guarded (defaultProvider : String) : Guarded (start defaultProvider) := by
  exact ⟨fun _ => (newborn_untouched "" false 0).calm, nofun⟩

/-- After a run whose steps keep teardowns and `synthesize` calls apart, no step works on a process
beside the caller of the exchange that is under way on it. -/
theorem undisturbed_of_spares {defaultProvider : String} {labels : List (Nat × SupervisorAct)}
    {act : SupervisorAct}
    (run : (system c).Run (fun s label => Spares c s label.1 label.2) (start defaultProvider) labels t)
    (enabled : t.Enabled act) : Undisturbed t act := by
  have preserved : ∀ s label, (Exclusive s ∧ Guarded s) → (system c).enabled s label →
      Spares c s label.1 label.2 →
      Exclusive ((system c).next s label) ∧ Guarded ((system c).next s label) :=
    fun _ _ sound enabled spares => ⟨sound.1.next enabled, sound.2.next sound.1 enabled spares⟩
  have sound := run.invariant preserved ⟨start_exclusive defaultProvider, start_guarded defaultProvider⟩
  exact sound.2.undisturbed enabled

def onlyKokoro : Settings where
  voiceAllowlists := ∅
  voiceLocaleOverrides := ∅
  registry := ["kokoro-onnx"]
  distinct := by decide
  named := by decide
  installed _ := true
  idleTimeoutSeconds := 300
  eagerStartup := true

def awaitsHeader : List (Nat × SupervisorAct) := untimed
  [.ensureReady 1 (some "kokoro-onnx"), .proceed 1, .proceed 1, .created 1, .connected 1,
    .exchange 0 (.answer (.warmup 24000 [⟨"af", "en-us", .female, ""⟩])), .readWarmup 1,
    .connect 2 ⟨"af", 0, "", "Good morning."⟩, .proceed 2, .proceed 2, .proceed 2, .proceed 2,
    .exchange 0 (.begin 2), .exchange 0 (.flushed 2)]

/-- The provider is silent for longer than the idle timeout. -/
def evictedMidway : List (Nat × SupervisorAct) :=
  awaitsHeader ++ [(0, .startIdleLoop 3), (1000, .wake 3), (1000, .proceed 3)]

theorem evictedMidway_disturbs :
    ¬∀ (c : Settings) (defaultProvider : String) (labels : List (Nat × SupervisorAct)) (t : Supervisor)
      (act : SupervisorAct), (system c).Run (fun _ _ => True) (start defaultProvider) labels t →
      t.Enabled act → Undisturbed t act := by
  intro claimed
  have admitted : (system onlyKokoro).Admits (fun _ _ => True) (start "kokoro-onnx") evictedMidway :=
    ⟨⟨rfl, trivial⟩, ⟨⟨_, _, rfl, rfl⟩, trivial⟩, ⟨⟨_, _, rfl, rfl⟩, trivial⟩, ⟨⟨_, _, rfl⟩, trivial⟩,
      ⟨⟨_, _, rfl⟩, trivial⟩, ⟨⟨by decide, rfl, ⟨rfl, nofun⟩, trivial⟩, trivial⟩,
      ⟨⟨_, _, rfl, nofun⟩, trivial⟩, ⟨rfl, trivial⟩, ⟨⟨_, _, rfl, rfl⟩, trivial⟩,
      ⟨⟨_, _, rfl, rfl⟩, trivial⟩, ⟨⟨_, _, rfl, rfl⟩, trivial⟩, ⟨⟨_, _, rfl, rfl⟩, trivial⟩,
      ⟨⟨by decide, rfl, ⟨_, rfl⟩, ⟨_, rfl⟩⟩, trivial⟩, ⟨⟨by decide, rfl, ⟨_, rfl⟩, ⟨_, rfl⟩⟩, trivial⟩,
      ⟨rfl, trivial⟩, ⟨rfl, trivial⟩, ⟨⟨_, _, rfl, rfl⟩, trivial⟩, trivial⟩
  have quiet := claimed onlyKokoro "kokoro-onnx" evictedMidway _ (.teardown 0 .write) admitted.run rfl
  exact nomatch quiet 0 2 rfl none rfl

theorem awaitsHeader_undisturbed :
    Undisturbed ((system onlyKokoro).after (start "kokoro-onnx") awaitsHeader) (.exchange 0 (.park 2)) := by
  have admitted : (system onlyKokoro).Admits (fun s label => Spares onlyKokoro s label.1 label.2)
      (start "kokoro-onnx") awaitsHeader :=
    ⟨⟨rfl, by rintro _ ⟨⟩; nofun, nofun⟩, ⟨⟨_, _, rfl, rfl⟩, by rintro _ ⟨⟩; nofun, nofun⟩,
      ⟨⟨_, _, rfl, rfl⟩, by rintro _ ⟨⟩; nofun, nofun⟩, ⟨⟨_, _, rfl⟩, by rintro _ ⟨⟩; nofun, nofun⟩,
      ⟨⟨_, _, rfl⟩, by rintro _ ⟨⟩; nofun, nofun⟩,
      ⟨⟨by decide, rfl, ⟨rfl, nofun⟩, trivial⟩, nofun, by rintro _ _ ⟨⟩ at_; exact at_⟩,
      ⟨⟨_, _, rfl, nofun⟩, by rintro _ ⟨⟩; nofun, nofun⟩, ⟨rfl, by rintro _ ⟨⟩; nofun, nofun⟩,
      ⟨⟨_, _, rfl, rfl⟩, by rintro _ ⟨⟩; nofun, nofun⟩, ⟨⟨_, _, rfl, rfl⟩, by rintro _ ⟨⟩; nofun, nofun⟩,
      ⟨⟨_, _, rfl, rfl⟩, by rintro _ ⟨⟩; nofun, nofun⟩, ⟨⟨_, _, rfl, rfl⟩, by rintro _ ⟨⟩; nofun, nofun⟩,
      ⟨⟨by decide, rfl, ⟨_, rfl⟩, ⟨_, rfl⟩⟩, nofun, by rintro _ _ ⟨⟩ at_; exact at_⟩,
      ⟨⟨by decide, rfl, ⟨_, rfl⟩, ⟨_, rfl⟩⟩, nofun, by rintro _ _ ⟨⟩ at_; exact at_⟩, trivial⟩
  have enabled : ((system onlyKokoro).after (start "kokoro-onnx") awaitsHeader).Enabled
      (.exchange 0 (.park 2)) := ⟨by decide, rfl, ⟨rfl, rfl⟩, ⟨_, rfl⟩⟩
  exact undisturbed_of_spares admitted.run enabled

end Supervisor

end Daemon

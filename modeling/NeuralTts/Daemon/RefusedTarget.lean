import NeuralTts.Daemon.OneChild
import NeuralTts.Library.History

/-! What `ensure_ready` and `switch` leave of the active provider when their target is unknown or
not installed. Whether a provider is installed is looked up anew by each step that asks. -/

namespace Daemon

open Library

structure Moment where
  now : Nat
  installed : String → Bool

def Settings.at (c : Settings) (moment : Moment) : Settings := { c with installed := moment.installed }

def Op.calls : Op → Bool
  | .ensureReady _ _ | .switch _ => true
  | .enumerate _ _ _ | .evict | .shutdown => false

def Stage.working : Stage → Bool
  | .entered => false
  | _ => true

namespace Supervisor

def installing (c : Settings) : System Supervisor (Moment × SupervisorAct) where
  enabled s label := s.Enabled label.2
  next s label := s.next (c.at label.1) label.1.now label.2

/-- The task has the lifecycle lock and has looked at `_active`. -/
def atWork (s : Supervisor) (i : TaskId) : Bool :=
  match s.tasks i with
  | .inside _ stage => stage.working
  | _ => false

/-- The supervisor as each task found it: as it was when the task was last not at work. -/
def noteFound (found : TaskId → Supervisor) (s : Supervisor) (_ : Moment × SupervisorAct) :
    TaskId → Supervisor :=
  fun i => if s.atWork i then found i else s

/-- `switch`, or the spawn of an `ensure_ready` or a `switch`, raises ProviderUnknown or
ProviderNotInstalled. -/
inductive Refuses (c : Settings) (s : Supervisor) (i : TaskId) : SupervisorAct → Prop
  | switch {newName : String} (invalid : ¬(newName ∈ c.registry ∧ c.installed newName = true)) :
      Refuses c s i (.switch i newName)
  | spawn {op : Op} {name : String} {eager : Bool} (call : op.calls)
      (inside : s.tasks i = .inside op (.spawning name eager))
      (invalid : ¬(name ∈ c.registry ∧ c.installed name = true)) : Refuses c s i (.proceed i)

structure LeavesAlone (before after : Supervisor) : Prop where
  active : after.active = before.active
  state : ∀ p, before.active = some p → (after.procs p).state = (before.procs p).state
  teardown : ∀ p, before.active = some p → (after.procs p).teardown = (before.procs p).teardown
  defaultProvider : after.defaultProvider = before.defaultProvider

/-- `switch` returns, and the provider that it names is active and READY. -/
inductive Switches (s t : Supervisor) : SupervisorAct → Prop
  | intro {i : TaskId} {newName : String} {p : ProcId}
      (inside : s.tasks i = .inside (.switch newName) (.warming p)) (returned : t.tasks i = .done)
      (active : t.active = some p) (provider : (t.procs p).provider = newName)
      (ready : (t.procs p).state = .ready) (switched : t.defaultProvider = newName) :
      Switches s t (.readWarmup i)

structure Atomic (c : Settings) (s : Supervisor) (found : TaskId → Supervisor) (label : Moment × SupervisorAct) :
    Prop where
  refused : ∀ i, Refuses (c.at label.1) s i label.2 →
    LeavesAlone (noteFound found s label i) ((installing c).next s label)
  switched : ((installing c).next s label).defaultProvider ≠ s.defaultProvider →
    Switches s ((installing c).next s label) label.2

/-- Where the spawn of a call checks its target, the target is known and installed, or the call has
found no provider active. -/
def ValidatesFirst (c : Settings) (s : Supervisor) (found : TaskId → Supervisor)
    (label : Moment × SupervisorAct) : Prop :=
  ∀ i op name eager, label.2 = .proceed i → op.calls → s.tasks i = .inside op (.spawning name eager) →
    (name ∈ c.registry ∧ label.1.installed name = true) ∨ (found i).active = none

variable {c : Settings} {s t : Supervisor} {now : Nat} {i : TaskId} {op : Op} {act : SupervisorAct} {p : ProcId}

theorem defaultProvider_beginOp : (s.beginOp i op).defaultProvider = s.defaultProvider := by
  unfold beginOp
  split <;> rfl

theorem defaultProvider_arrive (awaiter : Awaiter) :
    (s.arrive now i p awaiter).defaultProvider = s.defaultProvider := by
  cases awaiter with
  | caller => rfl
  | reloadVoices => rfl
  | connection synth route =>
    simp only [arrive]
    split
    · exact defaultProvider_beginOp
    · rfl
  | generator synth route =>
    simp only [arrive]
    split <;> rfl

theorem defaultProvider_route (synth : SynthesizeRequest) :
    (s.route i synth).defaultProvider = s.defaultProvider := by
  unfold route
  split
  · exact defaultProvider_beginOp
  · rfl

theorem defaultProvider_fail (cancelled : Bool) : (s.fail i op cancelled).defaultProvider = s.defaultProvider := by
  unfold fail
  split <;> rfl

theorem defaultProvider_enter : (s.enter c now i op).defaultProvider = s.defaultProvider := by
  cases op with
  | ensureReady target awaiter =>
    simp only [enter]
    split
    · split
      · exact defaultProvider_arrive awaiter
      · rfl
    · rfl
  | switch newName =>
    simp only [enter]
    split
    · split <;> rfl
    · rfl
  | enumerate todo out asked =>
    cases todo with
    | nil =>
      cases asked with
      | none => rfl
      | some synth => exact defaultProvider_route synth
    | cons name todo =>
      simp only [enter]
      split
      · rfl
      · split
        · split <;> rfl
        · rfl
  | evict =>
    simp only [enter]
    split
    · split <;> rfl
    · rfl
  | shutdown =>
    simp only [enter]
    split <;> rfl

theorem defaultProvider_reaped (sequel : Sequel) (raised : Bool) :
    (s.reaped i op sequel raised).defaultProvider = s.defaultProvider := by
  unfold reaped
  split
  · rfl
  · exact defaultProvider_fail false
  · rfl
  · rfl
  · split <;> rfl

theorem defaultProvider_cancelInside (stage : Stage) :
    (s.cancelInside i op stage).defaultProvider = s.defaultProvider := by
  cases stage <;> rfl

theorem defaultProvider_readWarmup (c : Settings) (now : Nat) (inside : s.tasks i = .inside op (.warming p)) :
    (s.next c now (.readWarmup i)).defaultProvider = s.defaultProvider ∨
      ∃ newName warm, op = .switch newName ∧ (s.procs p).Warms warm ∧
        s.next c now (.readWarmup i) = { (s.setProc p warm).leave i .done with defaultProvider := newName } := by
  by_cases answered : ∃ warm, (s.procs p).Warms warm
  · obtain ⟨warm, read⟩ := answered
    cases read with
    | @ready asked sampleRate voices rest first =>
      simp only [next, inside, first, setProc_setProc, procs_setProc]
      cases op with
      | ensureReady target awaiter => exact .inl (defaultProvider_arrive awaiter)
      | switch newName => exact .inr ⟨newName, _, rfl, .ready first, rfl⟩
      | enumerate todo out asked => cases todo <;> exact .inl rfl
      | evict => exact .inl rfl
      | shutdown => exact .inl rfl
  · simp only [next, inside]
    split
    · rename_i first
      exact absurd ⟨_, .ready first⟩ answered
    · exact .inl rfl

theorem defaultProvider_next (c : Settings) (now : Nat) (enabled : s.Enabled act) :
    (s.next c now act).defaultProvider = s.defaultProvider ∨
      ∃ i newName p warm, act = .readWarmup i ∧ s.tasks i = .inside (.switch newName) (.warming p) ∧
        (s.procs p).Warms warm ∧
        s.next c now act = { (s.setProc p warm).leave i .done with defaultProvider := newName } := by
  cases act with
  | connect i synth =>
    left
    simp only [next]
    split
    · rfl
    · split
      · exact defaultProvider_beginOp
      · exact defaultProvider_route synth
  | ensureReady i name => exact .inl defaultProvider_beginOp
  | reloadVoices i => exact .inl defaultProvider_beginOp
  | enumerateAll i => exact .inl defaultProvider_beginOp
  | switch i newName =>
    left
    simp only [next]
    split
    · exact defaultProvider_beginOp
    · rfl
  | shutdown i => exact .inl defaultProvider_beginOp
  | wake i =>
    left
    simp only [next, wake]
    split
    · split
      · exact defaultProvider_beginOp
      · rfl
    · rfl
  | acquire i =>
    left
    simp only [next]
    split <;> rfl
  | proceed i =>
    left
    simp only [next]
    split
    · exact defaultProvider_enter
    · unfold spawn
      split
      · rfl
      · exact defaultProvider_fail false
    · rfl
  | spawnFails i =>
    left
    simp only [next]
    split
    · exact defaultProvider_fail false
    · rfl
  | readWarmup i =>
    obtain ⟨op, p, inside, -⟩ := enabled
    rcases defaultProvider_readWarmup c now inside with same | ⟨newName, warm, rfl, read, became⟩
    · exact .inl same
    · exact .inr ⟨i, newName, p, warm, rfl, inside, read, became⟩
  | reaped i =>
    left
    simp only [next]
    split
    · split
      · exact defaultProvider_reaped ..
      · rfl
    · rfl
  | killed i =>
    left
    simp only [next]
    split
    · exact defaultProvider_fail _
    · rfl
  | cancel i =>
    left
    simp only [next]
    split
    · rfl
    · exact defaultProvider_cancelInside _
    · rfl
  | created i => left; simp only [next]; split <;> rfl
  | connected i => left; simp only [next]; split <;> rfl
  | parkWarmup i => left; simp only [next]; split <;> rfl
  | failWarmup i => left; simp only [next]; split <;> rfl
  | _ => exact .inl rfl

theorem kept_at (moment : Moment) : Kept (c.at moment) s ↔ Kept c s := by
  have spawn : ∀ op : Op, op.spawn (c.at moment) = op.spawn c := by
    intro op
    cases op with
    | enumerate todo out asked => cases todo <;> rfl
    | _ => rfl
  have spawning : ∀ op stage, s.Spawning (c.at moment) op stage ↔ s.Spawning c op stage := by
    intro op stage
    cases stage with
    | reaping q sequel => cases sequel <;> simp only [Spawning, spawn]
    | _ => simp only [Spawning, spawn]
  constructor
  · intro kept
    exact ⟨kept.exclusive, fun i op stage inside => (spawning op stage).mp (kept.spawns i op stage inside), kept.tended⟩
  · intro kept
    exact ⟨kept.exclusive, fun i op stage inside => (spawning op stage).mpr (kept.spawns i op stage inside), kept.tended⟩

theorem inside_of_atWork (working : s.atWork i) : ∃ op stage, s.tasks i = .inside op stage ∧ stage.working := by
  unfold atWork at working
  split at working
  · exact ⟨_, _, by assumption, working⟩
  · cases working

structure Found (c : Settings) (s : Supervisor) (found : TaskId → Supervisor) : Prop where
  kept : Kept c s
  fits : ∀ i op stage, s.tasks i = .inside op stage → stage.Fits s.active
  remembers : ∀ i, s.atWork i → (found i).defaultProvider = s.defaultProvider

variable {found : TaskId → Supervisor} {label : Moment × SupervisorAct}

theorem start_found (c : Settings) (defaultProvider : String) :
    Found c (start defaultProvider) fun _ => start defaultProvider :=
  ⟨start_kept c defaultProvider, nofun, nofun⟩

theorem Found.remembers_next (sound : Found c s found) (enabled : s.Enabled label.2)
    (working : ((installing c).next s label).atWork i) :
    (noteFound found s label i).defaultProvider = ((installing c).next s label).defaultProvider := by
  unfold noteFound
  rcases defaultProvider_next (c.at label.1) label.1.now enabled with
    same | ⟨j, newName, p, warm, -, within, -, became⟩
  · split
    · rename_i before
      exact (sound.remembers i before).trans same.symm
    · exact same.symm
  · -- The task that switches is done with this step, and nobody else is at work.
    exfalso
    obtain ⟨op, stage, inside, busy⟩ := inside_of_atWork working
    have tasks : ((installing c).next s label).tasks = Function.update s.tasks j .done := congrArg tasks became
    rw [tasks] at inside
    by_cases same : i = j
    · subst same
      rw [Function.update_self] at inside
      cases inside
    · rw [Function.update_of_ne same] at inside
      exact same (sound.kept.exclusive.only within inside)

theorem Found.next (sound : Found c s found) (enabled : s.Enabled label.2) :
    Found c ((installing c).next s label) (noteFound found s label) := by
  have moved : Moves (c.at label.1) s label.1.now label.2 ((installing c).next s label) := moves enabled
  refine ⟨?_, ?_, fun i working => sound.remembers_next enabled working⟩
  · exact (kept_at label.1).mp (((kept_at label.1).mpr sound.kept).next enabled)
  · intro i op stage inside
    exact moved.fits sound.kept.exclusive sound.fits inside

theorem active_fail (cancelled : Bool) : (s.fail i op cancelled).active = s.active := by
  unfold fail
  split <;> rfl

theorem next_of_invalid {name : String} {eager : Bool} (inside : s.tasks i = .inside op (.spawning name eager))
    (invalid : ¬(name ∈ c.registry ∧ c.installed name = true)) :
    s.next c now (.proceed i) = s.fail i op false := by
  simp only [Supervisor.next, inside, spawn, if_neg invalid]

theorem Found.atomic_iff (sound : Found c s found) (enabled : s.Enabled label.2) :
    Atomic c s found label ↔ ValidatesFirst c s found label := by
  obtain ⟨moment, act⟩ := label
  have working : ∀ {i op name eager}, s.tasks i = .inside op (.spawning name eager) →
      noteFound found s (moment, act) i = found i := by
    intro i op name eager inside
    have busy : s.atWork i = true := by
      simp only [atWork, inside]
      rfl
    simp only [noteFound, busy, if_true]
  constructor
  · rintro ⟨refused, -⟩ i op name eager rfl call inside
    by_cases valid : name ∈ c.registry ∧ moment.installed name = true
    · exact .inl valid
    · right
      have alone := refused i (.spawn call inside valid)
      have vacant : s.active = none := sound.fits i op _ inside
      have kept : ((installing c).next s (moment, .proceed i)).active = s.active :=
        (congrArg active (next_of_invalid (c := c.at moment) inside valid)).trans (active_fail false)
      rw [working inside] at alone
      rw [← alone.active, kept, vacant]
  · intro validates
    refine ⟨?_, ?_⟩
    · intro i refuses
      cases refuses with
      | @switch newName invalid =>
        have absent : s.tasks i = .absent := enabled
        have before : noteFound found s (moment, .switch i newName) i = s := by
          simp [noteFound, atWork, absent]
        have after : (installing c).next s (moment, .switch i newName) = s.setTask i .done := if_neg invalid
        rw [before, after]
        exact ⟨rfl, fun _ _ => rfl, fun _ _ => rfl, rfl⟩
      | @spawn op name eager call inside invalid =>
        have unfound : (found i).active = none :=
          (validates i op name eager rfl call inside).resolve_left invalid
        have vacant : s.active = none := sound.fits i op _ inside
        have busy : s.atWork i = true := by
          simp only [atWork, inside]
          rfl
        have after : (installing c).next s (moment, .proceed i) = s.fail i op false :=
          next_of_invalid (c := c.at moment) inside invalid
        rw [working inside, after]
        refine ⟨?_, ?_, ?_, ?_⟩
        · rw [active_fail, vacant, unfound]
        · intro p active
          cases unfound.symm.trans active
        · intro p active
          cases unfound.symm.trans active
        · rw [defaultProvider_fail, sound.remembers i busy]
    · intro changes
      rcases defaultProvider_next (c.at moment) moment.now enabled with
        same | ⟨i, newName, p, warm, rfl, inside, read, became⟩
      · exact absurd same changes
      · have after : (installing c).next s (moment, .readWarmup i) =
            { (s.setProc p warm).leave i .done with defaultProvider := newName } := became
        have warmth : (((s.setProc p warm).leave i .done).procs p) = warm := procs_setProc s p warm
        obtain ⟨provider, -, -, ready⟩ := ProviderProcess.outlives_warms read
        have asked := (sound.kept.spawns i _ _ inside).2
        rw [after]
        refine .intro inside ?_ (sound.kept.tended.current i _ p inside) ?_ ?_ rfl
        · exact Function.update_self ..
        · change (((s.setProc p warm).leave i .done).procs p).provider = newName
          rw [warmth, provider]
          exact (congrArg Prod.fst (Option.some.inj asked)).symm
        · change (((s.setProc p warm).leave i .done).procs p).state = .ready
          rw [warmth, ready]

/-- In every run, each call that is told that its target is unknown or not installed leaves the
active provider alone, and only a `switch` that returns sets the default, exactly when no spawn
checks an invalid target for a call that has found a provider active. -/
theorem atomic_iff_validatesFirst (c : Settings) (defaultProvider : String)
    (labels : List (Moment × SupervisorAct)) :
    ((installing c).recorded noteFound).Admits (fun s label => Atomic c s.1 s.2 label)
        (start defaultProvider, fun _ => start defaultProvider) labels ↔
      ((installing c).recorded noteFound).Admits (fun s label => ValidatesFirst c s.1 s.2 label)
        (start defaultProvider, fun _ => start defaultProvider) labels := by
  have kept : ∀ s label, Found c s.1 s.2 → ((installing c).recorded noteFound).enabled s label →
      Found c (((installing c).recorded noteFound).next s label).1
        (((installing c).recorded noteFound).next s label).2 :=
    fun _ _ sound enabled => sound.next enabled
  exact System.admits_congr kept (fun _ _ sound enabled => sound.atomic_iff enabled)
    (start_found c defaultProvider)

def kokoroInstalled : Moment := ⟨0, fun name => name == "kokoro-onnx"⟩

/-- kokoro-onnx is READY when a request asks for omnivoice, whose venv has been removed. -/
def removedVenv : List (Moment × SupervisorAct) := List.map (kokoroInstalled, ·)
  [.ensureReady 1 (some "kokoro-onnx"), .proceed 1, .proceed 1, .created 1, .connected 1,
    .exchange 0 (.answer (.warmup 24000 [])), .readWarmup 1, .ensureReady 2 (some "omnivoice"), .proceed 2,
    .teardown 0 .write, .exits 0, .teardown 0 (.giveUp false), .teardown 0 .exited, .reaped 2]

theorem removedVenv_unloads :
    ¬∀ (c : Settings) (defaultProvider : String) (labels : List (Moment × SupervisorAct))
      (t : Supervisor × (TaskId → Supervisor)) (label : Moment × SupervisorAct),
      ((installing c).recorded noteFound).Run (fun _ _ => True)
        (start defaultProvider, fun _ => start defaultProvider) labels t →
      t.1.Enabled label.2 → Atomic c t.1 t.2 label := by
  intro claimed
  have admitted : ((installing twoProviders).recorded noteFound).Admits (fun _ _ => True)
      (start "kokoro-onnx", fun _ => start "kokoro-onnx") removedVenv :=
    ⟨⟨rfl, trivial⟩, ⟨⟨_, _, rfl, rfl⟩, trivial⟩, ⟨⟨_, _, rfl, rfl⟩, trivial⟩, ⟨⟨_, _, rfl⟩, trivial⟩,
      ⟨⟨_, _, rfl⟩, trivial⟩, ⟨⟨by decide, rfl, ⟨rfl, nofun⟩, trivial⟩, trivial⟩,
      ⟨⟨_, _, rfl, nofun⟩, trivial⟩, ⟨rfl, trivial⟩, ⟨⟨_, _, rfl, rfl⟩, trivial⟩, ⟨rfl, trivial⟩,
      ⟨⟨by decide, rfl⟩, trivial⟩, ⟨⟨rfl, nofun⟩, trivial⟩, ⟨⟨.inl rfl, rfl⟩, trivial⟩,
      ⟨⟨_, _, _, _, rfl, rfl⟩, trivial⟩, trivial⟩
  have atomic := claimed twoProviders "kokoro-onnx" removedVenv _ (kokoroInstalled, .proceed 2) admitted.run
    ⟨_, _, rfl, rfl⟩
  have alone := (atomic.refused 2 (.spawn rfl rfl (by decide))).active
  cases alone

end Supervisor

end Daemon

import NeuralTts.Daemon.OneChild
import NeuralTts.Daemon.Readiness
import NeuralTts.Library.History

/-! Whether the processes that `ensure_ready` returns were spawned with `--eager-startup`. READY
does not say how a process was spawned, and `switch` leaves it to the configuration. -/

namespace Daemon

open Library

def ProviderProcess.answersWarmup (p : ProviderProcess) : Bool :=
  match p.unread with
  | (_, .warmup _ _) :: _ => true
  | _ => false

theorem ProviderProcess.answersWarmup_of_warms {p warm : ProviderProcess} (read : p.Warms warm) :
    p.answersWarmup := by
  cases read with
  | ready answered => simp only [ProviderProcess.answersWarmup, answered]

namespace Supervisor

def warmedUp (s : Supervisor) : SupervisorAct → Option ProcId
  | .readWarmup i =>
    match s.tasks i with
    | .inside _ (.warming p) => if (s.procs p).answersWarmup then some p else none
    | _ => none
  | _ => none

def noteWarmUp (warm : List ProcId) (s : Supervisor) (label : Nat × SupervisorAct) : List ProcId :=
  (s.warmedUp label.2).toList ++ warm

/-- A `switch` completes the warm-up of a process that it spawned without `--eager-startup`. -/
def SwitchesLazily (s : Supervisor) (act : SupervisorAct) : Prop :=
  ∃ i newName p, act = .readWarmup i ∧ s.tasks i = .inside (.switch newName) (.warming p) ∧
    (s.procs p).eager = false ∧ (s.procs p).answersWarmup

/-- Whatever `ensure_ready` returns next was spawned eagerly and has completed its warm-up. -/
def ReturnsEager (c : Settings) (s : Supervisor) (warm : List ProcId) : Prop :=
  ∀ label i awaiter p proc, (system c).enabled s label → s.Returns i awaiter p label.2 proc →
    proc.eager = true ∧ p ∈ noteWarmUp warm s label

def ReadyEagerly (s : Supervisor) (warm : List ProcId) : Prop :=
  ∀ p, (s.procs p).state = .ready → (s.procs p).eager = true ∧ p ∈ warm

variable {c : Settings} {s t : Supervisor} {now : Nat} {act : SupervisorAct} {i : TaskId} {p : ProcId}
  {op : Op} {warm : List ProcId}

theorem warmedUp_of_warms {read : ProviderProcess} (inside : s.tasks i = .inside op (.warming p))
    (warms : (s.procs p).Warms read) : s.warmedUp (.readWarmup i) = some p := by
  simp only [warmedUp, inside, ProviderProcess.answersWarmup_of_warms warms, if_true]

theorem eager_of_spawn {target name : String} {awaiter : Awaiter} {eager : Bool}
    (spawn : (Op.ensureReady target awaiter).spawn c = some (name, eager)) : eager = true :=
  (congrArg Prod.snd (Option.some.inj spawn)).symm

theorem eager_of_warmed (spawns : SpawnsAsAsked c s) (eagerly : ¬SwitchesLazily s (.readWarmup i))
    {read proc : ProviderProcess} {task : Task} (inside : s.tasks i = .inside op (.warming p))
    (warms : (s.procs p).Warms read) (goes : Warmed (s.setProc p read) now i p op proc task)
    (ready : proc.state = .ready) : (s.procs p).eager = true := by
  have asked := (spawns i op _ inside).2
  cases goes with
  | returns arrival => exact eager_of_spawn asked
  | lists name todo out asked => cases ready
  | switched newName =>
    by_contra lazily
    rw [Bool.not_eq_true] at lazily
    exact eagerly ⟨i, newName, p, rfl, inside, lazily, ProviderProcess.answersWarmup_of_warms warms⟩
  | unasked unwanted =>
    rw [Op.wanted_of_spawn asked] at unwanted
    cases unwanted

theorem ReadyEagerly.next (readyEagerly : ReadyEagerly s warm) (spawns : SpawnsAsAsked c s)
    (eagerly : ¬SwitchesLazily s act) (moves : Moves c s now act t) :
    ReadyEagerly t (noteWarmUp warm s (now, act)) := by
  intro p ready
  have fate := moves.fate p
  generalize t.procs p = proc at fate ready ⊢
  cases fate with
  | kept outlives =>
    obtain ⟨eager, known⟩ := readyEagerly p (outlives.ready ready)
    exact ⟨outlives.eager.trans eager, List.mem_append_right _ known⟩
  | born new inside => cases ready
  | warmed inside read goes =>
    have outlives := goes.outlives
    refine ⟨outlives.eager.trans ((ProviderProcess.outlives_warms read).2.1.trans ?_), ?_⟩
    · exact eager_of_warmed spawns eagerly inside read goes ready
    · simp [noteWarmUp, warmedUp_of_warms inside read]

theorem ReadyEagerly.returnsEager (readyEagerly : ReadyEagerly s warm) (spawns : SpawnsAsAsked c s) :
    ReturnsEager c s warm := by
  rintro ⟨now, act⟩ i awaiter p proc - returns
  cases returns with
  | reused inside active provider ready =>
    obtain ⟨eager, known⟩ := readyEagerly p ready
    exact ⟨eager, List.mem_append_right _ known⟩
  | spawned inside read =>
    refine ⟨(ProviderProcess.outlives_warms read).2.1.trans ?_, ?_⟩
    · exact eager_of_spawn (spawns i _ _ inside).2
    · simp [noteWarmUp, warmedUp_of_warms inside read]

theorem start_readyEagerly (defaultProvider : String) : ReadyEagerly (start defaultProvider) [] := nofun

/-- Where no switch leaves a process that it spawned lazily, `ensure_ready` returns only processes
that were spawned eagerly and have completed their warm-up. -/
theorem returnsEager_of_switches_eager {defaultProvider : String}
    {labels : List (Nat × SupervisorAct)} {t : Supervisor × List ProcId}
    (run : ((system c).recorded noteWarmUp).Run (fun s label => ¬SwitchesLazily s.1 label.2)
      (start defaultProvider, []) labels t) :
    ReturnsEager c t.1 t.2 ∧ SettledWhenUnlocked t.1 := by
  have preserved : ∀ s label, (Kept c s.1 ∧ ReadyEagerly s.1 s.2) →
      ((system c).recorded noteWarmUp).enabled s label → ¬SwitchesLazily s.1 label.2 →
      Kept c (((system c).recorded noteWarmUp).next s label).1 ∧
        ReadyEagerly (((system c).recorded noteWarmUp).next s label).1
          (((system c).recorded noteWarmUp).next s label).2 :=
    fun _ _ sound enabled eagerly =>
      ⟨sound.1.next enabled, sound.2.next sound.1.spawns eagerly (moves enabled)⟩
  obtain ⟨kept, readyEagerly⟩ :=
    run.invariant preserved ⟨start_kept c defaultProvider, start_readyEagerly defaultProvider⟩
  exact ⟨readyEagerly.returnsEager kept.spawns, kept.settledWhenUnlocked⟩

def lazyStartup : Settings := { twoProviders with eagerStartup := false }

/-- A user switches to kokoro-onnx, and then a request asks for the active provider. -/
def switchedLazily : List (Nat × SupervisorAct) := untimed
  [.switch 1 "kokoro-onnx", .proceed 1, .proceed 1, .created 1, .connected 1,
    .exchange 0 (.answer (.warmup 24000 [])), .readWarmup 1, .ensureReady 2 none]

theorem switchedLazily_returned :
    ¬∀ (c : Settings) (defaultProvider : String) (labels : List (Nat × SupervisorAct))
      (t : Supervisor × List ProcId),
      ((system c).recorded noteWarmUp).Run (fun _ _ => True) (start defaultProvider, []) labels t →
        ReturnsEager c t.1 t.2 ∧ SettledWhenUnlocked t.1 := by
  intro claimed
  have admitted : ((system lazyStartup).recorded noteWarmUp).Admits (fun _ _ => True)
      (start "kokoro-onnx", []) switchedLazily :=
    ⟨⟨rfl, trivial⟩, ⟨⟨_, _, rfl, rfl⟩, trivial⟩, ⟨⟨_, _, rfl, rfl⟩, trivial⟩, ⟨⟨_, _, rfl⟩, trivial⟩,
      ⟨⟨_, _, rfl⟩, trivial⟩, ⟨⟨by decide, rfl, ⟨rfl, nofun⟩, trivial⟩, trivial⟩,
      ⟨⟨_, _, rfl, nofun⟩, trivial⟩, ⟨rfl, trivial⟩, trivial⟩
  obtain ⟨eagerly, -⟩ := claimed lazyStartup "kokoro-onnx" switchedLazily _ admitted.run
  have returned := eagerly (0, .proceed 2) 2 .caller 0 _ ⟨_, _, rfl, rfl⟩ (.reused rfl rfl rfl rfl)
  cases returned.1

def switchedEagerly : List (Nat × SupervisorAct) := orderlySwitch ++ untimed
  [.created 2, .connected 2, .exchange 1 (.answer (.warmup 48000 [])), .readWarmup 2]

theorem switchedEagerly_returnsEager :
    ReturnsEager twoProviders
        (((system twoProviders).recorded noteWarmUp).after (start "kokoro-onnx", []) switchedEagerly).1
        (((system twoProviders).recorded noteWarmUp).after (start "kokoro-onnx", []) switchedEagerly).2 ∧
      SettledWhenUnlocked
        (((system twoProviders).recorded noteWarmUp).after (start "kokoro-onnx", []) switchedEagerly).1 := by
  have admitted : ((system twoProviders).recorded noteWarmUp).Admits
      (fun s label => ¬SwitchesLazily s.1 label.2) (start "kokoro-onnx", []) switchedEagerly :=
    ⟨⟨rfl, nofun⟩, ⟨⟨_, _, rfl, rfl⟩, nofun⟩, ⟨⟨_, _, rfl, rfl⟩, nofun⟩, ⟨⟨_, _, rfl⟩, nofun⟩,
      ⟨⟨_, _, rfl⟩, nofun⟩, ⟨⟨by decide, rfl, ⟨rfl, nofun⟩, trivial⟩, nofun⟩,
      ⟨⟨_, _, rfl, nofun⟩, by rintro ⟨_, _, _, ⟨⟩, ⟨⟩, -⟩⟩, ⟨rfl, nofun⟩, ⟨⟨_, _, rfl, rfl⟩, nofun⟩,
      ⟨rfl, nofun⟩, ⟨⟨by decide, rfl⟩, nofun⟩, ⟨⟨rfl, nofun⟩, nofun⟩, ⟨⟨.inl rfl, rfl⟩, nofun⟩,
      ⟨⟨_, _, _, _, rfl, rfl⟩, nofun⟩, ⟨⟨_, _, rfl, rfl⟩, nofun⟩, ⟨⟨_, _, rfl⟩, nofun⟩,
      ⟨⟨_, _, rfl⟩, nofun⟩, ⟨⟨by decide, rfl, ⟨rfl, nofun⟩, trivial⟩, nofun⟩,
      ⟨⟨_, _, rfl, nofun⟩, by rintro ⟨_, _, _, ⟨⟩, ⟨⟩, ⟨⟩, -⟩⟩, trivial⟩
  exact returnsEager_of_switches_eager admitted.run

end Supervisor

end Daemon

import NeuralTts.Daemon.Readiness
import NeuralTts.Daemon.Routing
import NeuralTts.Daemon.Undisturbed
import NeuralTts.Library.History

/-! What becomes of a provider process after a request has seen its connection break. Only
`_drain_if_needed` marks the process, and only for a `ProtocolError`. -/

namespace Daemon

open Library

namespace Supervisor

/-- The process whose connection the exchange of a request finds broken in this step: while it
writes its request, or while it reads the header, the stream or the residue of an earlier stream. -/
def broken (s : Supervisor) : SupervisorAct → Option ProcId
  | .exchange p (.lost i _) =>
    match (s.procs p).phase i with
    | .header | .streaming | .draining _ => some p
    | _ => none
  | .exchange p (.unflushed i) =>
    match (s.procs p).phase i with
    | .flushing (.synthesize _) => some p
    | _ => none
  | _ => none

/-- The task that looks at `_active`, under the lifecycle lock, for its `ensure_ready`. -/
def begins (s : Supervisor) : SupervisorAct → Option TaskId
  | .proceed i =>
    match s.tasks i with
    | .inside (.ensureReady _ _) .entered => some i
    | _ => none
  | _ => none

/-- The processes that a request has found broken, and how many processes there were when a
task last looked at `_active` for its `ensure_ready`. -/
structure Outage where
  seen : List ProcId
  before : TaskId → ProcId

def noteOutage (r : Outage) (s : Supervisor) (label : Nat × SupervisorAct) : Outage where
  seen := (s.broken label.2).toList ++ r.seen
  before :=
    match s.begins label.2 with
    | some i => Function.update r.before i s.nextProc
    | none => r.before

/-- A request finds a READY process broken otherwise than by a `ProtocolError` in the drain. -/
def BreaksUnmarked (s : Supervisor) (act : SupervisorAct) : Prop :=
  ∃ p, s.broken act = some p ∧ (s.procs p).state = .ready ∧
    ∀ i ex, act = .exchange p (.lost i .protocol) → (s.procs p).phase i ≠ .draining ex

/-- `ensure_ready` does not return a process that a request has found broken. Where it finds one in
`_active` it reaps it, and what it returns after that was spawned, and warmed up, since. -/
structure Recovers (c : Settings) (s : Supervisor) (r : Outage) : Prop where
  avoids : ∀ label i awaiter p proc, (system c).enabled s label →
    s.Returns i awaiter p label.2 proc → p ∉ r.seen
  reaps : ∀ now i target awaiter p, s.tasks i = .inside (.ensureReady target awaiter) .entered →
    s.active = some p → p ∈ r.seen → p < s.nextProc ∧
      s.next c now (.proceed i) = s.startReap i (.ensureReady target awaiter) p (.spawn target true)
  renews : ∀ i target awaiter p, s.tasks i = .inside (.ensureReady target awaiter) (.warming p) →
    r.before i ≤ p ∧ (s.procs p).provider = target

structure Marked (s : Supervisor) (r : Outage) : Prop where
  seen : ∀ p ∈ r.seen, s.Grown p ∧ (s.procs p).state ≠ .ready
  before : ∀ i, r.before i ≤ s.nextProc
  fresh : ∀ i op stage p, s.tasks i = .inside op stage → stage.raises = some p → r.before i ≤ p

variable {c : Settings} {s t : Supervisor} {now : Nat} {act : SupervisorAct} {i : TaskId} {p : ProcId}
  {r : Outage}

theorem failed_of_drain {proc : ProviderProcess} {ex : Exchange} (draining : proc.phase i = .draining ex) :
    (proc.next now (.lost i .protocol)).state = .failed := by
  have unparked : (proc.unpark i).phase i = .draining ex := draining
  simp only [ProviderProcess.next, ProviderProcess.raiseRead, unparked, ProviderProcess.abandonDrain]
  rcases ((ProviderProcess.SameMake.refl _).write (i := i) ex).state with kept | failed
  · exact kept
  · exact failed

inductive Finds (s : Supervisor) (i : TaskId) (p : ProcId) : ExchangeAct → Prop
  | read (error : ReadError) : Finds s i p (.lost i error)
  | write : Finds s i p (.unflushed i)

theorem finds_of_broken (broken : s.broken act = some p) :
    ∃ i found, act = .exchange p found ∧ s.Finds i p found := by
  unfold Supervisor.broken at broken
  split at broken
  · rename_i q i error
    split at broken <;> cases broken <;> exact ⟨i, _, rfl, .read error⟩
  · rename_i q i
    split at broken <;> cases broken
    exact ⟨i, _, rfl, .write⟩
  · cases broken

theorem exchanging_of_broken (enabled : s.Enabled act) (broken : s.broken act = some p) :
    ∃ i route, s.tasks i = .exchanging p route := by
  obtain ⟨i, found, rfl, finds⟩ := finds_of_broken broken
  cases finds with
  | read error => exact ⟨i, enabled.2.2.2⟩
  | write => exact ⟨i, enabled.2.2.2⟩

theorem marked_of_broken (broken : s.broken act = some p) (marks : ¬BreaksUnmarked s act) :
    ((s.next c now act).procs p).state ≠ .ready := by
  obtain ⟨i, found, rfl, finds⟩ := finds_of_broken broken
  change ((s.setProc p ((s.procs p).next now found)).procs p).state ≠ .ready
  rw [procs_setProc]
  intro ready
  have before : (s.procs p).state = .ready := (ProviderProcess.sameMake_next _ _ _).outlives.ready ready
  refine marks ⟨p, broken, before, ?_⟩
  rintro j ex ⟨⟩ draining
  rw [failed_of_drain draining] at ready
  cases ready

theorem Marked.seen_next (marked : Marked s r) (engaged : Engaged s) (enabled : s.Enabled act)
    (marks : ¬BreaksUnmarked s act) (seen : p ∈ (noteOutage r s (now, act)).seen) :
    (s.next c now act).Grown p ∧ ((s.next c now act).procs p).state ≠ .ready := by
  have moves : Moves c s now act (s.next c now act) := moves enabled
  rcases List.mem_append.mp seen with new | old
  · obtain ⟨i, route, at_⟩ := exchanging_of_broken enabled (Option.mem_toList.mp new)
    exact ⟨(engaged i p route at_).next moves, marked_of_broken (Option.mem_toList.mp new) marks⟩
  · obtain ⟨grown, known⟩ := marked.seen p old
    refine ⟨grown.next moves, ?_⟩
    have fate := moves.fate p
    generalize (s.next c now act).procs p = proc at fate ⊢
    cases fate with
    | kept outlives => exact fun ready => known (outlives.ready ready)
    | born new inside => exact absurd (new ▸ grown.1) (Nat.lt_irrefl _)
    | warmed inside read goes => exact absurd rfl (grown.2 _ _ _ inside)

theorem entered_of_begins (begins : s.begins act = some i) : ∃ op, s.tasks i = .inside op .entered := by
  unfold Supervisor.begins at begins
  split at begins
  · split at begins
    · rename_i inside
      cases begins
      exact ⟨_, inside⟩
    · cases begins
  · cases begins

theorem before_noteOutage (r : Outage) (s : Supervisor) (label : Nat × SupervisorAct) (i : TaskId) :
    (noteOutage r s label).before i = r.before i ∨
      (noteOutage r s label).before i = s.nextProc ∧ ∃ op, s.tasks i = .inside op .entered := by
  cases begun : s.begins label.2 with
  | none => simp [noteOutage, begun]
  | some j =>
    by_cases same : i = j
    · subst same
      exact .inr ⟨by simp [noteOutage, begun], entered_of_begins begun⟩
    · simp [noteOutage, begun, same]

theorem Marked.next (marked : Marked s r) (engaged : Engaged s) (enabled : s.Enabled act)
    (marks : ¬BreaksUnmarked s act) : Marked (s.next c now act) (noteOutage r s (now, act)) := by
  have moves : Moves c s now act (s.next c now act) := moves enabled
  have bound : ∀ i, (noteOutage r s (now, act)).before i ≤ s.nextProc := by
    intro i
    rcases before_noteOutage r s (now, act) i with same | ⟨new, -⟩
    · rw [same]
      exact marked.before i
    · rw [new]
  refine ⟨fun p seen => marked.seen_next engaged enabled marks seen, ?_, ?_⟩
  · exact fun i => Nat.le_trans (bound i) moves.frame.nextProc_le
  · intro i op stage p inside raises
    rcases moves.raises inside raises with ⟨earlier, before, within, also⟩ | ⟨new, -⟩
    · rcases before_noteOutage r s (now, act) i with same | ⟨-, other, entered⟩
      · rw [same]
        exact marked.fresh i earlier before p within also
      · cases within.symm.trans entered
        cases also
    · rw [new]
      exact bound i

theorem Marked.recovers (marked : Marked s r) (kept : Kept c s) : Recovers c s r := by
  refine ⟨?_, ?_, ?_⟩
  · rintro ⟨now, act⟩ i awaiter p proc - returns seen
    obtain ⟨grown, known⟩ := marked.seen p seen
    cases returns with
    | reused inside active provider ready => exact known ready
    | spawned inside read => exact grown.2 i _ _ inside rfl
  · intro now i target awaiter p inside active seen
    obtain ⟨grown, known⟩ := marked.seen p seen
    refine ⟨grown.1, ?_⟩
    have unready : ¬((s.procs p).provider = target ∧ (s.procs p).state = .ready) := fun both => known both.2
    simp only [Supervisor.next, inside, Supervisor.enter, active, if_neg unready]
  · intro i target awaiter p inside
    refine ⟨marked.fresh i _ _ p inside rfl, ?_⟩
    exact (congrArg Prod.fst (Option.some.inj (kept.spawns i _ _ inside).2)).symm

def noOutage : Outage := ⟨[], fun _ => 0⟩

theorem start_marked (defaultProvider : String) : Marked (start defaultProvider) noOutage :=
  ⟨nofun, fun _ => Nat.le_refl _, nofun⟩

/-- Where every break that a request finds is marked, `ensure_ready` recovers from it. -/
theorem recovers_of_breaks_marked {defaultProvider : String} {labels : List (Nat × SupervisorAct)}
    {t : Supervisor × Outage}
    (run : ((system c).recorded noteOutage).Run (fun s label => ¬BreaksUnmarked s.1 label.2)
      (start defaultProvider, noOutage) labels t) : Recovers c t.1 t.2 := by
  have preserved : ∀ s label, (Kept c s.1 ∧ Engaged s.1 ∧ Marked s.1 s.2) →
      ((system c).recorded noteOutage).enabled s label → ¬BreaksUnmarked s.1 label.2 →
      Kept c (((system c).recorded noteOutage).next s label).1 ∧
        Engaged (((system c).recorded noteOutage).next s label).1 ∧
        Marked (((system c).recorded noteOutage).next s label).1
          (((system c).recorded noteOutage).next s label).2 :=
    fun _ _ sound enabled marks =>
      ⟨sound.1.next enabled, sound.2.1.next sound.1 enabled,
        sound.2.2.next sound.2.1 enabled marks⟩
  obtain ⟨kept, -, marked⟩ :=
    run.invariant preserved ⟨start_kept c defaultProvider, nofun, start_marked defaultProvider⟩
  exact marked.recovers kept

def soleProvider : Settings := { onlyKokoro with idleTimeoutSeconds := 600, eagerStartup := false }

def soleVoice : List PbVoice := [⟨"af_heart", "en-us", .female, ""⟩]

def firstRequest : List SupervisorAct :=
  .connect 1 ⟨"af_heart", 0, "", "Good morning."⟩ :: enumeration 1 0 soleVoice ++
    [.proceed 1, .proceed 1, .proceed 1, .created 1, .connected 1,
      .exchange 1 (.answer (.warmup 24000 soleVoice)), .readWarmup 1, .proceed 1,
      .exchange 1 (.begin 1), .exchange 1 (.flushed 1)]

/-- The process dies before it has answered, and then another task asks for the provider. -/
def diesBeforeHeader : List (Nat × SupervisorAct) := untimed
  (firstRequest ++ [.exits 1, .exchange 1 (.lost 1 .protocol), .ensureReady 2 (some "kokoro-onnx")])

theorem diesBeforeHeader_returned :
    ¬∀ (c : Settings) (defaultProvider : String) (labels : List (Nat × SupervisorAct))
      (t : Supervisor × Outage),
      ((system c).recorded noteOutage).Run (fun _ _ => True) (start defaultProvider, noOutage) labels t →
        Recovers c t.1 t.2 := by
  intro claimed
  have admitted : ((system soleProvider).recorded noteOutage).Admits (fun _ _ => True)
      (start "kokoro-onnx", noOutage) diesBeforeHeader :=
    ⟨⟨rfl, trivial⟩, ⟨⟨_, _, rfl, rfl⟩, trivial⟩, ⟨⟨_, _, rfl, rfl⟩, trivial⟩, ⟨⟨_, _, rfl⟩, trivial⟩,
      ⟨⟨_, _, rfl⟩, trivial⟩, ⟨⟨by decide, rfl, ⟨rfl, nofun⟩, trivial⟩, trivial⟩,
      ⟨⟨_, _, rfl, nofun⟩, trivial⟩, ⟨rfl, trivial⟩, ⟨⟨rfl, nofun⟩, trivial⟩, ⟨⟨by decide, rfl⟩, trivial⟩,
      ⟨⟨.inl rfl, rfl⟩, trivial⟩, ⟨⟨_, _, _, _, rfl, rfl⟩, trivial⟩, ⟨⟨_, _, rfl, rfl⟩, trivial⟩,
      ⟨⟨_, _, rfl, rfl⟩, trivial⟩, ⟨⟨_, _, rfl, rfl⟩, trivial⟩, ⟨⟨_, _, rfl⟩, trivial⟩,
      ⟨⟨_, _, rfl⟩, trivial⟩, ⟨⟨by decide, rfl, ⟨rfl, nofun⟩, trivial⟩, trivial⟩,
      ⟨⟨_, _, rfl, nofun⟩, trivial⟩, ⟨⟨_, _, rfl, rfl⟩, trivial⟩,
      ⟨⟨by decide, rfl, ⟨_, rfl⟩, ⟨_, rfl⟩⟩, trivial⟩, ⟨⟨by decide, rfl, ⟨_, rfl⟩, ⟨_, rfl⟩⟩, trivial⟩,
      ⟨⟨by decide, rfl⟩, trivial⟩, ⟨⟨by decide, rfl, rfl, ⟨_, rfl⟩⟩, trivial⟩, ⟨rfl, trivial⟩, trivial⟩
  have recovers := claimed soleProvider "kokoro-onnx" diesBeforeHeader _ admitted.run
  exact recovers.avoids (0, .proceed 2) 2 .caller 1 _ ⟨_, _, rfl, rfl⟩ (.reused rfl rfl rfl rfl) (.head _)

/-- Connection 1 goes away, and connection 2 finds the process dead when it drains the residue. -/
def diesBeforeDrain : List (Nat × SupervisorAct) := untimed
  (firstRequest ++ [.exchange 1 (.cancel 1 false), .connect 2 ⟨"af_heart", 0, "", "Good evening."⟩,
    .proceed 2, .proceed 2, .exchange 1 (.begin 2), .exits 1, .exchange 1 (.lost 2 .protocol),
    .exchange 1 (.unflushed 2), .ensureReady 3 (some "kokoro-onnx")])

theorem diesBeforeDrain_recovers :
    Recovers soleProvider
      (((system soleProvider).recorded noteOutage).after (start "kokoro-onnx", noOutage)
        diesBeforeDrain).1
      (((system soleProvider).recorded noteOutage).after (start "kokoro-onnx", noOutage)
        diesBeforeDrain).2 := by
  have admitted : ((system soleProvider).recorded noteOutage).Admits
      (fun s label => ¬BreaksUnmarked s.1 label.2) (start "kokoro-onnx", noOutage) diesBeforeDrain :=
    ⟨⟨rfl, nofun⟩, ⟨⟨_, _, rfl, rfl⟩, nofun⟩, ⟨⟨_, _, rfl, rfl⟩, nofun⟩, ⟨⟨_, _, rfl⟩, nofun⟩,
      ⟨⟨_, _, rfl⟩, nofun⟩, ⟨⟨by decide, rfl, ⟨rfl, nofun⟩, trivial⟩, nofun⟩,
      ⟨⟨_, _, rfl, nofun⟩, nofun⟩, ⟨rfl, nofun⟩, ⟨⟨rfl, nofun⟩, nofun⟩, ⟨⟨by decide, rfl⟩, nofun⟩,
      ⟨⟨.inl rfl, rfl⟩, nofun⟩, ⟨⟨_, _, _, _, rfl, rfl⟩, nofun⟩, ⟨⟨_, _, rfl, rfl⟩, nofun⟩,
      ⟨⟨_, _, rfl, rfl⟩, nofun⟩, ⟨⟨_, _, rfl, rfl⟩, nofun⟩, ⟨⟨_, _, rfl⟩, nofun⟩,
      ⟨⟨_, _, rfl⟩, nofun⟩, ⟨⟨by decide, rfl, ⟨rfl, nofun⟩, trivial⟩, nofun⟩,
      ⟨⟨_, _, rfl, nofun⟩, nofun⟩, ⟨⟨_, _, rfl, rfl⟩, nofun⟩,
      ⟨⟨by decide, rfl, ⟨_, rfl⟩, ⟨_, rfl⟩⟩, nofun⟩, ⟨⟨by decide, rfl, ⟨_, rfl⟩, ⟨_, rfl⟩⟩, nofun⟩,
      ⟨⟨by decide, rfl, ⟨rfl, nofun⟩, ⟨_, rfl⟩⟩, nofun⟩, ⟨rfl, nofun⟩, ⟨⟨_, _, rfl, rfl⟩, nofun⟩,
      ⟨⟨_, _, rfl, rfl⟩, nofun⟩, ⟨⟨by decide, rfl, ⟨_, rfl⟩, ⟨_, rfl⟩⟩, nofun⟩,
      ⟨⟨by decide, rfl⟩, nofun⟩,
      ⟨⟨by decide, rfl, rfl, ⟨_, rfl⟩⟩, by rintro ⟨_, ⟨⟩, -, unmarked⟩; exact unmarked 2 _ rfl rfl⟩,
      ⟨⟨by decide, rfl, ⟨_, rfl⟩, ⟨_, rfl⟩⟩, by rintro ⟨_, ⟨⟩, ⟨⟩, -⟩⟩, ⟨rfl, nofun⟩, trivial⟩
  exact recovers_of_breaks_marked admitted.run

end Supervisor

end Daemon

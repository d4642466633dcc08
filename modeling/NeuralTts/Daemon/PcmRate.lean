import NeuralTts.Daemon.Outage

/-! The rate of the PCM that a connection resamples. The proxy takes the rate that its process
announced at its warm-up; the header of the stream, which names the rate of the PCM that follows,
is read by `synthesize` and not looked at. -/

namespace Daemon

open Library

def Awaiter.streams : Awaiter → Bool
  | .generator _ _ => true
  | .caller | .reloadVoices | .connection _ _ => false

namespace Supervisor

/-- What `ensure_ready` returns in this step, to which task, and what the process is then. -/
def returned (s : Supervisor) : SupervisorAct → Option (TaskId × Awaiter × ProcId × ProviderProcess)
  | .proceed i =>
    match s.tasks i, s.active with
    | .inside (.ensureReady target awaiter) .entered, some p =>
      if (s.procs p).provider = target ∧ (s.procs p).state = .ready then some (i, awaiter, p, s.procs p)
      else none
    | _, _ => none
  | .readWarmup i =>
    match s.tasks i with
    | .inside (.ensureReady _ awaiter) (.warming p) =>
      match (s.procs p).unread with
      | (_, .warmup sampleRate voices) :: _ =>
        some (i, awaiter, p, ((s.procs p).leaveReader .warmup).pop.warmedUp sampleRate voices)
      | _ => none
    | _ => none
  | _ => none

/-- The header that the stream of a connection begins with: its task, its process and its rate. -/
def headerRead (s : Supervisor) : SupervisorAct → Option (TaskId × ProcId × Int)
  | .exchange p (.read i) =>
    match s.tasks i, (s.procs p).phase i, (s.procs p).unread with
    | .exchanging _ (some _), .header, (_, .synthesizeHeader sampleRate) :: _ => some (i, p, sampleRate)
    | _, _, _ => none
  | .exchange p (.garble i (.synthesizeHeader sampleRate)) =>
    match s.tasks i, (s.procs p).phase i with
    | .exchanging _ (some _), .header => some (i, p, sampleRate)
    | _, _ => none
  | _ => none

/-- For each connection the process that it obtained, with the `in_rate` of its `Resampler`, and the
rate in the header of its stream. -/
structure Rates where
  input : TaskId → Option (ProcId × Int)
  header : TaskId → Option Int

/-- `Resampler(in_rate=proc.sample_rate, …)` is built when the voice has been found on the process. -/
def noteRates (r : Rates) (s : Supervisor) (label : Nat × SupervisorAct) : Rates where
  input :=
    match s.returned label.2 with
    | some (i, .connection synth _, p, proc) =>
      if s.voiceIndex.localIdFor synth.voice ∈ proc.voices.map Voice.id then
        Function.update r.input i (some (p, proc.sampleRate))
      else r.input
    | _ => r.input
  header :=
    match s.headerRead label.2 with
    | some (i, _, sampleRate) => Function.update r.header i (some sampleRate)
    | none => r.header

/-- Every `Resampler` has the rate that the header of its stream names. -/
def ResamplesAtHeaderRate (r : Rates) : Prop :=
  ∀ i p inRate sampleRate, r.input i = some (p, inRate) → r.header i = some sampleRate → inRate = sampleRate

/-- A header carries the rate that its process announced, and a process that `synthesize` gets in
place of the one that its connection obtained announces the same rate as that one. -/
structure AnnouncesTruly (s : Supervisor) (r : Rates) (act : SupervisorAct) : Prop where
  header : ∀ i p sampleRate, s.headerRead act = some (i, p, sampleRate) → sampleRate = (s.procs p).sampleRate
  renewed : ∀ i synth route p proc q inRate, s.Returns i (.generator synth route) p act proc →
    r.input i = some (q, inRate) → p ≠ q → proc.sampleRate = inRate

variable {c : Settings} {s t : Supervisor} {now : Nat} {act : SupervisorAct} {i : TaskId} {p : ProcId}
  {r : Rates} {awaiter : Awaiter} {proc : ProviderProcess}

theorem returned_of_returns (returns : s.Returns i awaiter p act proc) :
    s.returned act = some (i, awaiter, p, proc) := by
  cases returns with
  | reused inside active provider ready =>
    simp only [returned, inside, active, provider, ready, and_self, if_true]
  | spawned inside read =>
    cases read with
    | ready answered => simp only [returned, inside, answered]

theorem returns_of_returned (returned : s.returned act = some (i, awaiter, p, proc)) :
    s.Returns i awaiter p act proc := by
  unfold Supervisor.returned at returned
  split at returned
  · split at returned
    · rename_i inside active
      split at returned
      · rename_i served
        cases returned
        exact .reused inside active served.1 served.2
      · cases returned
    · cases returned
  · split at returned
    · rename_i inside
      split at returned
      · rename_i answered
        cases returned
        exact .spawned inside (.ready answered)
      · cases returned
    · cases returned
  · cases returned

theorem truly_of_quiet (unread : s.headerRead act = none)
    (unasked : (s.returned act).all fun result => !result.2.1.streams) : AnnouncesTruly s r act := by
  refine ⟨?_, ?_⟩
  · intro i p sampleRate read
    rw [unread] at read
    cases read
  · intro i synth route p proc q inRate returns
    rw [returned_of_returns returns] at unasked
    cases unasked

theorem input_noteRates (r : Rates) (s : Supervisor) (now : Nat) (act : SupervisorAct) (i : TaskId) :
    (noteRates r s (now, act)).input i = r.input i ∨
      ∃ synth route p proc, s.Returns i (.connection synth route) p act proc ∧
        (noteRates r s (now, act)).input i = some (p, proc.sampleRate) := by
  cases at_ : s.returned act with
  | none => exact .inl (by simp [noteRates, at_])
  | some result =>
    obtain ⟨j, awaiter, p, proc⟩ := result
    cases awaiter with
    | connection synth route =>
      by_cases listed : s.voiceIndex.localIdFor synth.voice ∈ proc.voices.map Voice.id
      · by_cases same : i = j
        · subst same
          refine .inr ⟨synth, route, p, proc, returns_of_returned at_, ?_⟩
          simp only [noteRates, at_, if_pos listed, Function.update_self]
        · exact .inl (by simp only [noteRates, at_, if_pos listed, Function.update_of_ne same])
      · exact .inl (by simp only [noteRates, at_, if_neg listed])
    | _ => exact .inl (by simp only [noteRates, at_])

theorem input_of_returns {synth : SynthesizeRequest} {route : Route}
    (returns : s.Returns i (.connection synth route) p act proc)
    (listed : s.voiceIndex.localIdFor synth.voice ∈ proc.voices.map Voice.id) :
    (noteRates r s (now, act)).input i = some (p, proc.sampleRate) := by
  simp only [noteRates, returned_of_returns returns, if_pos listed, Function.update_self]

theorem header_noteRates (r : Rates) (s : Supervisor) (now : Nat) (act : SupervisorAct) (i : TaskId) :
    (noteRates r s (now, act)).header i = r.header i ∨
      ∃ p sampleRate, s.headerRead act = some (i, p, sampleRate) ∧
        (noteRates r s (now, act)).header i = some sampleRate := by
  cases at_ : s.headerRead act with
  | none => exact .inl (by simp only [noteRates, at_])
  | some read =>
    obtain ⟨j, p, sampleRate⟩ := read
    by_cases same : i = j
    · subst same
      exact .inr ⟨p, sampleRate, rfl, by simp only [noteRates, at_, Function.update_self]⟩
    · exact .inl (by simp only [noteRates, at_, Function.update_of_ne same])

theorem exchanging_of_headerRead {sampleRate : Int} (enabled : s.Enabled act)
    (read : s.headerRead act = some (i, p, sampleRate)) :
    ∃ route, s.tasks i = .exchanging p (some route) := by
  unfold Supervisor.headerRead at read
  split at read
  · rename_i q j
    split at read
    · rename_i at_ phase unread
      cases read
      obtain ⟨route, busy⟩ := enabled.2.2.2
      cases at_.symm.trans busy
      exact ⟨_, at_⟩
    · cases read
  · rename_i q j rate
    split at read
    · rename_i at_ phase
      cases read
      obtain ⟨route, busy⟩ := enabled.2.2.2
      cases at_.symm.trans busy
      exact ⟨_, at_⟩
    · cases read
  · cases read

theorem Moves.sampleRate (moves : Moves c s now act t) (grown : s.Grown p) :
    (t.procs p).sampleRate = (s.procs p).sampleRate := by
  have fate := moves.fate p
  generalize t.procs p = proc at fate ⊢
  cases fate with
  | kept outlives => exact outlives.sampleRate
  | born new inside => exact absurd (new ▸ grown.1) (Nat.lt_irrefl _)
  | warmed inside read goes => exact absurd rfl (grown.2 _ _ _ inside)

theorem Returns.sampleRate (returns : s.Returns i awaiter p act proc) (kept : Kept c s)
    (moves : Moves c s now act (s.next c now act)) :
    ((s.next c now act).procs p).sampleRate = proc.sampleRate := by
  have born := returns.born kept
  cases returns with
  | reused inside active provider ready =>
    have fate := moves.fate p
    generalize (s.next c now (.proceed i)).procs p = proc at fate ⊢
    cases fate with
    | kept outlives => exact outlives.sampleRate
    | born new within => exact absurd (new ▸ born) (Nat.lt_irrefl _)
  | spawned inside read =>
    obtain ⟨proc, task, goes, becomes⟩ := warmed_next c now inside read
    rw [becomes.procs, procs_setProc]
    exact goes.outlives.sampleRate

structure Tuned (s : Supervisor) (r : Rates) : Prop where
  input : ∀ i p inRate, r.input i = some (p, inRate) → s.Grown p ∧ (s.procs p).sampleRate = inRate
  asked : ∀ i target synth route, (s.tasks i).pursues = some (.ensureReady target (.generator synth route)) →
    ∃ p inRate, r.input i = some (p, inRate)
  exchanging : ∀ i p route, s.tasks i = .exchanging p (some route) →
    ∃ q, r.input i = some (q, (s.procs p).sampleRate)
  header : ∀ i sampleRate, r.header i = some sampleRate →
    ∃ p route q, s.tasks i = .exchanging p (some route) ∧ r.input i = some (q, sampleRate)

theorem Tuned.resamples (tuned : Tuned s r) : ResamplesAtHeaderRate r := by
  intro i p inRate sampleRate input header
  obtain ⟨q, route, other, -, also⟩ := tuned.header i sampleRate header
  cases input.symm.trans also
  rfl

theorem Tuned.input_next (tuned : Tuned s r) (kept : Kept c s) (enabled : s.Enabled act) {inRate : Int}
    (input : (noteRates r s (now, act)).input i = some (p, inRate)) :
    (s.next c now act).Grown p ∧ ((s.next c now act).procs p).sampleRate = inRate := by
  have moves : Moves c s now act (s.next c now act) := moves enabled
  rcases input_noteRates r s now act i with same | ⟨synth, route, q, proc, returns, new⟩
  · obtain ⟨grown, rate⟩ := tuned.input i p inRate (same.symm.trans input)
    exact ⟨grown.next moves, (moves.sampleRate grown).trans rate⟩
  · cases new.symm.trans input
    exact ⟨returns.grown kept moves, returns.sampleRate kept moves⟩

theorem input_kept (outside : ∀ target synth route stage,
    s.tasks i ≠ .inside (.ensureReady target (.connection synth route)) stage) :
    (noteRates r s (now, act)).input i = r.input i := by
  rcases input_noteRates r s now act i with same | ⟨synth, route, q, proc, returns, -⟩
  · exact same
  · obtain ⟨target, stage, inside⟩ := returns.inside
    exact absurd inside (outside target synth route stage)

theorem Tuned.asked_next (tuned : Tuned s r) (moves : Moves c s now act t) {target : String}
    {synth : SynthesizeRequest} {route : Route}
    (pursues : (t.tasks i).pursues = some (.ensureReady target (.generator synth route))) :
    ∃ p inRate, (noteRates r s (now, act)).input i = some (p, inRate) := by
  rcases moves.pursues pursues with before | takes
  · rw [input_kept]
    · exact tuned.asked i target synth route before
    · intro other asked route stage inside
      rw [inside] at before
      cases before
  · cases takes with
    | asked asked => cases asked
    | streams returns listed => exact ⟨_, _, input_of_returns returns listed⟩

theorem Tuned.exchanging_next (tuned : Tuned s r) (kept : Kept c s) (engaged : Engaged s)
    (enabled : s.Enabled act) (truly : AnnouncesTruly s r act) {route : Route}
    (at_ : (s.next c now act).tasks i = .exchanging p (some route)) :
    ∃ q, (noteRates r s (now, act)).input i = some (q, ((s.next c now act).procs p).sampleRate) := by
  have moves : Moves c s now act (s.next c now act) := moves enabled
  rcases moves.exchanging at_ with before | ⟨awaiter, proc, returns, joins⟩
  · rw [input_kept (by rw [before]; simp), moves.sampleRate (engaged i p _ before)]
    exact tuned.exchanging i p route before
  · obtain ⟨target, stage, inside⟩ := returns.inside
    cases joins with
    | synthesizes synth =>
      obtain ⟨q, inRate, input⟩ := tuned.asked i target synth route (by rw [inside]; rfl)
      have same : proc.sampleRate = inRate := by
        by_cases other : p = q
        · -- The process that the connection obtained: it cannot be the one that is warmed up just now.
          subst other
          obtain ⟨grown, rate⟩ := tuned.input i p inRate input
          cases returns with
          | reused => exact rate
          | spawned within => exact absurd rfl (grown.2 _ _ _ within)
        · exact truly.renewed i synth route p proc q inRate returns input other
      refine ⟨q, ?_⟩
      rw [returns.sampleRate kept moves, same, input_kept (by rw [inside]; simp), input]

theorem Tuned.header_next (tuned : Tuned s r) (enabled : s.Enabled act) (truly : AnnouncesTruly s r act)
    {sampleRate : Int} (header : (noteRates r s (now, act)).header i = some sampleRate) :
    ∃ p route q, (s.next c now act).tasks i = .exchanging p (some route) ∧
      (noteRates r s (now, act)).input i = some (q, sampleRate) := by
  have moves : Moves c s now act (s.next c now act) := moves enabled
  rcases header_noteRates r s now act i with same | ⟨p, rate, read, new⟩
  · obtain ⟨p, route, q, at_, input⟩ := tuned.header i sampleRate (same.symm.trans header)
    exact ⟨p, route, q, moves.frame.exchanging _ _ _ at_, by rw [input_kept (by rw [at_]; simp), input]⟩
  · cases new.symm.trans header
    obtain ⟨route, at_⟩ := exchanging_of_headerRead enabled read
    obtain ⟨q, input⟩ := tuned.exchanging i p route at_
    refine ⟨p, route, q, moves.frame.exchanging _ _ _ at_, ?_⟩
    rw [input_kept (by rw [at_]; simp), input, truly.header i p _ read]

theorem Tuned.next (tuned : Tuned s r) (kept : Kept c s) (engaged : Engaged s) (enabled : s.Enabled act)
    (truly : AnnouncesTruly s r act) : Tuned (s.next c now act) (noteRates r s (now, act)) where
  input _ _ _ input := tuned.input_next kept enabled input
  asked _ _ _ _ pursues := tuned.asked_next (moves enabled) pursues
  exchanging _ _ _ at_ := tuned.exchanging_next kept engaged enabled truly at_
  header _ _ header := tuned.header_next enabled truly header

def noRates : Rates := ⟨fun _ => none, fun _ => none⟩

theorem start_tuned (defaultProvider : String) : Tuned (start defaultProvider) noRates :=
  ⟨nofun, nofun, nofun, nofun⟩

/-- Where the warm-up announces the rate of the headers, each `Resampler` has the rate of its stream. -/
theorem resamplesAtHeaderRate_of_announced {defaultProvider : String}
    {labels : List (Nat × SupervisorAct)} {t : Supervisor × Rates}
    (run : ((system c).recorded noteRates).Run (fun s label => AnnouncesTruly s.1 s.2 label.2)
      (start defaultProvider, noRates) labels t) : ResamplesAtHeaderRate t.2 := by
  have preserved : ∀ s label, (Kept c s.1 ∧ Engaged s.1 ∧ Tuned s.1 s.2) →
      ((system c).recorded noteRates).enabled s label → AnnouncesTruly s.1 s.2 label.2 →
      Kept c (((system c).recorded noteRates).next s label).1 ∧
        Engaged (((system c).recorded noteRates).next s label).1 ∧
        Tuned (((system c).recorded noteRates).next s label).1
          (((system c).recorded noteRates).next s label).2 :=
    fun _ _ sound enabled truly =>
      ⟨sound.1.next enabled, sound.2.1.next sound.1 enabled,
        sound.2.2.next sound.1 sound.2.1 enabled truly⟩
  obtain ⟨-, -, tuned⟩ :=
    run.invariant preserved ⟨start_kept c defaultProvider, nofun, start_tuned defaultProvider⟩
  exact tuned.resamples

def correctsItsRate : List (Nat × SupervisorAct) := untimed
  (firstRequest ++ [.exchange 1 (.serveHeader 48000), .exchange 1 (.read 1)])

theorem correctsItsRate_misheard :
    ¬∀ (c : Settings) (defaultProvider : String) (labels : List (Nat × SupervisorAct))
      (t : Supervisor × Rates),
      ((system c).recorded noteRates).Run (fun _ _ => True) (start defaultProvider, noRates) labels t →
        ResamplesAtHeaderRate t.2 := by
  intro claimed
  have admitted : ((system soleProvider).recorded noteRates).Admits (fun _ _ => True)
      (start "kokoro-onnx", noRates) correctsItsRate :=
    ⟨⟨rfl, trivial⟩, ⟨⟨_, _, rfl, rfl⟩, trivial⟩, ⟨⟨_, _, rfl, rfl⟩, trivial⟩, ⟨⟨_, _, rfl⟩, trivial⟩,
      ⟨⟨_, _, rfl⟩, trivial⟩, ⟨⟨by decide, rfl, ⟨rfl, nofun⟩, trivial⟩, trivial⟩,
      ⟨⟨_, _, rfl, nofun⟩, trivial⟩, ⟨rfl, trivial⟩, ⟨⟨rfl, nofun⟩, trivial⟩, ⟨⟨by decide, rfl⟩, trivial⟩,
      ⟨⟨.inl rfl, rfl⟩, trivial⟩, ⟨⟨_, _, _, _, rfl, rfl⟩, trivial⟩, ⟨⟨_, _, rfl, rfl⟩, trivial⟩,
      ⟨⟨_, _, rfl, rfl⟩, trivial⟩, ⟨⟨_, _, rfl, rfl⟩, trivial⟩, ⟨⟨_, _, rfl⟩, trivial⟩,
      ⟨⟨_, _, rfl⟩, trivial⟩, ⟨⟨by decide, rfl, ⟨rfl, nofun⟩, trivial⟩, trivial⟩,
      ⟨⟨_, _, rfl, nofun⟩, trivial⟩, ⟨⟨_, _, rfl, rfl⟩, trivial⟩,
      ⟨⟨by decide, rfl, ⟨_, rfl⟩, ⟨_, rfl⟩⟩, trivial⟩, ⟨⟨by decide, rfl, ⟨_, rfl⟩, ⟨_, rfl⟩⟩, trivial⟩,
      ⟨⟨by decide, rfl, ⟨rfl, 1, _, rfl⟩, trivial⟩, trivial⟩,
      ⟨⟨by decide, rfl, ⟨rfl, rfl, nofun⟩, ⟨_, rfl⟩⟩, trivial⟩, trivial⟩
  have heard := claimed soleProvider "kokoro-onnx" correctsItsRate _ admitted.run
  exact absurd (heard 1 1 24000 48000 rfl rfl) (by decide)

def keepsItsRate : List (Nat × SupervisorAct) := untimed
  (firstRequest ++ [.exchange 1 (.serveHeader 24000), .exchange 1 (.read 1)])

theorem keepsItsRate_resamples :
    ResamplesAtHeaderRate
      (((system soleProvider).recorded noteRates).after (start "kokoro-onnx", noRates) keepsItsRate).2 := by
  have admitted : ((system soleProvider).recorded noteRates).Admits
      (fun s label => AnnouncesTruly s.1 s.2 label.2) (start "kokoro-onnx", noRates) keepsItsRate :=
    ⟨⟨rfl, truly_of_quiet rfl rfl⟩, ⟨⟨_, _, rfl, rfl⟩, truly_of_quiet rfl rfl⟩,
      ⟨⟨_, _, rfl, rfl⟩, truly_of_quiet rfl rfl⟩, ⟨⟨_, _, rfl⟩, truly_of_quiet rfl rfl⟩,
      ⟨⟨_, _, rfl⟩, truly_of_quiet rfl rfl⟩,
      ⟨⟨by decide, rfl, ⟨rfl, nofun⟩, trivial⟩, truly_of_quiet rfl rfl⟩,
      ⟨⟨_, _, rfl, nofun⟩, truly_of_quiet rfl rfl⟩, ⟨rfl, truly_of_quiet rfl rfl⟩,
      ⟨⟨rfl, nofun⟩, truly_of_quiet rfl rfl⟩, ⟨⟨by decide, rfl⟩, truly_of_quiet rfl rfl⟩,
      ⟨⟨.inl rfl, rfl⟩, truly_of_quiet rfl rfl⟩, ⟨⟨_, _, _, _, rfl, rfl⟩, truly_of_quiet rfl rfl⟩,
      ⟨⟨_, _, rfl, rfl⟩, truly_of_quiet rfl rfl⟩,
      ⟨⟨_, _, rfl, rfl⟩, truly_of_quiet rfl rfl⟩,
      ⟨⟨_, _, rfl, rfl⟩, truly_of_quiet rfl rfl⟩, ⟨⟨_, _, rfl⟩, truly_of_quiet rfl rfl⟩,
      ⟨⟨_, _, rfl⟩, truly_of_quiet rfl rfl⟩,
      ⟨⟨by decide, rfl, ⟨rfl, nofun⟩, trivial⟩, truly_of_quiet rfl rfl⟩,
      ⟨⟨_, _, rfl, nofun⟩, truly_of_quiet rfl rfl⟩,
      ⟨⟨_, _, rfl, rfl⟩, nofun, by
        intro _ _ _ _ _ _ _ returns input other
        cases returned_of_returns returns
        cases input
        exact absurd rfl other⟩,
      ⟨⟨by decide, rfl, ⟨_, rfl⟩, ⟨_, rfl⟩⟩, truly_of_quiet rfl rfl⟩,
      ⟨⟨by decide, rfl, ⟨_, rfl⟩, ⟨_, rfl⟩⟩, truly_of_quiet rfl rfl⟩,
      ⟨⟨by decide, rfl, ⟨rfl, 1, _, rfl⟩, trivial⟩, truly_of_quiet rfl rfl⟩,
      ⟨⟨by decide, rfl, ⟨rfl, rfl, nofun⟩, ⟨_, rfl⟩⟩, by rintro _ _ _ ⟨⟩; rfl,
      by intro _ _ _ _ _ _ _ returns; cases returned_of_returns returns⟩, trivial⟩
  exact resamplesAtHeaderRate_of_announced admitted.run

end Supervisor

end Daemon

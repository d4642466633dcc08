import NeuralTts.Daemon.Enumeration

/-! Every enumeration of `enumerateAllVoices` is a run of the supervisor, in which only the task
that enumerates and the processes that it spawns or tears down take steps. -/

namespace Daemon

open Library

namespace Supervisor

variable {c : Settings} {s t : Supervisor} {i : TaskId} {op : Op} {p : ProcId} {proc : ProviderProcess}

def Reaches (c : Settings) (s t : Supervisor) : Prop :=
  ∃ labels, (system c).Run (fun _ _ => True) s labels t

theorem Reaches.trans {u : Supervisor} (first : Reaches c s t) (second : Reaches c t u) :
    Reaches c s u := by
  obtain ⟨labels, run⟩ := first
  obtain ⟨more, rest⟩ := second
  exact ⟨labels ++ more, run.append rest⟩

theorem Reaches.step (act : SupervisorAct) (enabled : s.Enabled act) (becomes : s.next c 0 act = t) :
    Reaches c s t := by
  subst becomes
  exact ⟨[(0, act)], .cons enabled trivial (.nil _)⟩

theorem Reaches.teardown (act : TeardownAct) (enabled : proc.TeardownEnabled act) :
    Reaches c (s.setProc p proc) (s.setProc p (proc.teardownStep act)) := by
  refine .step (.teardown p act) ?_ ?_
  · change ((s.setProc p proc).procs p).TeardownEnabled act
    rw [procs_setProc]
    exact enabled
  · change (s.setProc p proc).setProc p (((s.setProc p proc).procs p).teardownStep act) = _
    rw [procs_setProc, setProc_setProc]

theorem Reaches.exits (born : p < s.nextProc) (alive : proc.exited = false) :
    Reaches c (s.setProc p proc) (s.setProc p { proc with exited := true }) := by
  refine .step (.exits p) ⟨born, ?_⟩ ?_
  · rw [procs_setProc]
    exact alive
  · change (s.setProc p proc).setProc p { (s.setProc p proc).procs p with exited := true } = _
    rw [procs_setProc, setProc_setProc]

theorem Reaches.reaped {sequel : Sequel} {raised : Bool}
    (reaping : s.tasks i = .inside op (.reaping p sequel)) (finished : proc.teardown = .finished raised) :
    Reaches c (s.setProc p proc) ((s.setProc p proc).reaped i op sequel raised) := by
  have inside : (s.setProc p proc).tasks i = .inside op (.reaping p sequel) := reaping
  have ended : ((s.setProc p proc).procs p).teardown = .finished raised := by
    rw [procs_setProc, finished]
  refine .step (.reaped i) ⟨op, p, sequel, raised, inside, ended⟩ ?_
  simp only [Supervisor.next, inside, ended]

theorem tasks_startReap {sequel : Sequel} :
    (s.startReap i op p sequel).tasks i = .inside op (.reaping p sequel) :=
  Function.update_self ..

theorem procs_startReap {sequel : Sequel} :
    (s.startReap i op p sequel).procs p = (s.procs p).beginTeardown :=
  Function.update_self ..

theorem reaches_shutdownWritten (s : Supervisor) (i : TaskId) (op : Op) (p : ProcId) (sequel : Sequel) :
    Reaches c (s.startReap i op p sequel)
      ((s.startReap i op p sequel).setProc p ((s.procs p).beginTeardown.teardownStep .write)) := by
  refine .step (.teardown p .write) ?_ ?_
  · change ((s.startReap i op p sequel).procs p).teardown = .writing
    rw [procs_startReap]
    rfl
  · simp only [Supervisor.next, procs_startReap]

theorem reaches_reaped (i : TaskId) (op : Op) (sequel : Sequel) (alive : (s.procs p).exited = false)
    (born : p < s.nextProc) :
    ∃ proc, Reaches c (s.startReap i op p sequel)
      (((s.startReap i op p sequel).setProc p proc).reaped i op sequel false) := by
  have written := reaches_shutdownWritten (c := c) s i op p sequel
  have gaveUp := written.trans (.teardown (.giveUp false) ⟨rfl, nofun⟩)
  have exited := gaveUp.trans (.exits born alive)
  have stopped := exited.trans (.teardown .exited ⟨.inl rfl, rfl⟩)
  exact ⟨_, stopped.trans (.reaped tasks_startReap rfl)⟩

theorem reaches_raised (i : TaskId) (op : Op) (sequel : Sequel) (waited : (s.procs p).waiter ≠ none)
    (foreign : (s.procs p).waiter ≠ some .teardown) :
    ∃ proc, Reaches c (s.startReap i op p sequel)
      (((s.startReap i op p sequel).setProc p proc).reaped i op sequel true) := by
  have written := reaches_shutdownWritten (c := c) s i op p sequel
  have collided := written.trans (.teardown .collide ⟨rfl, waited, foreign⟩)
  exact ⟨_, collided.trans (.reaped tasks_startReap rfl)⟩

def at_ (s : Supervisor) (i : TaskId) (op : Op) (stage : Stage) (p : ProcId) (proc : ProviderProcess) :
    Supervisor :=
  (s.setProc p proc).setTask i (.inside op stage)

@[simp] theorem tasks_at {stage : Stage} : (s.at_ i op stage p proc).tasks i = .inside op stage :=
  Function.update_self ..

@[simp] theorem procs_at {stage : Stage} : (s.at_ i op stage p proc).procs p = proc :=
  Function.update_self ..

def warming (name : String) : ProviderProcess := (ProviderProcess.spawned name false 0).requestWarmup

theorem reaches_answered {name : String} (inside : s.tasks i = .inside op (.spawning name false))
    (known : name ∈ c.registry) (installed : c.installed name = true) (voices : List PbVoice) :
    ∃ t p, Reaches c s t ∧ t.tasks i = .inside op (.warming p) ∧ p < t.nextProc ∧
      t.procs p = (warming name).next 0 (.answer (.warmup 24000 voices)) ∧ t.voiceIndex = s.voiceIndex := by
  let q := s.nextProc
  have spawned : Reaches c s
      { s.at_ i op (.creating q) q (.spawned name false 0) with nextProc := q + 1 } := by
    refine .step (.proceed i) ⟨op, _, inside, rfl⟩ ?_
    simp only [Supervisor.next, inside, Supervisor.spawn, known, installed, and_self, if_true]
    rfl
  have created : Reaches c { s.at_ i op (.creating q) q (.spawned name false 0) with nextProc := q + 1 }
      { s.at_ i op (.connecting q) q (.spawned name false 0) with nextProc := q + 1 } := by
    refine .step (.created i) ⟨op, q, tasks_at⟩ ?_
    simp [Supervisor.next, at_, Supervisor.setTask]
  have connected : Reaches c { s.at_ i op (.connecting q) q (.spawned name false 0) with nextProc := q + 1 }
      { s.at_ i op (.warming q) q (warming name) with active := some q, nextProc := q + 1 } := by
    refine .step (.connected i) ⟨op, q, tasks_at⟩ ?_
    simp [Supervisor.next, at_, Supervisor.setTask, Supervisor.setProc, warming]
  have answered : Reaches c
      { s.at_ i op (.warming q) q (warming name) with active := some q, nextProc := q + 1 }
      { s.at_ i op (.warming q) q ((warming name).next 0 (.answer (.warmup 24000 voices))) with
        active := some q, nextProc := q + 1 } := by
    refine .step (.exchange q (.answer (.warmup 24000 voices))) ⟨Nat.lt_succ_self _, rfl, ?_, trivial⟩ ?_
    · change ((s.at_ i op (.warming q) q (warming name)).procs q).Enabled _
      rw [procs_at]
      exact ⟨rfl, List.cons_ne_nil _ _⟩
    · simp [Supervisor.next, at_, Supervisor.setTask, Supervisor.setProc, q]
  have warmed := ((spawned.trans created).trans connected).trans answered
  refine ⟨_, q, warmed, tasks_at, Nat.lt_succ_self _, ?_, rfl⟩
  exact Function.update_self ..

theorem reaches_listed {name : String} {todo : List String} {out : Dict String (List Voice)}
    {asked : Option SynthesizeRequest}
    (inside : s.tasks i = .inside (.enumerate (name :: todo) out asked) (.spawning name false))
    (known : name ∈ c.registry) (installed : c.installed name = true) (voices : List PbVoice) :
    ∃ t, Reaches c s t ∧
      t.tasks i = .inside (.enumerate todo (out.set name (voices.map voiceFromPb)) asked) .entered ∧
      t.active = none ∧ t.voiceIndex = s.voiceIndex := by
  obtain ⟨warmed, p, answered, awaits, born, proc, index⟩ :=
    reaches_answered inside known installed voices
  have unread : (warmed.procs p).unread = [(none, .warmup 24000 voices)] := by
    rw [proc]
    rfl
  let listed := (warmed.setProc p ((warmed.procs p).leaveReader .warmup).pop).setProc p
    ((((warmed.procs p).leaveReader .warmup).pop).warmedUp 24000 voices)
  let rest := Op.enumerate todo (out.set name (voices.map voiceFromPb)) asked
  have read : Reaches c warmed (listed.startReap i rest p .next) := by
    refine .step (.readWarmup i) ⟨_, p, awaits, by rw [unread]; simp⟩ ?_
    simp only [Supervisor.next, awaits, unread, procs_setProc]
    rw [Supervisor.spawned, procs_setProc]
    rfl
  have alive : (listed.procs p).exited = false := by
    rw [procs_setProc, proc]
    rfl
  obtain ⟨torn, reaped⟩ := reaches_reaped (c := c) i rest .next alive born
  exact ⟨_, (answered.trans read).trans reaped, Function.update_self .., rfl, index⟩

/-- Where the teardown of the active process raises, a coroutine is at its reader. -/
structure Shows (h : Host) (s : Supervisor) (p : ProcId) (a : ActiveProvider) : Prop where
  active : s.active = some p
  born : p < s.nextProc
  alive : (s.procs p).exited = false
  provider : (s.procs p).provider = a.name
  state : (s.procs p).state = a.state
  voices : (s.procs p).voices = a.voices
  occupied : h.teardownRaises a = true → (s.procs p).waiter ≠ none ∧ (s.procs p).waiter ≠ some .teardown

def Mirrors (h : Host) (s : Supervisor) : Option ActiveProvider → Prop
  | none => s.active = none
  | some a => ∃ p, Shows h s p a

variable {h : Host} {active : Option ActiveProvider} {name : String} {todo : List String}
  {out : Dict String (List Voice)} {asked : Option SynthesizeRequest}

theorem reaches_spawned
    (inside : s.tasks i = .inside (.enumerate (name :: todo) out asked) (.spawning name false))
    (vacant : s.active = none) (known : name ∈ c.registry) (installed : c.installed name = true) :
    ∃ t, Reaches c s t ∧
      t.tasks i = .inside (.enumerate todo
        (match h.listing name with
          | some voices => out.set name voices
          | none => out) asked) .entered ∧
      t.active = none ∧ t.voiceIndex = s.voiceIndex := by
  rw [Host.listing]
  cases h.reports name with
  | some voices => exact reaches_listed inside known installed voices
  | none =>
    refine ⟨_, .step (.spawnFails i) ⟨_, _, _, inside⟩ rfl, ?_⟩
    simp only [Supervisor.next, inside, Supervisor.fail]
    exact ⟨Function.update_self .., vacant, rfl⟩

theorem reaches_replaced {a : ActiveProvider} (i : TaskId) (todo : List String)
    (out : Dict String (List Voice)) (asked : Option SynthesizeRequest) (shows : Shows h s p a)
    (known : name ∈ c.registry) (installed : c.installed name = true) :
    ∃ t, Reaches c (s.startReap i (.enumerate (name :: todo) out asked) p (.spawn name false)) t ∧
      t.tasks i = .inside (.enumerate todo
        (if h.teardownRaises a then out else
          match h.listing name with
          | some voices => out.set name voices
          | none => out) asked) .entered ∧
      t.active = none ∧ t.voiceIndex = s.voiceIndex := by
  by_cases raises : h.teardownRaises a = true
  · obtain ⟨waited, foreign⟩ := shows.occupied raises
    obtain ⟨torn, raised⟩ := reaches_raised (c := c) i (.enumerate (name :: todo) out asked)
      (.spawn name false) waited foreign
    refine ⟨_, raised, ?_, rfl, rfl⟩
    rw [if_pos raises]
    exact Function.update_self ..
  · obtain ⟨torn, reaped⟩ := reaches_reaped (c := c) i (.enumerate (name :: todo) out asked)
      (.spawn name false) shows.alive shows.born
    obtain ⟨t, spawned, entered, vacant, index⟩ := reaches_spawned (h := h) (c := c)
      (s := Supervisor.reaped _ i (.enumerate (name :: todo) out asked) (.spawn name false) false)
      (Function.update_self ..) rfl known installed
    refine ⟨t, reaped.trans spawned, ?_, vacant, index⟩
    rw [if_neg raises]
    exact entered

theorem reaches_provider (inside : s.tasks i = .inside (.enumerate (name :: todo) out asked) .entered)
    (mirrors : Mirrors h s active) (known : name ∈ c.registry) :
    ∃ t, Reaches c s t ∧
      t.tasks i = .inside (.enumerate todo (h.enumerateProvider c (active, out) name).2 asked) .entered ∧
      Mirrors h t (h.enumerateProvider c (active, out) name).1 ∧ t.voiceIndex = s.voiceIndex := by
  have proceeds : Reaches c s (s.enter c 0 i (.enumerate (name :: todo) out asked)) := by
    refine .step (.proceed i) ⟨_, _, inside, rfl⟩ ?_
    simp only [Supervisor.next, inside]
  by_cases installed : c.installed name = true
  · cases active with
    | none =>
      have vacant : s.active = none := mirrors
      have spawning : s.enter c 0 i (.enumerate (name :: todo) out asked) =
          s.setTask i (.inside (.enumerate (name :: todo) out asked) (.spawning name false)) := by
        simp [Supervisor.enter, installed, vacant]
      rw [spawning] at proceeds
      obtain ⟨t, spawned, entered, left, index⟩ := reaches_spawned (h := h) (c := c)
        (s := s.setTask i (.inside (.enumerate (name :: todo) out asked) (.spawning name false)))
        (Function.update_self ..) vacant known installed
      rw [Host.enumerateProvider_spawns known installed rfl]
      exact ⟨t, proceeds.trans spawned, entered, left, index⟩
    | some a =>
      obtain ⟨p, shows⟩ := mirrors
      by_cases reuse : a.name = name ∧ a.state = .ready
      · have reused : s.enter c 0 i (.enumerate (name :: todo) out asked) =
            s.setTask i (.inside (.enumerate todo (out.set name a.voices) asked) .entered) := by
          simp [Supervisor.enter, installed, shows.active, shows.provider, shows.state, shows.voices, reuse]
        rw [reused] at proceeds
        obtain ⟨rfl, ready⟩ := reuse
        rw [Host.enumerateProvider_reuses installed (Host.reusable_active.mpr ⟨rfl, ready⟩)]
        exact ⟨_, proceeds, Function.update_self .., ⟨p, { shows with }⟩, rfl⟩
      · have replaced : s.enter c 0 i (.enumerate (name :: todo) out asked) =
            s.startReap i (.enumerate (name :: todo) out asked) p (.spawn name false) := by
          simp [Supervisor.enter, installed, shows.active, shows.provider, shows.state, reuse]
        rw [replaced] at proceeds
        have fresh : Host.reusable (some a) name = none := by simpa [Host.reusable] using reuse
        obtain ⟨t, reaped, entered, left, index⟩ :=
          reaches_replaced (c := c) i todo out asked shows known installed
        rw [Host.enumerateProvider_spawns known installed fresh]
        exact ⟨t, proceeds.trans reaped, entered, left, index⟩
  · have missing : c.installed name = false := by simpa using installed
    have skips : s.enter c 0 i (.enumerate (name :: todo) out asked) =
        s.setTask i (.inside (.enumerate todo out asked) .entered) := by
      simp [Supervisor.enter, missing]
    rw [skips] at proceeds
    rw [Host.enumerateProvider_uninstalled missing]
    refine ⟨_, proceeds, Function.update_self .., ?_, rfl⟩
    cases active with
    | none => exact mirrors
    | some a =>
      obtain ⟨p, shows⟩ := mirrors
      exact ⟨p, { shows with }⟩

theorem reaches_swept (known : ∀ name ∈ todo, name ∈ c.registry)
    (inside : s.tasks i = .inside (.enumerate todo out asked) .entered) (mirrors : Mirrors h s active) :
    ∃ t, Reaches c s t ∧
      t.tasks i =
        .inside (.enumerate [] (todo.foldl (h.enumerateProvider c) (active, out)).2 asked) .entered ∧
      Mirrors h t (todo.foldl (h.enumerateProvider c) (active, out)).1 ∧ t.voiceIndex = s.voiceIndex := by
  induction todo generalizing s active out with
  | nil => exact ⟨s, ⟨[], .nil s⟩, inside, mirrors, rfl⟩
  | cons name rest ih =>
    obtain ⟨listed, reaches, entered, shown, index⟩ :=
      reaches_provider inside mirrors (known name List.mem_cons_self)
    obtain ⟨t, swept, ended, left, kept⟩ :=
      ih (fun other inside => known other (List.mem_cons_of_mem _ inside)) entered shown
    exact ⟨t, reaches.trans swept, ended, left, kept.trans index⟩

theorem reaches_enumerateAllVoices (inside : s.tasks i = .inside (.enumerate c.names ∅ none) .entered)
    (mirrors : Mirrors h s active) :
    ∃ t, Reaches c s t ∧ t.tasks i = .done ∧
      Mirrors h t (h.enumerateAllVoices c s.voiceIndex active).1 ∧
      t.voiceIndex = (h.enumerateAllVoices c s.voiceIndex active).2 := by
  have known : ∀ name ∈ c.names, name ∈ c.registry := fun name inside =>
    (List.mem_insertionSort _).mp inside
  obtain ⟨swept, reaches, ended, mirrored, index⟩ := reaches_swept known inside mirrors
  have ends : Reaches c swept (swept.enter c 0 i (.enumerate []
      (c.names.foldl (h.enumerateProvider c) (active, ∅)).2 none)) := by
    refine .step (.proceed i) ⟨_, _, ended, rfl⟩ ?_
    simp only [Supervisor.next, ended]
  refine ⟨_, reaches.trans ends, Function.update_self .., ?_, ?_⟩
  · rw [Host.enumerateAllVoices]
    cases left : (c.names.foldl (h.enumerateProvider c) (active, ∅)).1 with
    | none =>
      rw [left] at mirrored
      exact mirrored
    | some a =>
      rw [left] at mirrored
      obtain ⟨p, shows⟩ := mirrored
      exact ⟨p, { shows with }⟩
  · rw [Host.enumerateAllVoices, ← index]
    rfl

end Supervisor

end Daemon

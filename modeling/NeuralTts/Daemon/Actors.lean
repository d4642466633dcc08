import NeuralTts.Daemon.OneChild
import NeuralTts.Daemon.Undisturbed

/-! Whose step it is: a step changes the task that takes it and no other, and a task that has not
begun, or sleeps, asks for an operation by the label of its own step only. -/

namespace Daemon

open Library

namespace Supervisor

variable {c : Settings} {s : Supervisor} {now : Nat} {i j : TaskId} {op : Op} {act : SupervisorAct}
  {p : ProcId} {task : Task}

theorem tasks_setTask (other : i ≠ j) : (s.setTask j task).tasks i = s.tasks i :=
  Function.update_of_ne other ..

theorem tasks_beginOp (other : i ≠ j) : (s.beginOp j op).tasks i = s.tasks i := by
  unfold beginOp
  split <;> exact tasks_setTask other

theorem tasks_leave (other : i ≠ j) : (s.leave j task).tasks i = s.tasks i := tasks_setTask other

theorem tasks_arrive (other : i ≠ j) (awaiter : Awaiter) :
    (s.arrive now j p awaiter).tasks i = s.tasks i := by
  cases awaiter with
  | caller => exact tasks_setTask other
  | reloadVoices => exact tasks_setTask other
  | connection synth route =>
    simp only [arrive]
    split
    · exact tasks_beginOp other
    · exact tasks_setTask other
  | generator synth route =>
    simp only [arrive]
    split <;> exact tasks_setTask other

theorem tasks_route (other : i ≠ j) (synth : SynthesizeRequest) : (s.route j synth).tasks i = s.tasks i := by
  unfold route
  split
  · exact tasks_beginOp other
  · exact tasks_setTask other

theorem tasks_fail (other : i ≠ j) (cancelled : Bool) : (s.fail j op cancelled).tasks i = s.tasks i := by
  unfold fail
  split <;> exact tasks_setTask other

theorem tasks_enter (other : i ≠ j) : (s.enter c now j op).tasks i = s.tasks i := by
  cases op with
  | ensureReady target awaiter =>
    simp only [enter]
    split
    · split
      · exact (tasks_arrive other awaiter).trans (tasks_leave other)
      · exact tasks_setTask other
    · exact tasks_setTask other
  | switch newName =>
    simp only [enter]
    split
    · split <;> exact tasks_setTask other
    · exact tasks_setTask other
  | enumerate todo out asked =>
    cases todo with
    | nil =>
      cases asked with
      | none => exact tasks_leave other
      | some synth => exact (tasks_route other synth).trans (tasks_leave other)
    | cons name todo =>
      simp only [enter]
      split
      · exact tasks_setTask other
      · split
        · split <;> exact tasks_setTask other
        · exact tasks_setTask other
  | evict =>
    simp only [enter]
    split
    · split <;> exact tasks_setTask other
    · exact tasks_setTask other
  | shutdown =>
    simp only [enter]
    split <;> exact tasks_setTask other

theorem tasks_spawned (other : i ≠ j) : (s.spawned now j p op).tasks i = s.tasks i := by
  cases op with
  | ensureReady target awaiter => exact (tasks_arrive other awaiter).trans (tasks_leave other)
  | enumerate todo out asked => cases todo <;> exact tasks_setTask other
  | _ => exact tasks_setTask other

theorem tasks_reaped (other : i ≠ j) (sequel : Sequel) (raised : Bool) :
    (s.reaped j op sequel raised).tasks i = s.tasks i := by
  unfold reaped
  split
  · exact tasks_setTask other
  · exact tasks_fail other false
  · exact tasks_setTask other
  · exact tasks_leave other
  · split <;> exact tasks_leave other

theorem tasks_cancelInside (other : i ≠ j) (stage : Stage) :
    (s.cancelInside j op stage).tasks i = s.tasks i := by
  cases stage with
  | entered => rfl
  | spawning name eager => rfl
  | _ => exact tasks_setTask other

theorem tasks_next (elsewhere : act.task ≠ some i) : (s.next c now act).tasks i = s.tasks i := by
  have other : ∀ {j : TaskId}, some j ≠ some i → i ≠ j := by
    rintro j differ rfl
    exact differ rfl
  cases act with
  | connect j synth =>
    simp only [next]
    split
    · exact tasks_setTask (other elsewhere)
    · split
      · exact tasks_beginOp (other elsewhere)
      · exact tasks_route (other elsewhere) synth
  | ensureReady j name => exact tasks_beginOp (other elsewhere)
  | reloadVoices j => exact tasks_beginOp (other elsewhere)
  | enumerateAll j => exact tasks_beginOp (other elsewhere)
  | switch j newName =>
    simp only [next]
    split
    · exact tasks_beginOp (other elsewhere)
    · exact tasks_setTask (other elsewhere)
  | shutdown j => exact tasks_beginOp (other elsewhere)
  | startIdleLoop j => exact tasks_setTask (other elsewhere)
  | wake j =>
    simp only [next, wake]
    split
    · split
      · exact tasks_beginOp (other elsewhere)
      · exact tasks_setTask (other elsewhere)
    · exact tasks_setTask (other elsewhere)
  | acquire j =>
    simp only [next]
    split
    · exact tasks_setTask (other elsewhere)
    · rfl
  | proceed j =>
    simp only [next]
    split
    · exact tasks_enter (other elsewhere)
    · unfold spawn
      split
      · exact tasks_setTask (other elsewhere)
      · exact tasks_fail (other elsewhere) false
    · rfl
  | spawnFails j =>
    simp only [next]
    split
    · exact tasks_fail (other elsewhere) false
    · rfl
  | created j =>
    simp only [next]
    split
    · exact tasks_setTask (other elsewhere)
    · rfl
  | abandoned j => exact tasks_leave (other elsewhere)
  | connected j =>
    simp only [next]
    split
    · exact tasks_setTask (other elsewhere)
    · rfl
  | parkWarmup j =>
    simp only [next]
    split <;> rfl
  | readWarmup j =>
    simp only [next]
    split
    · split
      · exact tasks_spawned (other elsewhere)
      · exact tasks_setTask (other elsewhere)
    · rfl
  | failWarmup j =>
    simp only [next]
    split
    · exact tasks_setTask (other elsewhere)
    · rfl
  | reaped j =>
    simp only [next]
    split
    · split
      · exact tasks_reaped (other elsewhere) ..
      · rfl
    · rfl
  | killed j =>
    simp only [next]
    split
    · exact tasks_fail (other elsewhere) _
    · rfl
  | cancel j =>
    simp only [next]
    split
    · exact tasks_setTask (other elsewhere)
    · exact tasks_cancelInside (other elsewhere) _
    · exact tasks_setTask (other elsewhere)
  | _ => rfl

/-- The operation that a task asks for when it begins, or when it wakes. -/
inductive Opens (c : Settings) (s : Supervisor) (i : TaskId) : SupervisorAct → Op → Prop
  | ensureReady (name : Option String) :
      Opens c s i (.ensureReady i name) (.ensureReady (s.targetName name) .caller)
  | reloadVoices : Opens c s i (.reloadVoices i) (.ensureReady (s.targetName none) .reloadVoices)
  | enumerateAll : Opens c s i (.enumerateAll i) (.enumerate c.names ∅ none)
  | populates {synth : SynthesizeRequest} (empty : s.voiceIndex.isEmpty = true) :
      Opens c s i (.connect i synth) (.enumerate c.names ∅ (some synth))
  | routes {synth : SynthesizeRequest} {provider : String}
      (found : s.voiceIndex.providerFor synth.voice = some provider) :
      Opens c s i (.connect i synth) (.ensureReady (s.targetName (some provider))
        (.connection synth ⟨synth.voice, provider, s.voiceIndex.localIdFor synth.voice⟩))
  | switch (newName : String) (valid : newName ∈ c.registry ∧ c.installed newName = true) :
      Opens c s i (.switch i newName) (.switch newName)
  | shutdown : Opens c s i (.shutdown i) .shutdown
  | evict (sleeping : s.tasks i = .sleeping) : Opens c s i (.wake i) .evict

theorem pursues_beginOp (s : Supervisor) (i : TaskId) (op : Op) :
    ((s.beginOp i op).tasks i).pursues = some op := by
  obtain ⟨task, begun, becomes⟩ := begun_beginOp s i op
  rw [becomes.here]
  exact begun.pursues

theorem pursues_resting (s : Supervisor) (i : TaskId) {resting : Task} (rests : resting = .done ∨ resting = .sleeping) :
    ((s.setTask i resting).tasks i).pursues = none := by
  have here : (s.setTask i resting).tasks i = resting := Function.update_self ..
  rw [here]
  rcases rests with rfl | rfl <;> rfl

theorem opens_of_pursues (c : Settings) (now : Nat) (enabled : s.Enabled act) (apart : s.tasks i = .absent ∨ s.tasks i = .sleeping)
    (pursues : ((s.next c now act).tasks i).pursues = some op) : Opens c s i act op := by
  have aside : (s.tasks i).pursues = none := by rcases apart with at_ | at_ <;> rw [at_] <;> rfl
  have mine : act.task = some i := by
    by_contra elsewhere
    rw [tasks_next elsewhere, aside] at pursues
    cases pursues
  have outside : ∀ {before : Op} {stage : Stage}, s.tasks i ≠ .inside before stage := by
    intro before stage inside
    rw [inside] at aside
    cases aside
  have ends : ∀ {u : Supervisor} {resting : Task}, (resting = .done ∨ resting = .sleeping) →
      ((u.setTask i resting).tasks i).pursues = some op → Opens c s i act op := by
    intro u resting rests at_
    rw [pursues_resting u i rests] at at_
    cases at_
  have asks : ∀ {u : Supervisor} {asked : Op}, Opens c s i act asked →
      ((u.beginOp i asked).tasks i).pursues = some op → Opens c s i act op := by
    intro u asked opens at_
    rw [pursues_beginOp] at at_
    cases at_
    exact opens
  cases act with
  | connect j synth =>
    cases mine
    simp only [next] at pursues
    split at pursues
    · exact ends (.inl rfl) pursues
    · split at pursues
      · rename_i empty
        exact asks (.populates empty) pursues
      · unfold route at pursues
        split at pursues
        · rename_i found
          exact asks (.routes found) pursues
        · exact ends (.inl rfl) pursues
  | ensureReady j name => cases mine; exact asks (.ensureReady name) pursues
  | reloadVoices j => cases mine; exact asks .reloadVoices pursues
  | enumerateAll j => cases mine; exact asks .enumerateAll pursues
  | switch j newName =>
    cases mine
    simp only [next] at pursues
    split at pursues
    · rename_i valid
      exact asks (.switch newName valid) pursues
    · exact ends (.inl rfl) pursues
  | shutdown j => cases mine; exact asks .shutdown pursues
  | startIdleLoop j => cases mine; exact ends loopTask_rests pursues
  | wake j =>
    cases mine
    simp only [next, wake] at pursues
    split at pursues
    · split at pursues
      · exact asks (.evict enabled) pursues
      · exact ends loopTask_rests pursues
    · exact ends loopTask_rests pursues
  | cancel j =>
    cases mine
    rcases enabled with sleeping | ⟨before, waiting⟩ | ⟨before, stage, inside, -⟩
    · simp only [next, sleeping] at pursues
      exact ends (.inl rfl) pursues
    · rw [waiting] at aside
      cases aside
    · exact absurd inside outside
  | acquire j =>
    cases mine
    obtain ⟨⟨before, waiting⟩, -⟩ := enabled
    rw [waiting] at aside
    cases aside
  | proceed j => cases mine; obtain ⟨_, _, inside, -⟩ := enabled; exact absurd inside outside
  | spawnFails j => cases mine; obtain ⟨_, _, _, inside⟩ := enabled; exact absurd inside outside
  | created j => cases mine; obtain ⟨_, _, inside⟩ := enabled; exact absurd inside outside
  | abandoned j => cases mine; obtain ⟨_, _, inside, -⟩ := enabled; exact absurd inside outside
  | connected j => cases mine; obtain ⟨_, _, inside⟩ := enabled; exact absurd inside outside
  | parkWarmup j => cases mine; obtain ⟨_, _, inside, -⟩ := enabled; exact absurd inside outside
  | readWarmup j => cases mine; obtain ⟨_, _, inside, -⟩ := enabled; exact absurd inside outside
  | failWarmup j => cases mine; obtain ⟨_, _, inside⟩ := enabled; exact absurd inside outside
  | reaped j => cases mine; obtain ⟨_, _, _, _, inside, -⟩ := enabled; exact absurd inside outside
  | killed j => cases mine; obtain ⟨_, _, _, inside, -⟩ := enabled; exact absurd inside outside
  | _ => cases mine

theorem tasks_of_waiting (c : Settings) (now : Nat) (enabled : s.Enabled act) (waiting : s.tasks i = .waiting op) :
    (s.next c now act).tasks i = .waiting op ∨ (s.next c now act).tasks i = .done ∨
      act = .acquire i ∧ (s.next c now act).tasks i = .inside op .entered := by
  by_cases mine : act.task = some i
  · cases act with
    | acquire j =>
      cases mine
      refine .inr (.inr ⟨rfl, ?_⟩)
      simp only [next, waiting]
      exact Function.update_self ..
    | cancel j =>
      cases mine
      simp only [next, waiting]
      exact .inr (.inl (Function.update_self ..))
    | connect j synth => cases mine; cases waiting.symm.trans enabled
    | ensureReady j name => cases mine; cases waiting.symm.trans enabled
    | reloadVoices j => cases mine; cases waiting.symm.trans enabled
    | enumerateAll j => cases mine; cases waiting.symm.trans enabled
    | switch j newName => cases mine; cases waiting.symm.trans enabled
    | shutdown j => cases mine; cases waiting.symm.trans enabled
    | startIdleLoop j => cases mine; cases waiting.symm.trans enabled
    | wake j => cases mine; cases waiting.symm.trans enabled
    | proceed j => cases mine; obtain ⟨_, _, inside, -⟩ := enabled; cases waiting.symm.trans inside
    | spawnFails j => cases mine; obtain ⟨_, _, _, inside⟩ := enabled; cases waiting.symm.trans inside
    | created j => cases mine; obtain ⟨_, _, inside⟩ := enabled; cases waiting.symm.trans inside
    | abandoned j => cases mine; obtain ⟨_, _, inside, -⟩ := enabled; cases waiting.symm.trans inside
    | connected j => cases mine; obtain ⟨_, _, inside⟩ := enabled; cases waiting.symm.trans inside
    | parkWarmup j => cases mine; obtain ⟨_, _, inside, -⟩ := enabled; cases waiting.symm.trans inside
    | readWarmup j => cases mine; obtain ⟨_, _, inside, -⟩ := enabled; cases waiting.symm.trans inside
    | failWarmup j => cases mine; obtain ⟨_, _, inside⟩ := enabled; cases waiting.symm.trans inside
    | reaped j => cases mine; obtain ⟨_, _, _, _, inside, -⟩ := enabled; cases waiting.symm.trans inside
    | killed j => cases mine; obtain ⟨_, _, _, inside, -⟩ := enabled; cases waiting.symm.trans inside
    | _ => cases mine
  · exact .inl ((tasks_next mine).trans waiting)

/-- How an operation goes on: the rest of an enumeration, the `ensure_ready` of the generator after
that of the connection, or the routing of the connection that had the voices listed. -/
inductive Follows (t : Supervisor) : Op → Op → Prop
  | same (op : Op) : Follows t op op
  | lists {name : String} {todo : List String} {out later : Dict String (List Voice)}
      {asked : Option SynthesizeRequest} :
      Follows t (.enumerate (name :: todo) out asked) (.enumerate todo later asked)
  | streams {target later : String} {synth awaited : SynthesizeRequest} {route : Route} :
      Follows t (.ensureReady target (.connection synth route)) (.ensureReady later (.generator awaited route))
  | routes {out : Dict String (List Voice)} {synth : SynthesizeRequest} {provider target : String} {route : Route}
      (found : t.voiceIndex.providerFor synth.voice = some provider) :
      Follows t (.enumerate [] out (some synth)) (.ensureReady target (.connection synth route))

variable {t : Supervisor} {stage : Stage} {later : Op}

theorem follows_of_thrown (thrown : Thrown op task) (pursues : task.pursues = some later) :
    Follows t op later := by
  cases thrown with
  | ended => cases pursues
  | skipped =>
    cases pursues
    exact .lists

theorem Arrival.follows {awaiter : Awaiter} {proc : ProviderProcess} {u : Supervisor}
    (arrival : u.Arrival now i p awaiter proc task) (pursues : task.pursues = some later) (target : String) :
    Follows t (.ensureReady target awaiter) later := by
  cases arrival with
  | streams synth route listed begun =>
    cases begun.pursues.symm.trans pursues
    exact .streams
  | _ => cases pursues

theorem follows_of_listed (now : Nat) {out : Dict String (List Voice)} {asked : Option SynthesizeRequest}
    (inside : s.tasks i = .inside (.enumerate [] out asked) .entered)
    (pursues : ((s.next c now (.proceed i)).tasks i).pursues = some later) :
    ∃ synth provider target route, asked = some synth ∧ later = .ensureReady target (.connection synth route) ∧
      (s.next c now (.proceed i)).voiceIndex.providerFor synth.voice = some provider := by
  simp only [next, inside, enter] at pursues
  cases asked with
  | none =>
    have ended : ((s.setTask i .done).tasks i).pursues = none := pursues_resting s i (.inl rfl)
    cases ended.symm.trans pursues
  | some synth =>
    simp only [route] at pursues
    split at pursues
    · rename_i provider found
      rw [pursues_beginOp] at pursues
      cases pursues
      refine ⟨synth, provider, _, _, rfl, rfl, ?_⟩
      have same : (s.next c now (.proceed i)).voiceIndex = c.populate s.voiceIndex out := by
        simp only [next, inside, enter, route, found]
        obtain ⟨task, begun, becomes⟩ := begun_beginOp _ i _
        exact becomes.index
      rw [same]
      exact found
    · rw [pursues_resting _ i (.inl rfl)] at pursues
      cases pursues

theorem follows_of_pursues (enabled : s.Enabled act) (inside : s.tasks i = .inside op stage)
    (pursues : ((s.next c now act).tasks i).pursues = some later) : Follows (s.next c now act) op later := by
  have moved : Moves c s now act (s.next c now act) := moves enabled
  rcases moved.changes i with same | changes
  · rw [same, inside] at pursues
    cases pursues
    exact .same op
  generalize here : (s.next c now act).tasks i = task at changes pursues
  have stays : ∀ {before : Op} {earlier next : Stage}, s.tasks i = .inside before earlier →
      (Task.inside before next).pursues = some later → Follows (s.next c now act) op later := by
    intro before earlier next within at_
    cases inside.symm.trans within
    cases at_
    exact .same op
  have rests : (task = .done ∨ task = .sleeping) → Follows (s.next c now act) op later := by
    rintro (rfl | rfl) <;> cases pursues
  have beside : (s.tasks i).Aside → Follows (s.next c now act) op later := by
    intro aside
    rw [inside] at aside
    exact aside.elim
  cases changes with
  | rests aside resting => exact beside aside
  | asks aside asked begun index => exact beside aside
  | admitted waiting => cases inside.symm.trans waiting
  | serves within active provider ready arrival =>
    cases inside.symm.trans within
    exact arrival.follows pursues _
  | advances within advance =>
    cases advance with
    | wants => exact stays within pursues
    | created => exact stays within pursues
    | abandons => exact stays within pursues
    | _ =>
      cases inside.symm.trans within
      cases pursues
      exact .lists
  | reaps within active displaces => exact stays within pursues
  | rebuilds within goes =>
    cases inside.symm.trans within
    rw [← here] at pursues
    obtain ⟨synth, provider, target, route, rfl, rfl, found⟩ := follows_of_listed now inside pursues
    exact .routes found
  | leaves within leaves resting => exact rests resting
  | spawns within known installed new grown => exact stays within pursues
  | connects within active => exact stays within pursues
  | warms within read goes became =>
    cases inside.symm.trans within
    cases goes with
    | returns arrival => exact arrival.follows pursues _
    | lists name todo out asked =>
      cases pursues
      exact .lists
    | switched newName => cases pursues
    | unasked unwanted => cases pursues
  | warmupFails within read became => exact stays within pursues
  | removes within clears removed active =>
    cases removed with
    | spawns => exact stays within pursues
    | continues => exact stays within pursues
    | throws q name eager thrown =>
      cases inside.symm.trans within
      exact follows_of_thrown thrown pursues
    | killed q cancelled thrown =>
      cases inside.symm.trans within
      exact follows_of_thrown thrown pursues
    | ends q sequel resting => exact rests resting

theorem Moves.tasks_done (moves : Moves c s now act t) (done : s.tasks i = .done) : t.tasks i = .done := by
  rcases moves.changes i with same | changes
  · exact same.trans done
  · rcases changes.before with aside | ⟨op, stage, inside⟩
    · rw [done] at aside
      exact aside.elim
    · cases done.symm.trans inside

theorem pursues_cases (enabled : s.Enabled act) (pursues : ((s.next c now act).tasks i).pursues = some op) :
    (s.tasks i).pursues = some op ∨ Opens c s i act op ∨
      ∃ before stage, s.tasks i = .inside before stage ∧ Follows (s.next c now act) before op := by
  have moved : Moves c s now act (s.next c now act) := moves enabled
  cases at_ : s.tasks i with
  | absent => exact .inr (.inl (opens_of_pursues c now enabled (.inl at_) pursues))
  | sleeping => exact .inr (.inl (opens_of_pursues c now enabled (.inr at_) pursues))
  | waiting before =>
    rcases tasks_of_waiting c now enabled at_ with still | gone | ⟨-, within⟩
    · rw [still] at pursues
      exact .inl pursues
    · rw [gone] at pursues
      cases pursues
    · rw [within] at pursues
      exact .inl pursues
  | inside before stage => exact .inr (.inr ⟨before, stage, rfl, follows_of_pursues enabled at_ pursues⟩)
  | exchanging p route =>
    rw [moved.frame.exchanging i p route at_] at pursues
    cases pursues
  | done =>
    rw [moved.tasks_done at_] at pursues
    cases pursues

end Supervisor

end Daemon

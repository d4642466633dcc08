import NeuralTts.Daemon.ExchangeOrder
import NeuralTts.Library.History

/-! The frames that a provider writes for each call, and those that the call reads, over every run
of exchanges with one process: whatever the provider sends, and however the drains end. -/

namespace Daemon

open Library

/-- History: what the provider wrote, each frame with the call that it answers, and what each call
has read once its own request was written. -/
structure Wire where
  wrote : List (Option TaskId × Response)
  read : TaskId → List (Option TaskId × Response)

def answers (i : TaskId) (frames : List (Option TaskId × Response)) : List (Option TaskId × Response) :=
  frames.filter fun frame => frame.1 = some i

theorem Phase.unbegun_of_reads {phase : Phase} (reads : phase.reads) (unwritten : phase.written = false) :
    phase.begun = false := by
  cases phase <;> simp_all [Phase.reads, Phase.written, Phase.begun]

namespace ProviderProcess

def writes (p : ProviderProcess) : ExchangeAct → List (Option TaskId × Response)
  | .serveHeader sampleRate => p.requests.head?.toList.map fun request => (request.1, .synthesizeHeader sampleRate)
  | .serveChunk pcm => [(p.answering, .audioChunk pcm)]
  | .serveEnd => [(p.answering, .audioEnd)]
  | .serveError message => [(p.answering, .error message)]
  | .answer b => p.requests.head?.toList.map fun request => (request.1, b)
  | .emit b => [(none, b)]
  | _ => []

/-- What call `i` reads in this step, unless it still drains what others have left. -/
def reads (p : ProviderProcess) (i : TaskId) : ExchangeAct → List (Option TaskId × Response)
  | .read j => if j = i ∧ (p.phase i).written then p.unread.head?.toList else []
  | .garble j b => if j = i ∧ (p.phase i).written then [(none, b)] else []
  | _ => []

end ProviderProcess

namespace Wire

def blank : Wire := ⟨[], fun _ => []⟩

def note (w : Wire) (p : ProviderProcess) (label : Nat × ExchangeAct) : Wire where
  wrote := w.wrote ++ p.writes label.2
  read i := w.read i ++ p.reads i label.2

/-- The payloads of the chunks that the provider wrote for call `i`. -/
def payloads (w : Wire) (i : TaskId) : List Bytes := (ProviderProcess.chunks (answers i w.wrote)).map Prod.snd

end Wire

namespace ProviderProcess

/-- The calls that the provider has still to answer, the one that it is answering among them. -/
def due (p : ProviderProcess) : List (Option TaskId) := p.requests.map Prod.fst ++ [p.answering]

/-- What has been written for a call is what it has read and what is on its way, while it reads. -/
structure Accounted (p : ProviderProcess) (w : Wire) : Prop where
  lock : ∀ i, (p.phase i).holds → p.requestLock.holder = some i
  unread : p.unread ⊆ w.wrote
  fresh : ∀ i, (p.phase i).begun = false → some i ∉ p.due ∧ answers i w.wrote = [] ∧ w.read i = []
  once : ∀ i, p.due.count (some i) ≤ 1
  ended : ∀ i, (some i, .audioEnd) ∈ w.wrote → some i ∉ p.due
  last : ∀ i, (some i, .audioEnd) ∉ (answers i w.wrote).dropLast
  account : ∀ i, (p.phase i).written → answers i (w.read i) ++ answers i p.unread = answers i w.wrote ∧
    ∀ frame ∈ w.read i, frame.2 ≠ .audioEnd
  complete : ∀ i, (some i, .audioEnd) ∈ w.read i → answers i (w.read i) = answers i w.wrote
  closing : ∀ i, ∀ frame ∈ (w.read i).dropLast, frame.2 ≠ .audioEnd

variable {p q : ProviderProcess} {w : Wire} {i j : TaskId} {frame : Option TaskId × Response}
  {frames added : List (Option TaskId × Response)} {phase : Phase} {ex : Exchange} {act : ExchangeAct}

theorem answers_append (i : TaskId) (frames more : List (Option TaskId × Response)) :
    answers i (frames ++ more) = answers i frames ++ answers i more := List.filter_append ..

theorem mem_answers : frame ∈ answers i frames ↔ frame ∈ frames ∧ frame.1 = some i := by
  simp [answers]

theorem answers_eq_nil (foreign : ∀ frame ∈ frames, frame.1 ≠ some i) : answers i frames = [] := by
  simpa [answers] using foreign

theorem Fresh.accounted (fresh : Fresh p) : Accounted p .blank where
  lock i holds := by rw [fresh.phase i] at holds; cases holds
  unread := by rw [fresh.unread]; exact List.nil_subset _
  fresh i _ := by simp [due, fresh.requests, fresh.answering, answers, Wire.blank]
  once i := by simp [due, fresh.requests, fresh.answering]
  ended i written := by cases written
  last i := List.not_mem_nil
  account i written := by rw [fresh.phase i] at written; cases written
  complete i read := by cases read
  closing i frame member := by cases member

theorem Accounted.alone (accounted : Accounted p w) (holds : (p.phase i).holds) (other : j ≠ i) :
    (p.phase j).holds = false := by
  have guards : p.requestLock.Guards fun i => (p.phase i).holds := accounted.lock
  by_contra also
  exact other (guards.only holds (by simpa using also))

/-- A call moves on, and nothing goes over the wire. -/
theorem Accounted.moved (accounted : Accounted p w) (phase : Phase) (phases : q.phase = Function.update p.phase i phase)
    (unread : q.unread = p.unread) (due : q.due = p.due)
    (mine : phase.holds → q.requestLock.holder = some i)
    (kept : ∀ j, j ≠ i → (p.phase j).holds → q.requestLock.holder = some j)
    (forward : (p.phase i).begun → phase.begun) (still : phase.written → (p.phase i).written) :
    Accounted q w := by
  have there : ∀ j, j ≠ i → q.phase j = p.phase j := by
    intro j other
    rw [phases, Function.update_of_ne other]
  have here : q.phase i = phase := by rw [phases, Function.update_self]
  refine ⟨?_, by rw [unread]; exact accounted.unread, ?_, by rw [due]; exact accounted.once,
    by rw [due]; exact accounted.ended, accounted.last, ?_, accounted.complete, accounted.closing⟩
  · intro j holds
    by_cases same : j = i
    · subst same
      exact mine (here ▸ holds)
    · exact kept j same (there j same ▸ holds)
  · intro j unbegun
    rw [due]
    apply accounted.fresh j
    by_cases same : j = i
    · subst same
      by_contra begun
      rw [here, forward (by simpa using begun)] at unbegun
      cases unbegun
    · rwa [there j same] at unbegun
  · intro j written
    rw [unread]
    apply accounted.account j
    by_cases same : j = i
    · subst same
      exact still (here ▸ written)
    · rwa [there j same] at written

theorem Accounted.same (accounted : Accounted p w) (phases : q.phase = p.phase) (unread : q.unread = p.unread)
    (due : q.due = p.due) (lock : q.requestLock = p.requestLock) : Accounted q w := by
  refine accounted.moved (i := 0) (p.phase 0) ?_ unread due ?_ ?_ id id
  · rw [phases, Function.update_eq_self]
  · rw [lock]
    exact accounted.lock 0
  · intro j _ holds
    rw [lock]
    exact accounted.lock j holds

theorem Accounted.setPhase (accounted : Accounted p w) (holds : (p.phase i).holds) (phase : Phase)
    (forward : (p.phase i).begun → phase.begun) (still : phase.written → (p.phase i).written) :
    Accounted (p.setPhase i phase) w :=
  accounted.moved phase rfl rfl rfl (fun _ => accounted.lock i holds) (fun j _ held => accounted.lock j held)
    forward still

theorem Accounted.finish (accounted : Accounted p w) (holds : (p.phase i).holds) :
    Accounted (p.finish i) w := by
  refine accounted.moved .finished rfl rfl rfl nofun ?_ (fun _ => rfl) nofun
  intro j other held
  rw [accounted.alone holds other] at held
  cases held

theorem Accounted.send (accounted : Accounted p w) (holds : (p.phase i).holds)
    (unbegun : (p.phase i).begun = false) (ex : Exchange) (request : Request) :
    Accounted (p.send i ex request) w := by
  obtain ⟨undue, unanswered, nothing⟩ := accounted.fresh i unbegun
  have here : (p.send i ex request).phase i = .flushing ex := Function.update_self ..
  have there : ∀ j, j ≠ i → (p.send i ex request).phase j = p.phase j :=
    fun j other => Function.update_of_ne other ..
  have due : (p.send i ex request).due = p.requests.map Prod.fst ++ [some i] ++ [p.answering] := by
    show (p.requests ++ [(some i, request)]).map Prod.fst ++ [p.answering] = _
    rw [List.map_append]
    rfl
  have undueAfter : ∀ j, j ≠ i → some j ∉ p.due → some j ∉ (p.send i ex request).due := by
    intro j other absent
    rw [due]
    simp only [ProviderProcess.due, List.mem_append, List.mem_singleton, not_or] at absent ⊢
    exact ⟨⟨absent.1, fun same => other (Option.some.inj same)⟩, absent.2⟩
  refine ⟨?_, accounted.unread, ?_, ?_, ?_, accounted.last, ?_, accounted.complete, accounted.closing⟩
  · intro j held
    by_cases same : j = i
    · subst same
      exact accounted.lock j holds
    · exact accounted.lock j (there j same ▸ held)
  · intro j before
    by_cases same : j = i
    · subst same
      rw [here] at before
      cases before
    · rw [there j same] at before
      obtain ⟨absent, rest⟩ := accounted.fresh j before
      exact ⟨undueAfter j same absent, rest⟩
  · intro j
    have count : (p.send i ex request).due.count (some j) = p.due.count (some j) + [some i].count (some j) := by
      rw [due, ProviderProcess.due]
      simp only [List.count_append]
      omega
    rw [count]
    by_cases same : j = i
    · subst same
      rw [List.count_eq_zero.mpr undue]
      simp
    · rw [List.count_singleton, if_neg (by simpa using Ne.symm same)]
      exact accounted.once j
  · intro j written
    by_cases same : j = i
    · subst same
      have answered := mem_answers.mpr ⟨written, rfl⟩
      rw [unanswered] at answered
      cases answered
    · exact undueAfter j same (accounted.ended j written)
  · intro j written
    by_cases same : j = i
    · subst same
      have empty : answers j p.unread = [] := by
        apply answers_eq_nil
        intro frame member answered
        have wrote := mem_answers.mpr ⟨accounted.unread member, answered⟩
        rw [unanswered] at wrote
        cases wrote
      rw [nothing]
      exact ⟨by rw [unanswered]; exact empty, fun _ member => absurd member List.not_mem_nil⟩
    · exact accounted.account j (there j same ▸ written)

theorem Accounted.write (accounted : Accounted p w) (holds : (p.phase i).holds)
    (unbegun : (p.phase i).begun = false) (ex : Exchange) : Accounted (p.write i ex) w := by
  cases ex with
  | listVoices => exact accounted.send holds unbegun _ _
  | synthesize synth =>
    have marked : Accounted { p with needsDrain := true } w := accounted.same rfl rfl rfl rfl
    simp only [ProviderProcess.write]
    split
    · exact marked.finish holds
    · exact marked.send holds unbegun _ _

theorem Accounted.pop (accounted : Accounted p w) (holds : (p.phase i).holds)
    (unbegun : (p.phase i).begun = false) : Accounted p.pop w := by
  refine ⟨accounted.lock, ?_, accounted.fresh, accounted.once, accounted.ended, accounted.last, ?_,
    accounted.complete, accounted.closing⟩
  · exact List.Subset.trans (List.tail_sublist p.unread).subset accounted.unread
  · intro j (written : (p.phase j).written)
    by_cases same : j = i
    · subst same
      rw [Phase.begun_of_written written] at unbegun
      cases unbegun
    · have free := accounted.alone holds same
      rw [Phase.holds_of_written written] at free
      cases free

/-- The provider writes nothing more for a call after its `audio_end`. -/
theorem Accounted.nothing_after (accounted : Accounted p w)
    (whole : answers i (frames ++ [(some i, .audioEnd)]) ++ answers i added = answers i w.wrote) :
    answers i added = [] := by
  have final := accounted.last i
  rw [← whole, answers_append] at final
  by_contra more
  apply final
  rw [List.dropLast_append_of_ne_nil more]
  simp [answers]

/-- A call reads a frame of the answer to its own request. -/
theorem Accounted.heard (accounted : Accounted p w) (written : (p.phase i).written)
    (phases : q.phase = Function.update p.phase i phase)
    (taken : answers i p.unread = answers i [frame] ++ answers i q.unread) (left : q.unread ⊆ p.unread)
    (due : q.due = p.due) (mine : phase.holds → q.requestLock.holder = some i) (begun : phase.begun)
    (unended : phase.written → frame.2 ≠ .audioEnd) :
    Accounted q { w with read := Function.update w.read i (w.read i ++ [frame]) } := by
  have holds := Phase.holds_of_written written
  obtain ⟨account, running⟩ := accounted.account i written
  have here : q.phase i = phase := by rw [phases, Function.update_self]
  have there : ∀ j, j ≠ i → q.phase j = p.phase j := by
    intro j other
    rw [phases, Function.update_of_ne other]
  have whole : answers i (w.read i ++ [frame]) ++ answers i q.unread = answers i w.wrote := by
    rw [answers_append, List.append_assoc, ← taken, account]
  refine ⟨?_, List.Subset.trans left accounted.unread, ?_, by rw [due]; exact accounted.once,
    by rw [due]; exact accounted.ended, accounted.last, ?_, ?_, ?_⟩
  · intro j held
    by_cases same : j = i
    · subst same
      exact mine (here ▸ held)
    · rw [there j same, accounted.alone holds same] at held
      cases held
  · intro j unbegun
    by_cases same : j = i
    · subst same
      rw [here, begun] at unbegun
      cases unbegun
    · rw [there j same] at unbegun
      rw [due]
      simp only [Function.update_of_ne same]
      exact accounted.fresh j unbegun
  · intro j reading
    by_cases same : j = i
    · subst same
      rw [here] at reading
      simp only [Function.update_self]
      refine ⟨whole, fun read member => ?_⟩
      rcases List.mem_append.mp member with earlier | now
      · exact running read earlier
      · rw [List.mem_singleton.mp now]
        exact unended reading
    · rw [there j same] at reading
      have free := accounted.alone holds same
      rw [Phase.holds_of_written reading] at free
      cases free
  · intro j read
    by_cases same : j = i
    · subst same
      simp only [Function.update_self] at read ⊢
      have now : frame = (some j, .audioEnd) := by
        rcases List.mem_append.mp read with earlier | now
        · exact absurd rfl (running _ earlier)
        · exact (List.mem_singleton.mp now).symm
      subst now
      rw [← whole, accounted.nothing_after whole, List.append_nil]
    · simp only [Function.update_of_ne same] at read ⊢
      exact accounted.complete j read
  · intro j
    by_cases same : j = i
    · subst same
      simp only [Function.update_self, List.dropLast_concat]
      exact running
    · simp only [Function.update_of_ne same]
      exact accounted.closing j

theorem Accounted.served (accounted : Accounted p w) (phases : q.phase = p.phase)
    (lock : q.requestLock = p.requestLock) (unread : q.unread = p.unread ++ added)
    (single : added.length ≤ 1) (asked : ∀ i, some i ∈ added.map Prod.fst → some i ∈ p.due)
    (fewer : ∀ i, q.due.count (some i) ≤ p.due.count (some i))
    (through : ∀ i, (some i, .audioEnd) ∈ added → some i ∉ q.due) :
    Accounted q { w with wrote := w.wrote ++ added } := by
  have undue : ∀ i, some i ∉ p.due → some i ∉ q.due := by
    intro i absent
    have none_due := fewer i
    rw [List.count_eq_zero.mpr absent] at none_due
    exact List.count_eq_zero.mp (Nat.le_zero.mp none_due)
  have foreign : ∀ i, some i ∉ p.due → answers i added = [] := by
    intro i absent
    apply answers_eq_nil
    intro frame member answered
    exact absent (asked i (answered ▸ List.mem_map_of_mem member))
  refine ⟨by rw [phases, lock]; exact accounted.lock, ?_, ?_, ?_, ?_, ?_, ?_, ?_, accounted.closing⟩
  · rw [unread]
    exact List.append_subset.mpr
      ⟨List.subset_append_of_subset_left _ accounted.unread, List.subset_append_right ..⟩
  · intro i unbegun
    rw [phases] at unbegun
    obtain ⟨absent, unanswered, nothing⟩ := accounted.fresh i unbegun
    exact ⟨undue i absent, by rw [answers_append, unanswered, foreign i absent]; rfl, nothing⟩
  · intro i
    exact (fewer i).trans (accounted.once i)
  · intro i written
    rcases List.mem_append.mp written with before | now
    · exact undue i (accounted.ended i before)
    · exact through i now
  · intro i final
    rw [answers_append] at final
    by_cases absent : answers i added = []
    · rw [absent, List.append_nil] at final
      exact accounted.last i final
    · obtain ⟨frame, only⟩ : ∃ frame, added = [frame] := by
        obtain _ | ⟨frame, rest⟩ := added
        · exact absurd rfl absent
        · exact ⟨frame, by simpa using single⟩
      subst only
      have mine : frame.1 = some i := by
        by_contra other
        exact absent (answers_eq_nil (by simpa using other))
      have shown : answers i [frame] = [frame] := by simp [answers, mine]
      rw [shown, List.dropLast_concat] at final
      have before := (mem_answers.mp final).1
      exact accounted.ended i before (asked i (by simp [mine]))
  · intro i written
    rw [phases] at written
    obtain ⟨account, running⟩ := accounted.account i written
    exact ⟨by rw [unread, answers_append, ← List.append_assoc, account, answers_append], running⟩
  · intro i read
    have same := accounted.complete i read
    have wrote : (some i, .audioEnd) ∈ answers i w.wrote := same ▸ mem_answers.mpr ⟨read, rfl⟩
    rw [same, answers_append, foreign i (accounted.ended i (mem_answers.mp wrote).1), List.append_nil]

theorem Accounted.react (accounted : Accounted p w) (unbegun : (p.phase i).begun = false)
    (reads : (p.phase i).reads) (now : Nat) (frame : Option TaskId × Response) :
    Accounted (p.react i now frame) w := by
  cases phase : p.phase i with
  | draining ex =>
    simp only [ProviderProcess.react, phase]
    split
    · have cleared : Accounted { p with needsDrain := false } w := accounted.same rfl rfl rfl rfl
      exact cleared.write (Phase.holds_of_reads reads) unbegun ex
    · exact accounted
  | header => rw [phase] at unbegun; cases unbegun
  | streaming => rw [phase] at unbegun; cases unbegun
  | listing => rw [phase] at unbegun; cases unbegun
  | _ => rw [phase] at reads; cases reads

/-- Call `i` has read `response`, and comes to `phase`. -/
structure Hears (p q : ProviderProcess) (i : TaskId) (response : Response) (phase : Phase) : Prop where
  phases : q.phase = Function.update p.phase i phase
  begun : phase.begun
  unread : q.unread = p.unread
  due : q.due = p.due
  lock : phase.holds → q.requestLock = p.requestLock
  unended : phase.written → response ≠ .audioEnd

theorem hears_react (written : (p.phase i).written) (reads : (p.phase i).reads) (now : Nat)
    (frame : Option TaskId × Response) : ∃ phase, Hears p (p.react i now frame) i frame.2 phase := by
  unfold ProviderProcess.react
  split
  · rename_i draining
    rw [draining] at written
    cases written
  · split
    · exact ⟨.finished, rfl, rfl, rfl, rfl, nofun, nofun⟩
    · rename_i header
      exact ⟨.streaming, rfl, rfl, rfl, rfl, fun _ => rfl, fun _ ended => by rw [header] at ended; cases ended⟩
    · exact ⟨.finished, rfl, rfl, rfl, rfl, nofun, nofun⟩
  · rename_i streaming
    dsimp only
    split
    · rename_i chunk
      exact ⟨.yielded, rfl, rfl, rfl, rfl, fun _ => rfl, fun _ ended => by rw [chunk] at ended; cases ended⟩
    · exact ⟨.finished, rfl, rfl, rfl, rfl, nofun, nofun⟩
    · exact ⟨.finished, rfl, rfl, rfl, rfl, nofun, nofun⟩
    · rename_i goesOn _
      refine ⟨.streaming, ?_, rfl, rfl, rfl, fun _ => rfl, fun _ => goesOn⟩
      rw [← streaming, Function.update_eq_self]
  · split
    · exact ⟨.finished, rfl, rfl, rfl, rfl, nofun, nofun⟩
    · exact ⟨.finished, rfl, rfl, rfl, rfl, nofun, nofun⟩
  · rename_i undraining unheaded unstreaming unlisting
    cases phase : p.phase i with
    | draining ex => exact absurd phase (undraining ex)
    | header => exact absurd phase unheaded
    | streaming => exact absurd phase unstreaming
    | listing => exact absurd phase unlisting
    | _ => rw [phase] at reads; cases reads

theorem Accounted.hears {r : ProviderProcess} (accounted : Accounted p w) (written : (p.phase i).written)
    (hears : Hears q r i frame.2 phase) (same : q.phase = p.phase) (lock : q.requestLock = p.requestLock)
    (due : q.due = p.due) (taken : answers i p.unread = answers i [frame] ++ answers i q.unread)
    (left : q.unread ⊆ p.unread) :
    Accounted r { w with read := Function.update w.read i (w.read i ++ [frame]) } := by
  refine accounted.heard written (by rw [hears.phases, same]) (by rw [hears.unread]; exact taken)
    (by rw [hears.unread]; exact left) (hears.due.trans due) ?_ hears.begun hears.unended
  intro holds
  rw [hears.lock holds, lock]
  exact accounted.lock i (Phase.holds_of_written written)

theorem Accounted.abandonDrain (accounted : Accounted p w) (draining : p.phase i = .draining ex) :
    Accounted (p.abandonDrain i ex) w := by
  have failed : Accounted { p with state := .failed, needsDrain := false } w :=
    accounted.same rfl rfl rfl rfl
  exact failed.write (by change (p.phase i).holds; rw [draining]; rfl)
    (by change (p.phase i).begun = false; rw [draining]; rfl) ex

theorem Accounted.raiseRead (accounted : Accounted p w) (reads : (p.phase i).reads) (error : ReadError) :
    Accounted (p.raiseRead i error) w := by
  have holds := Phase.holds_of_reads reads
  unfold ProviderProcess.raiseRead
  split
  · rename_i draining
    exact accounted.abandonDrain draining
  · have cleared : Accounted { p with needsDrain := false } w := accounted.same rfl rfl rfl rfl
    exact cleared.finish holds
  · exact accounted.finish holds

theorem Accounted.interrupt (accounted : Accounted p w) (suspended : (p.phase i).suspended) :
    Accounted (p.interrupt i) w := by
  unfold ProviderProcess.interrupt
  split
  · rename_i queued
    exact accounted.moved (i := i) .finished rfl rfl rfl nofun
      (fun j _ held => accounted.lock j held) (fun _ => rfl) nofun
  · rename_i draining
    have cleared : Accounted { p with needsDrain := false } w := accounted.same rfl rfl rfl rfl
    exact cleared.finish (by change (p.phase i).holds; rw [draining]; rfl)
  · rename_i unqueued _
    refine accounted.finish ?_
    cases phase : p.phase i with
    | queued ex => exact absurd phase (unqueued ex)
    | _ => rw [phase] at suspended; simp_all [Phase.holds, Phase.suspended]

theorem Accounted.requeued (accounted : Accounted p w) (unbegun : (p.phase i).begun = false)
    {lock : FifoLock TaskId} (quiet : phase.written = false) (taken : phase.holds → lock.holder = some i)
    (kept : ∀ j, (p.phase j).holds → lock.holder = some j) :
    Accounted { p.setPhase i phase with requestLock := lock } w := by
  refine accounted.moved (i := i) phase rfl rfl rfl taken (fun j _ held => kept j held) ?_ ?_
  · intro begun
    rw [unbegun] at begun
    cases begun
  · intro written
    rw [quiet] at written
    cases written

theorem Accounted.enter (accounted : Accounted p w) (outside : p.phase i = .outside) (now : Nat)
    (ex : Exchange) : Accounted (p.next now (.enter i ex)) w := by
  have unbegun : (p.phase i).begun = false := by rw [outside]; rfl
  have guards : p.requestLock.Guards fun i => (p.phase i).holds := accounted.lock
  simp only [ProviderProcess.next]
  split
  · rename_i idle
    exact accounted.requeued unbegun rfl (fun _ => rfl) fun j held => absurd held (guards.vacant idle.1 j)
  · exact accounted.requeued unbegun rfl (fun holds => absurd holds Bool.false_ne_true) accounted.lock

theorem note_quiet (now : Nat) (silent : p.writes act = []) (deaf : ∀ i, p.reads i act = []) :
    w.note p (now, act) = w := by
  simp [Wire.note, silent, deaf]

theorem note_heard (now : Nat) (silent : p.writes act = []) (mine : p.reads i act = [frame])
    (others : ∀ j, j ≠ i → p.reads j act = []) :
    w.note p (now, act) = { w with read := Function.update w.read i (w.read i ++ [frame]) } := by
  simp only [Wire.note, silent, List.append_nil, Wire.mk.injEq, true_and]
  funext j
  by_cases same : j = i
  · subst same
    rw [mine, Function.update_self]
  · rw [others j same, Function.update_of_ne same, List.append_nil]

theorem Accounted.read (accounted : Accounted p w) (reads : (p.phase i).reads) (unread : p.unread ≠ [])
    (now : Nat) : Accounted (p.next now (.read i)) (w.note p (now, .read i)) := by
  obtain ⟨frame, rest, split⟩ := List.exists_cons_of_ne_nil unread
  have next : p.next now (.read i) = (p.unpark i).pop.react i now frame := by
    simp only [ProviderProcess.next, split]
  have parked : Accounted (p.unpark i) w := accounted.same rfl rfl rfl rfl
  rw [next]
  cases written : (p.phase i).written with
  | true =>
    have mine : p.reads i (.read i) = [frame] := by simp [ProviderProcess.reads, written, split]
    have others : ∀ j, j ≠ i → p.reads j (.read i) = [] := fun j other => if_neg fun met => other met.1.symm
    rw [note_heard now rfl mine others]
    obtain ⟨phase, hears⟩ := hears_react (p := (p.unpark i).pop) written reads now frame
    refine accounted.hears written hears rfl rfl rfl ?_ ?_
    · have left : (p.unpark i).pop.unread = rest := by
        change p.unread.tail = rest
        rw [split, List.tail_cons]
      rw [left, split, ← answers_append]
      rfl
    · exact (List.tail_sublist p.unread).subset
  | false =>
    have deaf : ∀ j, p.reads j (.read i) = [] := by
      intro j
      refine if_neg fun met => ?_
      obtain ⟨rfl, heard⟩ := met
      rw [written] at heard
      cases heard
    have unbegun := Phase.unbegun_of_reads reads written
    rw [note_quiet now rfl deaf]
    exact (parked.pop (Phase.holds_of_reads reads) unbegun).react unbegun reads now frame

theorem Accounted.garble (accounted : Accounted p w) (reads : (p.phase i).reads) (now : Nat) (b : Response) :
    Accounted (p.next now (.garble i b)) (w.note p (now, .garble i b)) := by
  have next : p.next now (.garble i b) = (p.unpark i).react i now (none, b) := rfl
  have parked : Accounted (p.unpark i) w := accounted.same rfl rfl rfl rfl
  rw [next]
  cases written : (p.phase i).written with
  | true =>
    have mine : p.reads i (.garble i b) = [(none, b)] := by simp [ProviderProcess.reads, written]
    have others : ∀ j, j ≠ i → p.reads j (.garble i b) = [] := fun j other => if_neg fun met => other met.1.symm
    rw [note_heard now rfl mine others]
    obtain ⟨phase, hears⟩ := hears_react (p := p.unpark i) written reads now (none, b)
    refine accounted.hears written hears rfl rfl rfl ?_ (List.Subset.refl _)
    have foreign : answers i [(none, b)] = [] := answers_eq_nil (by simp)
    rw [foreign]
    rfl
  | false =>
    have deaf : ∀ j, p.reads j (.garble i b) = [] := by
      intro j
      refine if_neg fun met => ?_
      obtain ⟨rfl, heard⟩ := met
      rw [written] at heard
      cases heard
    have unbegun := Phase.unbegun_of_reads reads written
    rw [note_quiet now rfl deaf]
    exact parked.react unbegun reads now _

theorem Accounted.serve (accounted : Accounted p w) (now : Nat) (coroutine : ∀ i, p.reads i act = [])
    (phases : q.phase = p.phase) (lock : q.requestLock = p.requestLock)
    (unread : q.unread = p.unread ++ p.writes act) (single : (p.writes act).length ≤ 1)
    (asked : ∀ i, some i ∈ (p.writes act).map Prod.fst → some i ∈ p.due)
    (fewer : ∀ i, q.due.count (some i) ≤ p.due.count (some i))
    (through : ∀ i, (some i, .audioEnd) ∈ p.writes act → some i ∉ q.due) :
    Accounted q (w.note p (now, act)) := by
  have noted : w.note p (now, act) = { w with wrote := w.wrote ++ p.writes act } := by
    simp [Wire.note, coroutine]
  rw [noted]
  exact accounted.served phases lock unread single asked fewer through

theorem Accounted.serveLast (accounted : Accounted p w) (now : Nat) {response : Response}
    (writes : p.writes act = [(p.answering, response)]) (coroutine : ∀ i, p.reads i act = []) :
    Accounted { p with answering := none, unread := p.unread ++ [(p.answering, response)] }
      (w.note p (now, act)) := by
  have due (i : TaskId) : p.due.count (some i) =
      (p.requests.map Prod.fst ++ [none]).count (some i) + [p.answering].count (some i) := by
    simp [ProviderProcess.due]
  refine accounted.serve now coroutine rfl rfl (by rw [writes]) (by simp [writes]) ?_ ?_ ?_
  · intro i written
    rw [writes] at written
    simp only [List.map_cons, List.map_nil, List.mem_singleton] at written
    simp [ProviderProcess.due, written]
  · intro i
    rw [due]
    exact Nat.le_add_right ..
  · intro i written
    rw [writes, List.mem_singleton, Prod.mk.injEq] at written
    have once := accounted.once i
    rw [due, ← written.1, List.count_singleton_self] at once
    exact List.count_eq_zero.mp (Nat.le_zero.mp (Nat.le_of_lt_succ once))

theorem Accounted.serveRequest (accounted : Accounted p w) (now : Nat) {t : Option TaskId} {request : Request}
    {rest : List (Option TaskId × Request)} (answering : Option TaskId) (response : Response)
    (requests : p.requests = (t, request) :: rest) (idle : p.answering = none)
    (writes : p.writes act = [(t, response)]) (coroutine : ∀ i, p.reads i act = [])
    (later : answering = none ∨ answering = t ∧ response ≠ .audioEnd) :
    Accounted { p with requests := rest, answering := answering, unread := p.unread ++ [(t, response)] }
      (w.note p (now, act)) := by
  have due (i : TaskId) : p.due.count (some i) = [t].count (some i) + (rest.map Prod.fst).count (some i) := by
    simp [ProviderProcess.due, requests, idle, List.count_cons]
    omega
  have left (i : TaskId) : (rest.map Prod.fst ++ [answering]).count (some i) =
      (rest.map Prod.fst).count (some i) + [answering].count (some i) := List.count_append ..
  refine accounted.serve now coroutine rfl rfl (by rw [writes]) (by simp [writes]) ?_ ?_ ?_
  · intro i written
    rw [writes] at written
    simp only [List.map_cons, List.map_nil, List.mem_singleton] at written
    simp [ProviderProcess.due, requests, written]
  · intro i
    show (rest.map Prod.fst ++ [answering]).count (some i) ≤ _
    rw [due, left]
    rcases later with rfl | ⟨rfl, -⟩
    · simp
    · omega
  · intro i written
    rw [writes, List.mem_singleton, Prod.mk.injEq] at written
    obtain ⟨rfl, rfl⟩ := written
    have once := accounted.once i
    rw [due, List.count_singleton_self] at once
    show some i ∉ rest.map Prod.fst ++ [answering]
    rw [← List.count_eq_zero, left]
    rcases later with rfl | ⟨-, other⟩
    · simp
      omega
    · exact absurd rfl other

theorem Accounted.next (accounted : Accounted p w) (enabled : p.Enabled act) (now : Nat) :
    Accounted (p.next now act) (w.note p (now, act)) := by
  have unparked (i : TaskId) : Accounted (p.unpark i) w := accounted.same rfl rfl rfl rfl
  cases act with
  | enter i ex =>
    rw [note_quiet now rfl fun _ => rfl]
    exact accounted.enter enabled now ex
  | acquire i =>
    obtain ⟨⟨ex, queued⟩, free, -⟩ := enabled
    have guards : p.requestLock.Guards fun i => (p.phase i).holds := accounted.lock
    rw [note_quiet now rfl fun _ => rfl]
    simp only [ProviderProcess.next, queued]
    exact accounted.requeued (by rw [queued]; rfl) rfl (fun _ => rfl)
      fun j held => absurd held (guards.vacant free j)
  | begin i =>
    obtain ⟨ex, locked⟩ := enabled
    have holds : (p.phase i).holds := by rw [locked]; rfl
    rw [note_quiet now rfl fun _ => rfl]
    simp only [ProviderProcess.next, locked, beginExchange]
    split
    · apply accounted.setPhase holds
      · simp [locked, Phase.begun]
      · simp [Phase.written]
    · exact accounted.write holds (by rw [locked]; rfl) ex
  | park i =>
    rw [note_quiet now rfl fun _ => rfl]
    exact accounted.same rfl rfl rfl rfl
  | read i => exact accounted.read enabled.1 enabled.2.2 now
  | garble i b => exact accounted.garble enabled.1 now b
  | collide i =>
    rw [note_quiet now rfl fun _ => rfl]
    exact accounted.raiseRead enabled.1 .connection
  | lost i error =>
    rw [note_quiet now rfl fun _ => rfl]
    exact (unparked i).raiseRead enabled error
  | timeout i tear =>
    obtain ⟨⟨ex, draining⟩, -⟩ := enabled
    have torn : Accounted ((p.unpark i).tearIf tear) w := accounted.same rfl rfl rfl rfl
    rw [note_quiet now rfl fun _ => rfl]
    simp only [ProviderProcess.next, draining]
    exact torn.abandonDrain draining
  | flushed i =>
    obtain ⟨ex, flushing⟩ := enabled
    have holds : (p.phase i).holds := by rw [flushing]; rfl
    have written : (p.phase i).written := by rw [flushing]; rfl
    rw [note_quiet now rfl fun _ => rfl]
    cases ex with
    | listVoices =>
      simp only [ProviderProcess.next, flushing]
      exact accounted.setPhase holds .listing (fun _ => rfl) fun _ => written
    | synthesize synth =>
      simp only [ProviderProcess.next, flushing]
      exact accounted.setPhase holds .header (fun _ => rfl) fun _ => written
  | unflushed i =>
    obtain ⟨ex, flushing⟩ := enabled
    rw [note_quiet now rfl fun _ => rfl]
    exact accounted.finish (by rw [flushing]; rfl)
  | resume i =>
    rw [note_quiet now rfl fun _ => rfl]
    exact accounted.setPhase (by rw [enabled]; rfl) .streaming (fun _ => rfl) fun _ => by rw [enabled]; rfl
  | close i =>
    rw [note_quiet now rfl fun _ => rfl]
    exact accounted.finish (by rw [enabled]; rfl)
  | cancel i tear =>
    have torn : Accounted ((p.unpark i).tearIf tear) w := accounted.same rfl rfl rfl rfl
    rw [note_quiet now rfl fun _ => rfl]
    exact torn.interrupt enabled.1
  | serveHeader rate =>
    obtain ⟨idle, j, synth, head⟩ := enabled
    obtain ⟨rest, requests⟩ := List.head?_eq_some_iff.mp head
    simp only [ProviderProcess.next, requests]
    exact accounted.serveRequest now (some j) (.synthesizeHeader rate) requests idle (by simp [writes, requests])
      (fun _ => rfl) (.inr ⟨rfl, by simp⟩)
  | serveChunk pcm =>
    refine accounted.serve now (fun _ => rfl) rfl rfl rfl (Nat.le_refl 1) ?_ (fun _ => Nat.le_refl _) ?_
    · intro i written
      rw [List.mem_singleton.mp written]
      exact List.mem_append_right _ (List.mem_singleton_self _)
    · intro i written
      simp [writes] at written
  | serveEnd => exact accounted.serveLast now rfl fun _ => rfl
  | serveError message => exact accounted.serveLast now rfl fun _ => rfl
  | answer b =>
    obtain ⟨idle, some_request⟩ := enabled
    obtain ⟨⟨t, request⟩, rest, requests⟩ := List.exists_cons_of_ne_nil some_request
    simp only [ProviderProcess.next, requests]
    exact accounted.serveRequest now p.answering b requests idle (by simp [writes, requests]) (fun _ => rfl)
      (.inl idle)
  | emit b =>
    refine accounted.serve now (fun _ => rfl) rfl rfl rfl (Nat.le_refl 1) ?_ (fun _ => Nat.le_refl _) ?_
    · intro i written
      simp [writes] at written
    · intro i written
      simp [writes] at written

theorem accounted_of_run {labels : List (Nat × ExchangeAct)} (fresh : Fresh p)
    (run : (exchanges.recorded Wire.note).Run (fun _ _ => True) (p, .blank) labels (q, w)) : Accounted q w := by
  let holds (s : ProviderProcess × Wire) : Prop := Accounted s.1 s.2
  have kept : ∀ s label, holds s → (exchanges.recorded Wire.note).enabled s label → True →
      holds ((exchanges.recorded Wire.note).next s label) :=
    fun s label accounted enabled _ => accounted.next enabled label.1
  have accounted : holds (q, w) := run.invariant kept fresh.accounted
  exact accounted

end ProviderProcess

end Daemon

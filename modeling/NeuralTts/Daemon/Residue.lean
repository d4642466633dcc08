import NeuralTts.Daemon.ExchangeOrder
import NeuralTts.Provider.HandleSynthesize

/-! What the next exchange finds of an answer that its call has left, and what becomes of its
drain: the daemon waits for an `audio_end`, which the provider sends only after a synthesis that
did not fail. -/

namespace Daemon

open Library Provider

namespace ProviderProcess

/-- The request of call `i` is written, and `unread` holds all that the provider sends for it. -/
structure Answering (p : ProviderProcess) (i : TaskId) (frames : List Response) : Prop where
  flushing : ∃ synth, p.phase i = .flushing (.synthesize synth)
  marked : p.needsDrain = true
  ready : p.state = .ready
  whole : p.torn = false
  unread : p.unread = frames.map (some i, ·)

/-- What call `i` does between its write and its end: it reads, yields, and may be closed or
cancelled at any frame. -/
def OwnStep (i : TaskId) : ExchangeAct → Prop
  | .flushed j | .unflushed j | .park j | .read j | .resume j | .close j => j = i
  | .cancel j tear => j = i ∧ tear = false
  | _ => False

/-- How `j` comes to hold the request lock. -/
def Takes (j : TaskId) : ExchangeAct → Prop
  | .enter k _ | .acquire k => k = j
  | _ => False

def drainLabels (p : ProviderProcess) (j : TaskId) (now : Nat) : List (Nat × ExchangeAct) :=
  (now, .begin j) :: List.replicate p.unread.length (now, .read j)

/-- The drain of `j` reads the frames that are left and no other, and leaves the process READY. -/
def DrainsExactly (p : ProviderProcess) (j : TaskId) (ex : Exchange) (now : Nat) : Prop :=
  exchanges.Admits (fun _ _ => True) p (p.drainLabels j now) ∧
  (exchanges.after p (p.drainLabels j now)).unread = [] ∧
  (exchanges.after p (p.drainLabels j now)).phase j ≠ .draining ex ∧
  (exchanges.after p (p.drainLabels j now)).state = .ready

/-- Call `i` has read some of the frames; the mark is cleared by `audio_end` alone. -/
inductive Residue (p : ProviderProcess) (i : TaskId) (frames : List Response) : Prop
  | marked (read left : List Response) (split : frames = read ++ left) (unended : .audioEnd ∉ read)
      (mark : p.needsDrain = true) (unread : p.unread = left.map (some i, ·))
      (first : (p.phase i).beforeHeader → read = [])
  | clean (ended : .audioEnd ∈ frames) (mark : p.needsDrain = false) (unread : p.unread = [])
      (finished : p.phase i = .finished)

structure Consuming (p : ProviderProcess) (i : TaskId) (frames : List Response) : Prop where
  residue : Residue p i frames
  begun : (p.phase i).begun
  synth : (p.phase i).forVoices = false
  ready : p.state = .ready
  whole : p.torn = false

variable {p q : ProviderProcess} {i j : TaskId} {frames : List Response} {ex : Exchange}

theorem Answering.consuming (answering : Answering p i frames) : Consuming p i frames := by
  obtain ⟨synth, flushing⟩ := answering.flushing
  refine ⟨.marked [] frames rfl List.not_mem_nil answering.marked answering.unread fun _ => rfl,
    ?_, ?_, answering.ready, answering.whole⟩
  · rw [flushing]; rfl
  · rw [flushing]; rfl

theorem Consuming.same (consuming : Consuming p i frames) (mark : q.needsDrain = p.needsDrain)
    (unread : q.unread = p.unread) (phase : q.phase i = p.phase i) (state : q.state = p.state)
    (whole : q.torn = p.torn) : Consuming q i frames := by
  refine ⟨?_, by rw [phase]; exact consuming.begun, by rw [phase]; exact consuming.synth,
    state.trans consuming.ready, whole.trans consuming.whole⟩
  cases consuming.residue with
  | marked read left split unended marked rest first =>
    exact .marked read left split unended (mark.trans marked) (unread.trans rest) (by rwa [phase])
  | clean ended unmarked empty finished =>
    exact .clean ended (mark.trans unmarked) (unread.trans empty) (phase.trans finished)

theorem Consuming.finish (consuming : Consuming p i frames) : Consuming (p.finish i) i frames := by
  have finished : (p.finish i).phase i = .finished := Function.update_self ..
  refine ⟨?_, by rw [finished]; rfl, by rw [finished]; rfl, consuming.ready, consuming.whole⟩
  cases consuming.residue with
  | marked read left split unended mark unread first =>
    exact .marked read left split unended mark unread (by rw [finished]; nofun)
  | clean ended mark unread _ => exact .clean ended mark unread finished

theorem Consuming.advance (consuming : Consuming p i frames) {phase : Phase}
    (running : (p.phase i).written) (begun : phase.begun) (synth : phase.forVoices = false)
    (first : phase.beforeHeader → (p.phase i).beforeHeader) :
    Consuming (p.setPhase i phase) i frames := by
  have here : (p.setPhase i phase).phase i = phase := Function.update_self ..
  refine ⟨?_, by rw [here]; exact begun, by rw [here]; exact synth, consuming.ready, consuming.whole⟩
  cases consuming.residue with
  | marked read left split unended mark unread start =>
    exact .marked read left split unended mark unread (by rw [here]; exact fun at_ => start (first at_))
  | clean _ _ _ finished => rw [finished] at running; cases running

theorem Residue.drop {read left : List Response} {frame : Response}
    (split : frames = read ++ frame :: left) (unended : .audioEnd ∉ read) (other : frame ≠ .audioEnd)
    (mark : q.needsDrain = true) (unread : q.unread = left.map (some i, ·))
    (later : (q.phase i).beforeHeader = false) : Residue q i frames := by
  refine .marked (read ++ [frame]) left (by simp [split]) ?_ mark unread (by rw [later]; nofun)
  simp [unended, other.symm]

section Stream

variable {rate : Int} {s : Synthesis}

theorem Consuming.read (consuming : Consuming p i (handleSynthesize rate s))
    (reads : (p.phase i).reads) (unread : p.unread ≠ []) (now : Nat) :
    Consuming (p.next now (.read i)) i (handleSynthesize rate s) := by
  obtain ⟨residue, begun, synth, ready, whole⟩ := consuming
  cases residue with
  | clean _ _ empty => exact absurd empty unread
  | marked read left split unended mark frames first =>
    cases left with
    | nil => exact absurd frames unread
    | cons frame left =>
      have rest : (p.unpark i).pop.unread = left.map (some i, ·) := by simp [pop, unpark, frames]
      simp only [List.map_cons] at frames
      simp only [next, frames]
      cases phase : p.phase i with
      | header =>
        have start := first (by rw [phase]; rfl)
        subst start
        cases split
        have here : (p.unpark i).pop.phase i = .header := phase
        simp only [react, here]
        exact ⟨.marked [.synthesizeHeader rate] _ rfl (by simp) mark rest
          (by simp [setPhase, Phase.beforeHeader]), by simp [setPhase, Phase.begun],
          by simp [setPhase, Phase.forVoices], ready, whole⟩
      | streaming =>
        have here : (p.unpark i).pop.phase i = .streaming := phase
        cases frame with
        | audioChunk pcm =>
          simp only [react, here]
          exact ⟨.drop split unended (by simp) mark rest (by simp [setPhase, Phase.beforeHeader]),
            by simp [setPhase, Phase.begun], by simp [setPhase, Phase.forVoices], ready, whole⟩
        | audioEnd =>
          simp only [react, here]
          have last := audioEnd_last split
          subst last
          exact ⟨.clean (by simp [split]) rfl rest (by simp [ProviderProcess.finish, setPhase]),
            by simp [ProviderProcess.finish, setPhase, Phase.begun],
            by simp [ProviderProcess.finish, setPhase, Phase.forVoices], ready, whole⟩
        | error message =>
          simp only [react, here]
          exact ⟨.drop split unended (by simp) mark rest
            (by simp [ProviderProcess.finish, setPhase, Phase.beforeHeader]),
            by simp [ProviderProcess.finish, setPhase, Phase.begun],
            by simp [ProviderProcess.finish, setPhase, Phase.forVoices], ready, whole⟩
        | _ =>
          simp only [react, here]
          exact ⟨.drop split unended (by simp) mark rest (by simp [here, Phase.beforeHeader]),
            by simp [here, Phase.begun], by simp [here, Phase.forVoices], ready, whole⟩
      | listing => rw [phase] at synth; cases synth
      | draining => rw [phase] at begun; cases begun
      | _ => rw [phase] at reads; cases reads

theorem Consuming.step (consuming : Consuming p i (handleSynthesize rate s)) {now : Nat}
    {act : ExchangeAct} (enabled : p.Enabled act) (own : OwnStep i act) :
    Consuming (p.next now act) i (handleSynthesize rate s) := by
  cases act with
  | park j => exact consuming.same rfl rfl rfl rfl rfl
  | read j =>
    obtain rfl := own
    exact consuming.read enabled.1 enabled.2.2 now
  | flushed j =>
    obtain rfl := own
    obtain ⟨ex, flushing⟩ := enabled
    cases ex with
    | listVoices =>
      have synth := consuming.synth
      rw [flushing] at synth
      cases synth
    | synthesize request =>
      simp only [ProviderProcess.next, flushing]
      exact consuming.advance (by rw [flushing]; rfl) rfl rfl (by rw [flushing]; exact fun _ => rfl)
  | unflushed j =>
    obtain rfl := own
    exact consuming.finish
  | resume j =>
    obtain rfl := own
    exact consuming.advance (by rw [enabled]; rfl) rfl rfl fun early => by cases early
  | close j =>
    obtain rfl := own
    exact consuming.finish
  | cancel j tear =>
    obtain ⟨rfl, rfl⟩ := own
    have same : Consuming ((p.unpark j).tearIf false) j (handleSynthesize rate s) :=
      consuming.same rfl rfl rfl rfl (by simp [tearIf, unpark])
    have phases : ((p.unpark j).tearIf false).phase j = p.phase j := rfl
    have begun := consuming.begun
    cases phase : p.phase j with
    | queued => rw [phase] at begun; cases begun
    | draining => rw [phase] at begun; cases begun
    | _ =>
      simp only [ProviderProcess.next, interrupt, phases, phase]
      exact same.finish
  | _ => exact own.elim

end Stream

section Drain

theorem unread_write (p : ProviderProcess) (j : TaskId) (ex : Exchange) :
    (p.write j ex).unread = p.unread := by
  cases ex with
  | listVoices => rfl
  | synthesize => simp only [write]; split <;> rfl

theorem state_write (p : ProviderProcess) (j : TaskId) (ex : Exchange) :
    (p.write j ex).state = p.state := by
  cases ex with
  | listVoices => rfl
  | synthesize => simp only [write]; split <;> rfl

theorem phase_write (p : ProviderProcess) (j : TaskId) (ex : Exchange) :
    (p.write j ex).phase j ≠ .draining ex := by
  cases ex with
  | listVoices => simp [write, send, setPhase]
  | synthesize => simp only [write]; split <;> simp [send, ProviderProcess.finish, setPhase]

structure Draining (p : ProviderProcess) (j : TaskId) (ex : Exchange)
    (unread : List (Option TaskId × Response)) : Prop where
  phase : p.phase j = .draining ex
  unread : p.unread = unread
  ready : p.state = .ready
  whole : p.torn = false

variable {unread : List (Option TaskId × Response)} {frame : Option TaskId × Response} {now : Nat}

theorem Draining.enabled (draining : Draining p j ex (frame :: unread)) : p.Enabled (.read j) :=
  ⟨by rw [draining.phase]; rfl, draining.whole, by rw [draining.unread]; nofun⟩

theorem Draining.drop (draining : Draining p j ex (frame :: unread)) (other : frame.2 ≠ .audioEnd) :
    Draining (p.next now (.read j)) j ex unread := by
  have here : (p.unpark j).pop.phase j = .draining ex := draining.phase
  have dropped : p.next now (.read j) = (p.unpark j).pop := by
    obtain ⟨t, response⟩ := frame
    cases response with
    | audioEnd => exact absurd rfl other
    | _ => simp only [next, draining.unread, react, here]
  rw [dropped]
  exact ⟨here, by simp [pop, unpark, draining.unread], draining.ready, draining.whole⟩

theorem Draining.run (now : Nat) (draining : Draining p j ex unread)
    (unended : ∀ frame ∈ unread, frame.2 ≠ .audioEnd) :
    exchanges.Admits (fun _ _ => True) p (List.replicate unread.length (now, .read j)) ∧
    Draining (exchanges.after p (List.replicate unread.length (now, .read j))) j ex [] := by
  induction unread generalizing p with
  | nil => exact ⟨trivial, draining⟩
  | cons frame rest ih =>
    have step : Draining (p.next now (.read j)) j ex rest :=
      draining.drop (unended frame List.mem_cons_self)
    obtain ⟨admitted, waiting⟩ := ih step fun frame member =>
      unended frame (List.mem_cons_of_mem _ member)
    exact ⟨⟨⟨draining.enabled, trivial⟩, admitted⟩, waiting⟩

theorem Draining.ends (now : Nat) {t : Option TaskId}
    (draining : Draining p j ex (unread ++ [(t, .audioEnd)]))
    (unended : ∀ frame ∈ unread, frame.2 ≠ .audioEnd) :
    exchanges.Admits (fun _ _ => True) p (List.replicate (unread.length + 1) (now, .read j)) ∧
    (exchanges.after p (List.replicate (unread.length + 1) (now, .read j))).unread = [] ∧
    (exchanges.after p (List.replicate (unread.length + 1) (now, .read j))).phase j ≠ .draining ex ∧
    (exchanges.after p (List.replicate (unread.length + 1) (now, .read j))).state = .ready := by
  induction unread generalizing p with
  | nil =>
    have here : (p.unpark j).pop.phase j = .draining ex := draining.phase
    have wrote : p.next now (.read j) =
        ({ (p.unpark j).pop with needsDrain := false } : ProviderProcess).write j ex := by
      simp only [next, draining.unread, List.nil_append, react, here]
    refine ⟨⟨⟨draining.enabled, trivial⟩, trivial⟩, ?_, ?_, ?_⟩
    · change (p.next now (.read j)).unread = []
      rw [wrote, unread_write]
      simp [pop, unpark, draining.unread]
    · change (p.next now (.read j)).phase j ≠ .draining ex
      rw [wrote]
      exact phase_write _ _ _
    · change (p.next now (.read j)).state = .ready
      rw [wrote, state_write]
      exact draining.ready
  | cons frame rest ih =>
    have step : Draining (p.next now (.read j)) j ex (rest ++ [(t, .audioEnd)]) :=
      draining.drop (unended frame List.mem_cons_self)
    obtain ⟨admitted, finished⟩ := ih step fun frame member =>
      unended frame (List.mem_cons_of_mem _ member)
    exact ⟨⟨⟨draining.enabled, trivial⟩, admitted⟩, finished⟩

end Drain

theorem next_begin (locked : p.phase j = .locked ex) {now : Nat} :
    p.next now (.begin j) = p.beginExchange j ex := by
  simp only [next, locked]

theorem Takes.keeps {act : ExchangeAct} (takes : Takes j act) (now : Nat) :
    (p.next now act).unread = p.unread ∧ (p.next now act).needsDrain = p.needsDrain ∧
    (p.next now act).state = p.state ∧ (p.next now act).torn = p.torn := by
  cases act with
  | enter k ex => simp only [next]; split <;> exact ⟨rfl, rfl, rfl, rfl⟩
  | acquire k => simp only [next]; split <;> exact ⟨rfl, rfl, rfl, rfl⟩
  | _ => exact takes.elim

theorem drainsExactly_of_clean (locked : p.phase j = .locked ex) (clean : p.needsDrain = false)
    (empty : p.unread = []) (ready : p.state = .ready) (now : Nat) : DrainsExactly p j ex now := by
  have step : p.next now (.begin j) = p.write j ex := by
    rw [next_begin locked, beginExchange, clean]
    rfl
  have labels : p.drainLabels j now = [(now, .begin j)] := by
    simp [drainLabels, empty]
  have begins : p.Enabled (.begin j) := ⟨ex, locked⟩
  simp only [DrainsExactly, labels]
  refine ⟨⟨⟨begins, trivial⟩, trivial⟩, ?_, ?_, ?_⟩
  · change (p.next now (.begin j)).unread = []
    rw [step, unread_write, empty]
  · change (p.next now (.begin j)).phase j ≠ .draining ex
    rw [step]
    exact phase_write _ _ _
  · change (p.next now (.begin j)).state = .ready
    rw [step, state_write, ready]

theorem notEnd_of_notMem {left : List Response} (i : TaskId) (absent : .audioEnd ∉ left) :
    ∀ frame ∈ left.map (some i, ·), frame.2 ≠ Response.audioEnd := by
  intro frame member
  obtain ⟨response, inside, rfl⟩ := List.mem_map.mp member
  rintro rfl
  exact absent inside

/-- On a marked stream the drain is exact if and only if the frames that are left have an
`audio_end`, provided that nothing can follow it. -/
theorem drainsExactly_iff_ends {left : List Response} (locked : p.phase j = .locked ex)
    (marked : p.needsDrain = true) (rest : p.unread = left.map (some i, ·)) (ready : p.state = .ready)
    (whole : p.torn = false) (last : ∀ before after, left = before ++ .audioEnd :: after → after = [])
    (now : Nat) : DrainsExactly p j ex now ↔ .audioEnd ∈ left := by
  have step : p.next now (.begin j) = p.setPhase j (.draining ex) := by
    rw [next_begin locked, beginExchange, marked]
    rfl
  have begins : p.Enabled (.begin j) := ⟨ex, locked⟩
  have draining : Draining (p.next now (.begin j)) j ex (left.map (some i, ·)) := by
    rw [step]
    exact ⟨Function.update_self .., rest, ready, whole⟩
  have labels : p.drainLabels j now = (now, .begin j) :: List.replicate left.length (now, .read j) := by
    simp [drainLabels, rest]
  rw [DrainsExactly, labels]
  constructor
  · intro exactly_
    by_contra absent
    have waiting := (draining.run now (notEnd_of_notMem i absent)).2
    rw [List.length_map] at waiting
    exact exactly_.2.2.1 waiting.phase
  · intro ended
    obtain ⟨before, after, parts, absent⟩ := List.eq_append_cons_of_mem ended
    obtain rfl := last before after parts
    have shape : left.map (some i, ·) = before.map (some i, ·) ++ [(some i, .audioEnd)] := by
      simp [parts]
    rw [shape] at draining
    have done := draining.ends now (notEnd_of_notMem i absent)
    rw [List.length_map] at done
    rw [parts, List.length_append, List.length_singleton]
    exact ⟨⟨⟨begins, trivial⟩, done.1⟩, done.2⟩

/-- The next exchange drains exactly what an earlier call has left, wherever that call has stopped,
if and only if the synthesis for the earlier call did not fail. -/
theorem drainsExactly_iff_completes {rate : Int} {s : Synthesis}
    {labels : List (Nat × ExchangeAct)} {act : ExchangeAct} {now : Nat}
    (answering : Answering p i (handleSynthesize rate s))
    (own : exchanges.Run (fun _ label => OwnStep i label.2) p labels q)
    (takes : Takes j act)
    (locked : (q.next now act).phase j = .locked ex) :
    DrainsExactly (q.next now act) j ex now ↔ s.Completes := by
  have preserved : ∀ p label, Consuming p i (handleSynthesize rate s) → exchanges.enabled p label →
      OwnStep i label.2 → Consuming (exchanges.next p label) i (handleSynthesize rate s) :=
    fun _ _ consuming enabled met => consuming.step enabled met
  have consumed := own.invariant preserved answering.consuming
  obtain ⟨unread, mark, state, torn⟩ := takes.keeps (p := q) now
  have ready := state.trans consumed.ready
  rw [← audioEnd_mem_handleSynthesize rate s]
  cases consumed.residue with
  | clean ended clean empty _ =>
    have exactly_ := drainsExactly_of_clean locked (mark.trans clean) (unread.trans empty) ready now
    exact iff_of_true exactly_ ended
  | marked read left split unended marked rest _ =>
    have last : ∀ before after, left = before ++ .audioEnd :: after → after = [] := by
      intro before after parts
      have whole : handleSynthesize rate s = (read ++ before) ++ .audioEnd :: after := by
        rw [split, parts, List.append_assoc]
      exact audioEnd_last whole
    have exactly_ := drainsExactly_iff_ends locked (mark.trans marked) (unread.trans rest) ready
      (torn.trans consumed.whole) last now
    rw [exactly_, split, List.mem_append]
    exact (or_iff_right unended).symm

def answered (frames : List Response) : ProviderProcess :=
  { warmed.setPhase 1 (.flushing (saying "one")) with
    needsDrain := true
    unread := frames.map (some 1, ·) }

theorem answered_answering (frames : List Response) : Answering (answered frames) 1 frames :=
  ⟨⟨_, rfl⟩, rfl, rfl, rfl, rfl⟩

def outOfMemory : Synthesis := ⟨[[0, 0, 0, 0]], some "OutOfMemoryError: CUDA out of memory"⟩

def readsError : List (Nat × ExchangeAct) :=
  [.flushed 1, .read 1, .read 1, .resume 1, .read 1].map (0, ·)

theorem failed_synthesis_stalls :
    ¬∀ (rate : Int) (s : Synthesis) (p q : ProviderProcess) (i j : TaskId) (ex : Exchange)
      (labels : List (Nat × ExchangeAct)) (act : ExchangeAct) (now : Nat),
      Answering p i (handleSynthesize rate s) →
      exchanges.Run (fun _ label => OwnStep i label.2) p labels q → Takes j act →
      (q.next now act).phase j = .locked ex → DrainsExactly (q.next now act) j ex now := by
  intro claimed
  have read : exchanges.Admits (fun _ label => OwnStep 1 label.2)
      (answered (handleSynthesize 24000 outOfMemory)) readsError :=
    ⟨⟨⟨_, rfl⟩, rfl⟩, ⟨⟨rfl, rfl, nofun⟩, rfl⟩, ⟨⟨rfl, rfl, nofun⟩, rfl⟩, ⟨rfl, rfl⟩,
      ⟨⟨rfl, rfl, nofun⟩, rfl⟩, trivial⟩
  have drained := claimed 24000 outOfMemory _ _ 1 2 (saying "two") readsError (.enter 2 (saying "two")) 0
    (answered_answering _) read.run rfl rfl
  exact drained.2.2.1 rfl

def twoChunks : Synthesis := ⟨[[0, 0, 0, 0], [0, 0, 128, 63]], none⟩

def closesFirst : List (Nat × ExchangeAct) := [.flushed 1, .read 1, .read 1, .close 1].map (0, ·)

theorem closed_call_drains : DrainsExactly
    ((exchanges.after (answered (handleSynthesize 24000 twoChunks)) closesFirst).next 0
      (.enter 2 (saying "two"))) 2 (saying "two") 0 := by
  have closed : exchanges.Admits (fun _ label => OwnStep 1 label.2)
      (answered (handleSynthesize 24000 twoChunks)) closesFirst :=
    ⟨⟨⟨_, rfl⟩, rfl⟩, ⟨⟨rfl, rfl, nofun⟩, rfl⟩, ⟨⟨rfl, rfl, nofun⟩, rfl⟩, ⟨rfl, rfl⟩, trivial⟩
  have takes : Takes 2 (.enter 2 (saying "two")) := rfl
  exact (drainsExactly_iff_completes (answered_answering _) closed.run takes rfl).mpr (by decide)

end ProviderProcess

end Daemon

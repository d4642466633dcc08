import NeuralTts.Library.Transition

/-! Threads that hand items to a coroutine: what a thread posts to the loop is run in order and fills a
queue, from which the coroutine takes. A relay has one piece of work after another done so. -/

namespace Library

universe u v

namespace Handoff

/-- What a thread does: the items that it emits, and the exception that it raises after them. -/
structure Work (α : Type u) (ε : Type v) where
  emits : List α
  raises : Option ε

inductive Item (α : Type u) (ε : Type v)
  | chunk (a : α)
  | finished
  | failed (e : ε)

inductive Ending (ε : Type v)
  | returned
  | raised (e : ε)
  | left
  | abandoned
deriving DecidableEq

/-- The coroutine takes from the queue, or waits for the thread on its way to an ending, or is over. -/
inductive Consumer (ε : Type v)
  | receiving
  | settling (ending : Ending ε)
  | closed (ending : Ending ε)

structure State (α : Type u) (ε : Type v) where
  /-- What the thread has still to emit, and what it raises. -/
  work : Work α ε
  running : Bool
  posted : List (Item α ε)
  queue : List (Item α ε)
  yielded : List α
  consumer : Consumer ε

inductive Label
  | emit
  | finish
  /-- The thread sees that the coroutine has left. -/
  | abort
  | deliver
  | receive
  | leave
  /-- The coroutine is dropped at its `yield`, or cancelled while it waits: nothing waits for the thread. -/
  | abandon
  | settle
deriving DecidableEq

variable {α : Type u} {ε : Type v}

def Work.last (w : Work α ε) : Item α ε :=
  match w.raises with
  | none => .finished
  | some e => .failed e

def Work.ending (w : Work α ε) : Ending ε :=
  match w.raises with
  | none => .returned
  | some e => .raised e

def chunks (items : List (Item α ε)) : List α :=
  items.filterMap fun
    | .chunk a => some a
    | _ => none

def Ending.Stayed (ending : Ending ε) : Prop := ending ≠ .left ∧ ending ≠ .abandoned

def Consumer.Gone (consumer : Consumer ε) : Prop := (∃ ending, consumer = .settling ending) ∨ consumer = .closed .abandoned

namespace State

def start (w : Work α ε) : State α ε := ⟨w, true, [], [], [], .receiving⟩

def enabled (mayAbort : Bool) (s : State α ε) : Label → Prop
  | .emit => s.running = true ∧ s.work.emits ≠ []
  | .finish => s.running = true ∧ s.work.emits = []
  | .abort => mayAbort = true ∧ s.running = true ∧ s.consumer.Gone
  | .deliver => s.posted ≠ []
  | .receive => s.consumer = .receiving ∧ s.queue ≠ []
  | .leave => s.consumer = .receiving
  | .abandon => s.consumer = .receiving ∨ ∃ ending, s.consumer = .settling ending
  | .settle => s.running = false ∧ ∃ ending, s.consumer = .settling ending

def emit (s : State α ε) : State α ε :=
  match s.work.emits with
  | [] => s
  | a :: rest => { s with work := ⟨rest, s.work.raises⟩, posted := s.posted ++ [.chunk a] }

/-- The last that the thread posts. -/
def post (s : State α ε) (item : Item α ε) : State α ε := { s with running := false, posted := s.posted ++ [item] }

def deliver (s : State α ε) : State α ε :=
  match s.posted with
  | [] => s
  | item :: rest => { s with posted := rest, queue := s.queue ++ [item] }

def receive (s : State α ε) : State α ε :=
  match s.queue with
  | [] => s
  | .chunk a :: rest => { s with queue := rest, yielded := s.yielded ++ [a] }
  | .finished :: rest => { s with queue := rest, consumer := .settling .returned }
  | .failed e :: rest => { s with queue := rest, consumer := .settling (.raised e) }

def settle (s : State α ε) : State α ε :=
  match s.consumer with
  | .settling ending => { s with consumer := .closed ending }
  | _ => s

def next (s : State α ε) : Label → State α ε
  | .emit => s.emit
  | .finish => s.post s.work.last
  | .abort => s.post .finished
  | .deliver => s.deliver
  | .receive => s.receive
  | .leave => { s with consumer := .settling .left }
  | .abandon => { s with consumer := .closed .abandoned }
  | .settle => s.settle

end State

/-- Piece after piece: what the coroutine has yielded of those before, the piece that it is at, and those
after. -/
structure Relay (α : Type u) (ε : Type v) where
  earlier : List α
  current : State α ε
  todo : List (Work α ε)

inductive RelayLabel
  | piece (label : Label)
  | proceed
deriving DecidableEq

namespace Relay

def start (first : Work α ε) (rest : List (Work α ε)) : Relay α ε := ⟨[], .start first, rest⟩

def yielded (r : Relay α ε) : List α := r.earlier ++ r.current.yielded

/-- How the coroutine has ended, if it has. -/
def ending (r : Relay α ε) : Option (Ending ε) :=
  match r.current.consumer, r.todo with
  | .closed .returned, [] => some .returned
  | .closed .returned, _ :: _ => none
  | .closed ending, _ => some ending
  | _, _ => none

/-- A thread may abort, in the relays that tell it to, once the coroutine waits for it. -/
def system (mayAbort : Bool) : System (Relay α ε) RelayLabel where
  enabled r
    | .piece label => r.current.enabled mayAbort label
    | .proceed => r.current.consumer = .closed .returned ∧ r.todo ≠ []
  next r
    | .piece label => { r with current := r.current.next label }
    | .proceed =>
      match r.todo with
      | [] => r
      | w :: rest => ⟨r.earlier ++ r.current.yielded, .start w, rest⟩

end Relay

/-- What the pieces come to, one after another up to the first that raises. -/
def outcome : List (Work α ε) → List α × Ending ε
  | [] => ([], .returned)
  | w :: rest =>
    match w.raises with
    | some e => (w.emits, .raised e)
    | none => (w.emits ++ (outcome rest).1, (outcome rest).2)

/-- Nothing is lost, doubled or out of order; the end comes after all of it, and a coroutine that is over
leaves no thread behind, unless it was abandoned. -/
structure Sound (w : Work α ε) (s : State α ε) : Prop where
  raises : s.work.raises = w.raises
  order : s.yielded ++ chunks s.queue ++ chunks s.posted ++ s.work.emits = w.emits
  openEnd : s.consumer = .receiving → s.running = true →
    s.queue ++ s.posted = (chunks (s.queue ++ s.posted)).map .chunk
  closedEnd : s.consumer = .receiving → s.running = false → s.work.emits = [] ∧
    s.queue ++ s.posted = (chunks (s.queue ++ s.posted)).map .chunk ++ [w.last]
  ended : ∀ ending : Ending ε, (s.consumer = .settling ending ∨ s.consumer = .closed ending) → ending.Stayed →
    ending = w.ending ∧ s.yielded = w.emits ∧ s.running = false
  closed : ∀ ending, s.consumer = .closed ending → ending ≠ .abandoned → s.running = false

variable {w : Work α ε} {s : State α ε} {items more : List (Item α ε)} {mayAbort : Bool}

@[simp] theorem chunks_nil : chunks ([] : List (Item α ε)) = [] := rfl

@[simp] theorem chunks_append : chunks (items ++ more) = chunks items ++ chunks more := List.filterMap_append

@[simp] theorem chunks_chunk (a : α) (rest : List (Item α ε)) : chunks (.chunk a :: rest) = a :: chunks rest := rfl

@[simp] theorem chunks_last (w : Work α ε) (rest : List (Item α ε)) : chunks (w.last :: rest) = chunks rest := by
  unfold Work.last
  cases w.raises <;> rfl

@[simp] theorem chunks_finished (rest : List (Item α ε)) : chunks (.finished :: rest) = chunks rest := rfl

theorem sound_start (w : Work α ε) : Sound w (.start w) where
  raises := rfl
  order := rfl
  openEnd _ _ := rfl
  closedEnd _ ran := nomatch ran
  ended _ reached := by rcases reached with settling | closed <;> contradiction
  closed _ reached := nomatch reached

theorem stayed_returned : (Ending.returned : Ending ε).Stayed := ⟨nofun, nofun⟩

theorem last_work (sound : Sound w s) : s.work.last = w.last := by
  unfold Work.last
  rw [sound.raises]

theorem Sound.not_ended (sound : Sound w s) (running : s.running = true) {ending : Ending ε}
    (reached : s.consumer = .settling ending ∨ s.consumer = .closed ending) : ¬ending.Stayed := by
  intro stayed
  cases running.symm.trans (sound.ended ending reached stayed).2.2

theorem Sound.emit (sound : Sound w s) (running : s.running = true) : Sound w s.emit := by
  unfold State.emit
  cases emits : s.work.emits with
  | nil => exact sound
  | cons a rest =>
    refine ⟨sound.raises, ?_, ?_, ?_, ?_, sound.closed⟩
    · have order := sound.order
      rw [emits] at order
      simpa using order
    · intro receiving _
      have chunked := sound.openEnd receiving running
      dsimp only
      rw [← List.append_assoc, chunks_append, List.map_append, ← chunked]
      rfl
    · intro _ stopped
      cases running.symm.trans stopped
    · intro ending reached stayed
      exact absurd stayed (sound.not_ended running reached)

theorem Sound.finish (sound : Sound w s) (running : s.running = true) (done : s.work.emits = []) :
    Sound w (s.post s.work.last) where
  raises := sound.raises
  order := by simpa [State.post] using sound.order
  openEnd _ still := nomatch still
  closedEnd receiving _ := by
    have chunked := sound.openEnd receiving running
    refine ⟨done, ?_⟩
    dsimp only [State.post]
    rw [← List.append_assoc, chunks_append, chunks_last, chunks_nil, List.append_nil, ← chunked, last_work sound]
  ended ending reached stayed := absurd stayed (sound.not_ended running reached)
  closed _ _ _ := rfl

theorem Sound.abort (sound : Sound w s) (running : s.running = true) (gone : s.consumer.Gone) :
    Sound w (s.post .finished) where
  raises := sound.raises
  order := by simpa [State.post] using sound.order
  openEnd _ still := nomatch still
  closedEnd receiving _ := by
    rcases gone with ⟨ending, settling⟩ | abandoned
    · cases settling.symm.trans receiving
    · cases abandoned.symm.trans receiving
  ended ending reached stayed := absurd stayed (sound.not_ended running reached)
  closed _ _ _ := rfl

theorem Sound.deliver (sound : Sound w s) : Sound w s.deliver := by
  unfold State.deliver
  cases posted : s.posted with
  | nil => exact sound
  | cons item rest =>
    have moved : s.queue ++ s.posted = s.queue ++ [item] ++ rest := by
      rw [posted, List.append_assoc]
      rfl
    refine ⟨sound.raises, ?_, ?_, ?_, sound.ended, sound.closed⟩
    · have order := sound.order
      rw [List.append_assoc s.yielded, ← chunks_append, moved, chunks_append, ← List.append_assoc] at order
      exact order
    · have chunked := sound.openEnd
      rwa [moved] at chunked
    · have chunked := sound.closedEnd
      rwa [moved] at chunked

/-- The coroutine finds the end of the queue only after the thread's. -/
theorem Sound.end_received (sound : Sound w s) (receiving : s.consumer = .receiving) {item : Item α ε}
    {rest : List (Item α ε)} (queue : s.queue = item :: rest) (last : ∀ a, item ≠ .chunk a) :
    s.running = false ∧ item = w.last ∧ s.yielded = w.emits ∧ rest = [] ∧ s.posted = [] := by
  have head {chunked : List α} {more : List (Item α ε)}
      (same : item :: rest ++ s.posted = chunked.map .chunk ++ more) : chunked = [] := by
    cases chunked with
    | nil => rfl
    | cons a chunked => exact absurd (List.cons.inj same).1 (last a)
  cases running : s.running with
  | true =>
    have chunked := sound.openEnd receiving running
    rw [queue, ← List.append_nil (List.map _ _)] at chunked
    rw [head chunked] at chunked
    cases chunked
  | false =>
    obtain ⟨done, chunked⟩ := sound.closedEnd receiving running
    rw [queue] at chunked
    have none := head chunked
    rw [none, List.map_nil, List.nil_append, List.cons_append] at chunked
    obtain ⟨same, nothing⟩ := List.cons.inj chunked
    obtain ⟨rfl, posted⟩ := List.append_eq_nil_iff.mp nothing
    have order := sound.order
    rw [queue, posted, done, same, chunks_last] at order
    exact ⟨rfl, same, by simpa using order, rfl, posted⟩

theorem Sound.receive_end (sound : Sound w s) (receiving : s.consumer = .receiving) {item : Item α ε}
    {rest : List (Item α ε)} (queue : s.queue = item :: rest) (last : ∀ a, item ≠ .chunk a) :
    Sound w { s with queue := rest, consumer := .settling w.ending } := by
  obtain ⟨stopped, rfl, whole, rfl, posted⟩ := sound.end_received receiving queue last
  have order := sound.order
  rw [queue, chunks_last] at order
  refine ⟨sound.raises, order, nofun, nofun, ?_, nofun⟩
  intro ending reached _
  rcases reached with settling | closed
  · cases settling
    exact ⟨rfl, whole, stopped⟩
  · cases closed

theorem Sound.receive (sound : Sound w s) (receiving : s.consumer = .receiving) : Sound w s.receive := by
  unfold State.receive
  cases queue : s.queue with
  | nil => exact sound
  | cons item rest =>
    cases item with
    | chunk a =>
      refine ⟨sound.raises, ?_, ?_, ?_, ?_, sound.closed⟩
      · have order := sound.order
        rw [queue] at order
        simpa using order
      · intro _ running
        have chunked := sound.openEnd receiving running
        rw [queue] at chunked
        exact (List.cons.inj chunked).2
      · intro _ stopped
        obtain ⟨done, chunked⟩ := sound.closedEnd receiving stopped
        rw [queue] at chunked
        exact ⟨done, (List.cons.inj chunked).2⟩
      · intro ending reached
        dsimp only at reached
        rw [receiving] at reached
        rcases reached with settling | closed <;> contradiction
    | finished =>
      have same := (sound.end_received receiving queue nofun).2.1
      have ending : w.ending = .returned := by
        unfold Work.last at same
        unfold Work.ending
        cases raises : w.raises with
        | none => rfl
        | some e =>
          rw [raises] at same
          cases same
      have settled := sound.receive_end receiving queue nofun
      rwa [ending] at settled
    | failed e =>
      have same := (sound.end_received receiving queue nofun).2.1
      have ending : w.ending = .raised e := by
        unfold Work.last at same
        unfold Work.ending
        cases raises : w.raises with
        | none =>
          rw [raises] at same
          cases same
        | some e' =>
          rw [raises] at same
          cases same
          rfl
      have settled := sound.receive_end receiving queue nofun
      rwa [ending] at settled

theorem Sound.leave (sound : Sound w s) : Sound w { s with consumer := .settling .left } where
  raises := sound.raises
  order := sound.order
  openEnd := nofun
  closedEnd := nofun
  ended ending reached stayed := by
    rcases reached with settling | closed
    · cases settling
      exact absurd rfl stayed.1
    · cases closed
  closed _ closed := nomatch closed

theorem Sound.abandon (sound : Sound w s) : Sound w { s with consumer := .closed .abandoned } where
  raises := sound.raises
  order := sound.order
  openEnd := nofun
  closedEnd := nofun
  ended ending reached stayed := by
    rcases reached with settling | closed
    · cases settling
    · cases closed
      exact absurd rfl stayed.2
  closed ending closed waited := by
    cases closed
    exact absurd rfl waited

theorem Sound.settle (sound : Sound w s) (stopped : s.running = false) : Sound w s.settle := by
  unfold State.settle
  split
  · rename_i ending settling
    refine ⟨sound.raises, sound.order, nofun, nofun, ?_, fun _ _ _ => stopped⟩
    intro ending' reached stayed
    rcases reached with never | closed
    · cases never
    · cases closed
      exact sound.ended ending (.inl settling) stayed
  · exact sound

theorem Sound.next (sound : Sound w s) {label : Label} (enabled : s.enabled mayAbort label) : Sound w (s.next label) := by
  cases label with
  | emit => exact sound.emit enabled.1
  | finish => exact sound.finish enabled.1 enabled.2
  | abort =>
    obtain ⟨-, running, gone⟩ := enabled
    exact sound.abort running gone
  | deliver => exact sound.deliver
  | receive => exact sound.receive enabled.1
  | leave => exact sound.leave
  | abandon => exact sound.abandon
  | settle => exact sound.settle enabled.1

def Label.Own (label : Label) : Prop := label ≠ .leave ∧ label ≠ .abandon

/-- Unless they have ended, the thread and the coroutine get there without anyone's leaving. -/
theorem Sound.proceeds (sound : Sound w s) (going : s.running = true ∨ ∀ ending, s.consumer ≠ .closed ending) :
    ∃ label : Label, label.Own ∧ s.enabled mayAbort label := by
  cases running : s.running with
  | true =>
    by_cases done : s.work.emits = []
    · exact ⟨.finish, ⟨nofun, nofun⟩, running, done⟩
    · exact ⟨.emit, ⟨nofun, nofun⟩, running, done⟩
  | false =>
    cases consumer : s.consumer with
    | receiving =>
      by_cases posted : s.posted = []
      · have chunked := (sound.closedEnd consumer running).2
        refine ⟨.receive, ⟨nofun, nofun⟩, consumer, ?_⟩
        intro queue
        rw [queue, posted] at chunked
        cases chunked
      · exact ⟨.deliver, ⟨nofun, nofun⟩, posted⟩
    | settling ending => exact ⟨.settle, ⟨nofun, nofun⟩, running, ending, consumer⟩
    | closed ending =>
      rcases going with still | going
      · cases running.symm.trans still
      · exact absurd consumer (going ending)

def State.remaining (s : State α ε) : Nat :=
  (if s.running then 3 * s.work.emits.length + 3 else 0) + 2 * s.posted.length + s.queue.length +
    match s.consumer with
    | .receiving => 2
    | .settling _ => 1
    | .closed _ => 0

theorem outcome_append {before : List (Work α ε)} (fine : ∀ w ∈ before, w.raises = none) (rest : List (Work α ε)) :
    outcome (before ++ rest) = (before.flatMap Work.emits ++ (outcome rest).1, (outcome rest).2) := by
  induction before with
  | nil => rfl
  | cons w before ih =>
    have here := fine w List.mem_cons_self
    rw [List.cons_append, outcome, here, ih fun w member => fine w (List.mem_cons_of_mem _ member), List.flatMap_cons,
      List.append_assoc]

/-- What a relay over these pieces keeps: the pieces before the one that it is at raised nothing. -/
def Relayed (works : List (Work α ε)) (r : Relay α ε) : Prop :=
  ∃ before w, works = before ++ w :: r.todo ∧ (∀ w ∈ before, w.raises = none) ∧
    r.earlier = before.flatMap Work.emits ∧ Sound w r.current

variable {works : List (Work α ε)} {r : Relay α ε}

theorem relayed_start (first : Work α ε) (rest : List (Work α ε)) : Relayed (first :: rest) (.start first rest) :=
  ⟨[], first, rfl, nofun, rfl, sound_start first⟩

theorem Work.ending_eq_returned {w : Work α ε} (returned : w.ending = .returned) : w.raises = none := by
  unfold Work.ending at returned
  cases raises : w.raises with
  | none => rfl
  | some e =>
    rw [raises] at returned
    cases returned

theorem Relayed.next (relayed : Relayed works r) {label : RelayLabel} (enabled : (Relay.system mayAbort).enabled r label) :
    Relayed works ((Relay.system mayAbort).next r label) := by
  obtain ⟨before, w, whole, fine, earlier, sound⟩ := relayed
  cases label with
  | piece label => exact ⟨before, w, whole, fine, earlier, sound.next enabled⟩
  | proceed =>
    obtain ⟨closed, some_piece⟩ := enabled
    obtain ⟨next, rest, todo⟩ := List.exists_cons_of_ne_nil some_piece
    obtain ⟨returned, emitted, -⟩ := sound.ended .returned (.inr closed) stayed_returned
    have raisesNone := Work.ending_eq_returned returned.symm
    simp only [Relay.system, todo]
    refine ⟨before ++ [w], next, by rw [whole, todo]; simp, ?_, ?_, sound_start next⟩
    · intro u member
      rcases List.mem_append.mp member with old | new
      · exact fine u old
      · rw [List.mem_singleton.mp new]
        exact raisesNone
    · rw [earlier, emitted, List.flatMap_append, List.flatMap_singleton]

theorem Relayed.run {labels : List RelayLabel} {first : Work α ε} {rest : List (Work α ε)}
    (run : (Relay.system mayAbort).Run (fun _ _ => True) (.start first rest) labels r) : Relayed (first :: rest) r :=
  run.invariant (fun _ _ relayed enabled _ => relayed.next enabled) (relayed_start first rest)

theorem Relay.ending_cases {ending : Ending ε} (closed : r.ending = some ending) :
    r.current.consumer = .closed ending ∧ (ending = .returned → r.todo = []) := by
  unfold Relay.ending at closed
  split at closed
  · rename_i consumer todo
    cases closed
    exact ⟨consumer, fun _ => todo⟩
  · cases closed
  · rename_i other consumer stopped going
    cases closed
    refine ⟨consumer, ?_⟩
    rintro rfl
    cases todo : r.todo with
    | nil => rfl
    | cons w rest => exact (going w rest todo rfl).elim
  · cases closed

/-- A coroutine that was not left has yielded everything, and ends as the pieces do. -/
theorem Relayed.ended (relayed : Relayed works r) {ending : Ending ε} (closed : r.ending = some ending)
    (stayed : ending.Stayed) : (r.yielded, ending) = outcome works := by
  obtain ⟨before, w, whole, fine, earlier, sound⟩ := relayed
  obtain ⟨consumer, last⟩ := Relay.ending_cases closed
  obtain ⟨same, emitted, -⟩ := sound.ended ending (.inr consumer) stayed
  rw [whole, outcome_append fine, Relay.yielded, earlier, emitted, outcome]
  unfold Work.ending at same
  cases raises : w.raises with
  | none =>
    rw [raises] at same
    rw [last same, same]
    simp [outcome]
  | some e =>
    rw [raises] at same
    rw [same]

def RelayLabel.Own (label : RelayLabel) : Prop := ∀ inner, label = .piece inner → inner.Own

theorem Relayed.proceeds (relayed : Relayed works r) (going : r.current.running = true ∨ r.ending = none) :
    ∃ label : RelayLabel, label.Own ∧ (Relay.system mayAbort).enabled r label := by
  obtain ⟨before, w, -, -, -, sound⟩ := relayed
  by_cases closed : r.current.running = false ∧ ∃ ending, r.current.consumer = .closed ending
  · obtain ⟨stopped, ending, closed⟩ := closed
    have more : ending = .returned ∧ r.todo ≠ [] := by
      rw [stopped] at going
      replace going := going.resolve_left nofun
      unfold Relay.ending at going
      rw [closed] at going
      cases ending with
      | returned =>
        refine ⟨rfl, ?_⟩
        intro none
        rw [none] at going
        cases going
      | _ => cases going
    exact ⟨.proceed, nofun, more.1 ▸ closed, more.2⟩
  · have still : r.current.running = true ∨ ∀ ending, r.current.consumer ≠ .closed ending := by
      cases running : r.current.running with
      | true => exact .inl rfl
      | false => exact .inr fun ending same => closed ⟨running, ending, same⟩
    obtain ⟨label, own, enabled⟩ := @Sound.proceeds α ε w r.current mayAbort sound still
    refine ⟨.piece label, ?_, enabled⟩
    rintro inner ⟨⟩
    exact own

/-- A thread is over before the next one is started, and before the coroutine is, unless that was abandoned. -/
theorem Relayed.alone (relayed : Relayed works r)
    (here : (Relay.system mayAbort).enabled r .proceed ∨ ∃ ending, r.ending = some ending ∧ ending ≠ .abandoned) :
    r.current.running = false := by
  obtain ⟨before, w, -, -, -, sound⟩ := relayed
  rcases here with ⟨closed, -⟩ | ⟨ending, ended, waited⟩
  · exact sound.closed .returned closed nofun
  · exact sound.closed ending (Relay.ending_cases ended).1 waited

def budget : List (Work α ε) → Nat
  | [] => 0
  | w :: rest => 3 * w.emits.length + 6 + budget rest

def Relay.remaining (r : Relay α ε) : Nat := r.current.remaining + budget r.todo

end Handoff

end Library

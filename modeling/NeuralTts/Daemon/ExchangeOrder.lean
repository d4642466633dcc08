import NeuralTts.Daemon.ProviderProcess

/-! Whose chunks a call yields. Responses carry no request id, so the answer rests on the drain
mark: it is false only when the stream holds nothing of an earlier answer. -/

namespace Daemon

open Library

namespace ProviderProcess

/-- Each chunk that a call yields was produced for this call, and they are a prefix of what was
produced for it. -/
def OwnChunks (p : ProviderProcess) : Prop :=
  ∀ i, p.yielded i <+: (p.produced i).map (some i, ·)

/-- A provider process on which nothing has happened since its warm-up. -/
structure Fresh (p : ProviderProcess) : Prop where
  unlocked : p.requestLock = .unlocked
  clean : p.needsDrain = false
  whole : p.torn = false
  unread : p.unread = []
  requests : p.requests = []
  answering : p.answering = none
  phase : ∀ i, p.phase i = .outside
  produced : ∀ i, p.produced i = []
  yielded : ∀ i, p.yielded i = []

/-- Only `synthesize` calls run, and the provider answers each in turn with a header, chunks and
`audio_end`. -/
def Contract : ExchangeAct → Prop
  | .enter _ ex => ex ≠ .listVoices
  | .serveError _ | .answer _ | .emit _ => False
  | _ => True

def DrainsThrough (p : ProviderProcess) : ExchangeAct → Prop
  | .timeout _ _ => False
  | .lost i _ | .collide i => ∀ ex, p.phase i ≠ .draining ex
  | .cancel i tear => (∀ ex, p.phase i ≠ .draining ex) ∧ tear = false
  | _ => True

end ProviderProcess

namespace Phase

def written : Phase → Bool
  | .flushing _ | .header | .streaming | .yielded | .listing => true
  | .outside | .queued _ | .locked _ | .draining _ | .finished => false

def begun : Phase → Bool
  | .outside | .queued _ | .locked _ | .draining _ => false
  | .flushing _ | .header | .streaming | .yielded | .listing | .finished => true

def beforeHeader : Phase → Bool
  | .flushing _ | .header => true
  | _ => false

def forVoices : Phase → Bool
  | .queued .listVoices | .locked .listVoices | .draining .listVoices | .flushing .listVoices
  | .listing => true
  | _ => false

theorem holds_of_written {phase : Phase} (written : phase.written) : phase.holds := by
  cases phase <;> simp_all [Phase.written, holds]

theorem begun_of_written {phase : Phase} (written : phase.written) : phase.begun := by
  cases phase <;> simp_all [Phase.written, begun]

end Phase

namespace ProviderProcess

/-- What is left of an answer after its header, for call `r`: chunks, and `audio_end` once the
provider is done. -/
inductive Tail (r : TaskId) : List (Option TaskId × Response) → Option TaskId → Prop
  | running : Tail r [] (some r)
  | ended : Tail r [(some r, .audioEnd)] none
  | chunk {frames : List (Option TaskId × Response)} {answering : Option TaskId} (pcm : Bytes)
      (rest : Tail r frames answering) : Tail r ((some r, .audioChunk pcm) :: frames) answering

/-- The two directions of the stream hold the rest of the answer to call `r` and nothing else;
the flag tells whether its header is still to be read. -/
inductive Pending (r : TaskId) : List (Option TaskId × Request) → Option TaskId →
    List (Option TaskId × Response) → Bool → Prop
  | due (q : Request) : Pending r [(some r, q)] none [] true
  | begun (rate : Int) {frames : List (Option TaskId × Response)} {answering : Option TaskId}
      (tail : Tail r frames answering) :
      Pending r [] answering ((some r, .synthesizeHeader rate) :: frames) true
  | opened {frames : List (Option TaskId × Response)} {answering : Option TaskId}
      (tail : Tail r frames answering) : Pending r [] answering frames false

def chunkOf : Option TaskId × Response → Option (Option TaskId × Bytes)
  | (t, .audioChunk pcm) => some (t, pcm)
  | _ => none

def chunks (frames : List (Option TaskId × Response)) : List (Option TaskId × Bytes) :=
  frames.filterMap chunkOf

theorem Tail.answering {r : TaskId} {frames : List (Option TaskId × Response)}
    {answering : Option TaskId} (tail : Tail r frames answering) :
    answering = some r ∨ answering = none := by
  induction tail with
  | running => exact .inl rfl
  | ended => exact .inr rfl
  | chunk _ _ ih => exact ih

theorem Tail.serveChunk {r : TaskId} {frames : List (Option TaskId × Response)}
    {answering : Option TaskId} (tail : Tail r frames answering) (busy : answering ≠ none)
    (pcm : Bytes) : Tail r (frames ++ [(answering, .audioChunk pcm)]) answering := by
  induction tail with
  | running => exact .chunk pcm .running
  | ended => exact absurd rfl busy
  | chunk earlier _ ih => exact .chunk earlier (ih busy)

theorem Tail.serveEnd {r : TaskId} {frames : List (Option TaskId × Response)}
    {answering : Option TaskId} (tail : Tail r frames answering) (busy : answering ≠ none) :
    Tail r (frames ++ [(answering, .audioEnd)]) none := by
  induction tail with
  | running => exact .ended
  | ended => exact absurd rfl busy
  | chunk pcm _ ih => exact .chunk pcm (ih busy)

theorem chunks_append (frames more : List (Option TaskId × Response)) :
    chunks (frames ++ more) = chunks frames ++ chunks more := List.filterMap_append

section Wire

variable {r : TaskId} {requests : List (Option TaskId × Request)} {answering : Option TaskId}
  {unread : List (Option TaskId × Response)} {unopened : Bool}

theorem Pending.head {frame : Option TaskId × Response}
    (pending : Pending r requests answering (frame :: unread) unopened) :
    (∃ rate, unopened = true ∧ frame = (some r, .synthesizeHeader rate) ∧
      Pending r requests answering unread false) ∨
    (∃ pcm, unopened = false ∧ frame = (some r, .audioChunk pcm) ∧
      Pending r requests answering unread false) ∨
    (unopened = false ∧ frame = (some r, .audioEnd) ∧
      unread = [] ∧ requests = [] ∧ answering = none) := by
  cases pending with
  | begun rate tail => exact .inl ⟨rate, rfl, rfl, .opened tail⟩
  | opened tail =>
    cases tail with
    | ended => exact .inr (.inr ⟨rfl, rfl, rfl, rfl, rfl⟩)
    | chunk pcm rest => exact .inr (.inl ⟨pcm, rfl, rfl, .opened rest⟩)

theorem Pending.serveHeader {t : Option TaskId} {q : Request}
    (pending : Pending r ((t, q) :: requests) answering unread unopened) :
    t = some r ∧ requests = [] ∧ unread = [] ∧ unopened = true := by
  cases pending
  exact ⟨rfl, rfl, rfl, rfl⟩

theorem Pending.serveChunk (pending : Pending r requests answering unread unopened)
    (busy : answering ≠ none) (pcm : Bytes) : answering = some r ∧
      Pending r requests answering (unread ++ [(answering, .audioChunk pcm)]) unopened := by
  cases pending with
  | due => exact absurd rfl busy
  | begun rate tail =>
    exact ⟨tail.answering.resolve_right busy, .begun rate (tail.serveChunk busy pcm)⟩
  | opened tail => exact ⟨tail.answering.resolve_right busy, .opened (tail.serveChunk busy pcm)⟩

theorem Pending.serveEnd (pending : Pending r requests answering unread unopened)
    (busy : answering ≠ none) : answering = some r ∧
      Pending r requests none (unread ++ [(answering, .audioEnd)]) unopened := by
  cases pending with
  | due => exact absurd rfl busy
  | begun rate tail => exact ⟨tail.answering.resolve_right busy, .begun rate (tail.serveEnd busy)⟩
  | opened tail => exact ⟨tail.answering.resolve_right busy, .opened (tail.serveEnd busy)⟩

end Wire

def Silent (p : ProviderProcess) : Prop := p.unread = [] ∧ p.requests = [] ∧ p.answering = none

structure Ordered (p : ProviderProcess) : Prop where
  whole : p.torn = false
  own : OwnChunks p
  clean : p.needsDrain = false → p.Silent
  dirty : p.needsDrain = true → p.Silent ∨
    ∃ r unopened, Pending r p.requests p.answering p.unread unopened ∧ (p.phase r).begun
  current : ∀ i, (p.phase i).written → p.needsDrain = true ∧
    Pending i p.requests p.answering p.unread (p.phase i).beforeHeader ∧
    p.yielded i ++ chunks p.unread = (p.produced i).map (some i, ·)
  lock : ∀ i, (p.phase i).holds → p.requestLock.holder = some i
  untouched : ∀ i, (p.phase i).begun = false → p.produced i = [] ∧ p.yielded i = []
  synth : ∀ i, (p.phase i).forVoices = false

theorem Fresh.ordered {p : ProviderProcess} (fresh : Fresh p) : Ordered p where
  whole := fresh.whole
  own i := by rw [fresh.yielded i]; exact List.nil_prefix
  clean _ := ⟨fresh.unread, fresh.requests, fresh.answering⟩
  dirty marked := by rw [fresh.clean] at marked; cases marked
  current i written := by rw [fresh.phase i] at written; cases written
  lock i holds := by rw [fresh.phase i] at holds; cases holds
  untouched i _ := ⟨fresh.produced i, fresh.yielded i⟩
  synth i := by rw [fresh.phase i]; rfl

variable {p q : ProviderProcess} {i : TaskId}

theorem Ordered.guards (ordered : Ordered p) : p.requestLock.Guards fun i => (p.phase i).holds :=
  ordered.lock

theorem Ordered.only_holder (ordered : Ordered p) (held : (p.phase i).holds) {j : TaskId}
    (other : j ≠ i) : (p.phase j).holds = false := by
  by_contra holds
  exact other (ordered.guards.only held (by simpa using holds))

theorem Ordered.moved (ordered : Ordered p) (held : (p.phase i).holds) (phase : Phase)
    (phases : q.phase = Function.update p.phase i phase) (whole : q.torn = false)
    (produced : q.produced = p.produced) (others : ∀ j, j ≠ i → q.yielded j = p.yielded j)
    (own : q.yielded i <+: (p.produced i).map (some i, ·))
    (clean : q.needsDrain = false → q.Silent)
    (dirty : q.needsDrain = true → q.Silent ∨ ∃ r unopened,
      Pending r q.requests q.answering q.unread unopened ∧ (q.phase r).begun)
    (current : phase.written → q.needsDrain = true ∧
      Pending i q.requests q.answering q.unread phase.beforeHeader ∧
      q.yielded i ++ chunks q.unread = (p.produced i).map (some i, ·))
    (lock : phase.holds → q.requestLock.holder = some i)
    (untouched : phase.begun = false → p.produced i = [] ∧ q.yielded i = [])
    (synth : phase.forVoices = false) : Ordered q := by
  have here : q.phase i = phase := by rw [phases, Function.update_self]
  have there : ∀ j, j ≠ i → q.phase j = p.phase j := by
    intro j other
    rw [phases, Function.update_of_ne other]
  refine ⟨whole, ?_, clean, dirty, ?_, ?_, ?_, ?_⟩
  · intro j
    rw [produced]
    by_cases same : j = i
    · subst same; exact own
    · rw [others j same]; exact ordered.own j
  · intro j written
    by_cases same : j = i
    · subst same
      rw [here] at written ⊢
      rw [produced]
      exact current written
    · rw [there j same] at written
      have idle := ordered.only_holder held same
      rw [Phase.holds_of_written written] at idle
      cases idle
  · intro j holds
    by_cases same : j = i
    · subst same
      rw [here] at holds
      exact lock holds
    · rw [there j same, ordered.only_holder held same] at holds
      cases holds
  · intro j begun
    rw [produced]
    by_cases same : j = i
    · subst same
      rw [here] at begun
      exact untouched begun
    · rw [there j same] at begun
      rw [others j same]
      exact ordered.untouched j begun
  · intro j
    by_cases same : j = i
    · subst same; rw [here]; exact synth
    · rw [there j same]; exact ordered.synth j

theorem Ordered.unpark (ordered : Ordered p) (i : TaskId) : Ordered (p.unpark i) :=
  ⟨ordered.whole, ordered.own, ordered.clean, ordered.dirty, ordered.current, ordered.lock,
    ordered.untouched, ordered.synth⟩

theorem Ordered.requeued (ordered : Ordered p) (unwritten : (p.phase i).begun = false)
    {phase : Phase} {lock : FifoLock TaskId} (quiet : phase.written = false)
    (synth : phase.forVoices = false) (taken : phase.holds → lock.holder = some i)
    (kept : ∀ j, j ≠ i → (p.phase j).holds → lock.holder = some j) :
    Ordered { p.setPhase i phase with requestLock := lock } := by
  have here : (p.setPhase i phase).phase i = phase := Function.update_self ..
  have there : ∀ j, j ≠ i → (p.setPhase i phase).phase j = p.phase j :=
    fun j other => Function.update_of_ne other ..
  refine ⟨ordered.whole, ordered.own, ordered.clean, ?_, ?_, ?_, ?_, ?_⟩
  · intro marked
    rcases ordered.dirty marked with silent | ⟨r, unopened, pending, begun⟩
    · exact .inl silent
    have other : r ≠ i := by
      rintro rfl
      rw [unwritten] at begun
      cases begun
    exact .inr ⟨r, unopened, pending, by rw [there r other]; exact begun⟩
  · intro j written
    by_cases same : j = i
    · subst same
      rw [here, quiet] at written
      cases written
    · rw [there j same] at written ⊢
      exact ordered.current j written
  · intro j holds
    by_cases same : j = i
    · subst same
      rw [here] at holds
      exact taken holds
    · rw [there j same] at holds
      exact kept j same holds
  · intro j begun
    by_cases same : j = i
    · subst same
      exact ordered.untouched j unwritten
    · rw [there j same] at begun
      exact ordered.untouched j begun
  · intro j
    by_cases same : j = i
    · subst same; rw [here]; exact synth
    · rw [there j same]; exact ordered.synth j

theorem Ordered.left (ordered : Ordered p) (held : (p.phase i).holds) {marked : Bool}
    (clean : marked = false → p.Silent) (stays : marked = true → p.needsDrain = true ∨ p.Silent) :
    Ordered (({ p with needsDrain := marked } : ProviderProcess).finish i) := by
  refine ordered.moved held .finished rfl ordered.whole rfl (fun _ _ => rfl)
    (ordered.own i) clean ?_ nofun nofun nofun rfl
  intro mark
  rcases stays mark with dirty | silent
  · rcases ordered.dirty dirty with silent | ⟨r, unopened, pending, begun⟩
    · exact .inl silent
    refine .inr ⟨r, unopened, pending, ?_⟩
    by_cases same : r = i
    · subst same; simp [finish, setPhase, Phase.begun]
    · simpa [finish, setPhase, same] using begun
  · exact .inl silent

theorem Ordered.finished (ordered : Ordered p) (held : (p.phase i).holds) : Ordered (p.finish i) :=
  ordered.left held ordered.clean .inl

theorem Ordered.emptied (ordered : Ordered p) (held : (p.phase i).holds)
    (unwritten : (p.phase i).begun = false) (marked : Bool) :
    Ordered { p with needsDrain := marked, unread := [], requests := [], answering := none } := by
  refine ordered.moved held (p.phase i) (Function.update_eq_self i p.phase).symm ordered.whole
    rfl (fun _ _ => rfl) (ordered.own i) (fun _ => ⟨rfl, rfl, rfl⟩) (fun _ => .inl ⟨rfl, rfl, rfl⟩)
    ?_ (ordered.lock i) (ordered.untouched i) (ordered.synth i)
  intro written
  rw [Phase.begun_of_written written] at unwritten
  cases unwritten

theorem Ordered.wrote (ordered : Ordered p) (held : (p.phase i).holds)
    (unwritten : (p.phase i).begun = false) (silent : p.Silent) {ex : Exchange}
    (synth : ex ≠ .listVoices) : Ordered (p.write i ex) := by
  obtain ⟨unread, requests, answering⟩ := silent
  obtain ⟨produced, yielded⟩ := ordered.untouched i unwritten
  cases ex with
  | listVoices => exact absurd rfl synth
  | synthesize s =>
    simp only [write]
    split
    · exact ordered.left held nofun fun _ => .inr ⟨unread, requests, answering⟩
    have due : Pending i (p.requests ++ [(some i, .synthesize s)]) p.answering p.unread true := by
      rw [unread, requests, answering]
      exact .due _
    refine ordered.moved held (.flushing (.synthesize s)) rfl ordered.whole rfl
      (fun _ _ => rfl) (ordered.own i) nofun ?_ ?_ (fun _ => ordered.lock i held) nofun rfl
    · intro _
      exact .inr ⟨i, true, due, by simp [send, setPhase, Phase.begun]⟩
    · intro _
      refine ⟨rfl, due, ?_⟩
      change p.yielded i ++ chunks p.unread = _
      rw [yielded, unread, produced]
      rfl

theorem Ordered.enter (ordered : Ordered p) (outside : p.phase i = .outside) {ex : Exchange}
    (synth : ex ≠ .listVoices) (now : Nat) : Ordered (p.next now (.enter i ex)) := by
  have unwritten : (p.phase i).begun = false := by rw [outside]; rfl
  simp only [next]
  split
  · rename_i idle
    refine ordered.requeued unwritten rfl ?_ (fun _ => rfl) ?_
    · cases ex with
      | synthesize => rfl
      | listVoices => exact absurd rfl synth
    · exact fun j _ holds => absurd holds (ordered.guards.vacant idle.1 j)
  · refine ordered.requeued unwritten rfl ?_ nofun fun j _ holds => ordered.lock j holds
    cases ex with
    | synthesize => rfl
    | listVoices => exact absurd rfl synth

theorem Ordered.acquire (ordered : Ordered p) {ex : Exchange} (queued : p.phase i = .queued ex)
    (granted : p.requestLock.Granted i) (now : Nat) : Ordered (p.next now (.acquire i)) := by
  have synth := ordered.synth i
  rw [queued] at synth
  simp only [next, queued]
  refine ordered.requeued (by rw [queued]; rfl) rfl ?_ (fun _ => rfl) ?_
  · cases ex with
    | synthesize => rfl
    | listVoices => cases synth
  · exact fun j _ holds => absurd holds (ordered.guards.vacant granted.1 j)

theorem Ordered.dequeued (ordered : Ordered p) {ex : Exchange} (queued : p.phase i = .queued ex) :
    Ordered { p.setPhase i .finished with requestLock := p.requestLock.abandon i } := by
  have unwritten : (p.phase i).begun = false := by rw [queued]; rfl
  exact ordered.requeued unwritten rfl rfl nofun fun j _ holds => ordered.lock j holds

theorem Ordered.not_listing (ordered : Ordered p) {ex : Exchange}
    (standing : p.phase i = .locked ex ∨ p.phase i = .draining ex ∨ p.phase i = .flushing ex) :
    ex ≠ .listVoices := by
  have synth := ordered.synth i
  rintro rfl
  rcases standing with at_ | at_ | at_ <;> rw [at_] at synth <;> cases synth

theorem Ordered.begin (ordered : Ordered p) {ex : Exchange} (locked : p.phase i = .locked ex)
    (now : Nat) : Ordered (p.next now (.begin i)) := by
  have held : (p.phase i).holds := by rw [locked]; rfl
  have unwritten : (p.phase i).begun = false := by rw [locked]; rfl
  have synth := ordered.not_listing (.inl locked)
  simp only [next, locked, beginExchange]
  split
  · rename_i marked
    refine ordered.requeued unwritten rfl ?_ (fun _ => ordered.lock i held)
      fun j _ holds => ordered.lock j holds
    cases ex with
    | synthesize => rfl
    | listVoices => exact absurd rfl synth
  · rename_i clean
    exact ordered.wrote held unwritten (ordered.clean (by simpa using clean)) synth

section Reading

variable {frame : Option TaskId × Response} {rest : List (Option TaskId × Response)}

theorem Ordered.drained (ordered : Ordered p) (unread : p.unread = frame :: rest) {ex : Exchange}
    (draining : p.phase i = .draining ex) (now : Nat) : Ordered (p.pop.react i now frame) := by
  have held : (p.phase i).holds := by rw [draining]; rfl
  have unwritten : (p.phase i).begun = false := by rw [draining]; rfl
  have here : p.pop.phase i = .draining ex := draining
  have busy : ¬p.Silent := by
    rintro ⟨empty, -⟩
    rw [unread] at empty
    cases empty
  have marked : p.needsDrain = true := by
    by_contra clean
    exact busy (ordered.clean (by simpa using clean))
  obtain ⟨r, unopened, pending, begun⟩ := (ordered.dirty marked).resolve_left busy
  rw [unread] at pending
  have dropped : Pending r p.requests p.answering rest false → Ordered p.pop := by
    intro left
    have tail : p.pop.unread = rest := by simp [pop, unread]
    refine ordered.moved held (p.phase i) (Function.update_eq_self i p.phase).symm
      ordered.whole rfl (fun _ _ => rfl) (ordered.own i) ?_ ?_ ?_ (ordered.lock i)
      (ordered.untouched i) (ordered.synth i)
    · intro clean
      exact absurd marked (by rw [show p.needsDrain = false from clean]; nofun)
    · intro _
      exact .inr ⟨r, false, by rw [tail]; exact left, begun⟩
    · intro written
      rw [Phase.begun_of_written written] at unwritten
      cases unwritten
  rcases pending.head with ⟨rate, -, rfl, left⟩ | ⟨pcm, -, rfl, left⟩ | ⟨-, rfl, nothing, none_due, idle⟩
  · simp only [react, here]
    exact dropped left
  · simp only [react, here]
    exact dropped left
  · simp only [react, here]
    have base := ordered.emptied held unwritten false
    have same : ({ p.pop with needsDrain := false } : ProviderProcess) =
        { p with needsDrain := false, unread := [], requests := [], answering := none } := by
      simp [pop, unread, nothing, none_due, idle]
    rw [same]
    exact base.wrote held unwritten ⟨rfl, rfl, rfl⟩ (ordered.not_listing (.inr (.inl draining)))

theorem Ordered.opened (ordered : Ordered p) (unread : p.unread = frame :: rest)
    (header : p.phase i = .header) (now : Nat) : Ordered (p.pop.react i now frame) := by
  have held : (p.phase i).holds := by rw [header]; rfl
  obtain ⟨marked, pending, account⟩ := ordered.current i (by rw [header]; rfl)
  rw [unread, header] at pending
  rw [unread] at account
  have here : p.pop.phase i = .header := header
  have tail : p.pop.unread = rest := by simp [pop, unread]
  rcases pending.head with ⟨rate, -, rfl, left⟩ | ⟨pcm, closed, -⟩ | ⟨closed, -⟩
  · simp only [react, here]
    have still : Pending i p.requests p.answering p.pop.unread false := by rw [tail]; exact left
    refine ordered.moved held .streaming rfl ordered.whole rfl (fun _ _ => rfl)
      (ordered.own i) ?_ ?_ ?_ (fun _ => ordered.lock i held) nofun rfl
    · intro clean
      exact absurd marked (by rw [show p.needsDrain = false from clean]; nofun)
    · intro _
      exact .inr ⟨i, false, still, by simp [setPhase, Phase.begun]⟩
    · intro _
      refine ⟨marked, still, ?_⟩
      rw [show (p.pop.setPhase i .streaming).unread = rest from tail]
      exact account
  · cases closed
  · cases closed

theorem Ordered.streamed (ordered : Ordered p) (unread : p.unread = frame :: rest)
    (streaming : p.phase i = .streaming) (now : Nat) : Ordered (p.pop.react i now frame) := by
  have held : (p.phase i).holds := by rw [streaming]; rfl
  obtain ⟨marked, pending, account⟩ := ordered.current i (by rw [streaming]; rfl)
  rw [unread, streaming] at pending
  rw [unread] at account
  have here : p.pop.phase i = .streaming := streaming
  have tail : p.pop.unread = rest := by simp [pop, unread]
  rcases pending.head with ⟨rate, closed, -⟩ | ⟨pcm, -, rfl, left⟩ | ⟨-, rfl, nothing, none_due, idle⟩
  · cases closed
  · simp only [react, here]
    have still : Pending i p.requests p.answering p.pop.unread false := by rw [tail]; exact left
    have grown : (p.yielded i ++ [(some i, pcm)]) ++ chunks rest = (p.produced i).map (some i, ·) := by
      rw [← account, List.append_assoc]
      rfl
    refine ordered.moved held .yielded rfl ordered.whole rfl ?_ ?_ ?_ ?_ ?_
      (fun _ => ordered.lock i held) nofun rfl
    · intro j other
      exact Function.update_of_ne other ..
    · simp only [Function.update_self]
      exact ⟨_, grown⟩
    · intro clean
      exact absurd marked (by rw [show p.needsDrain = false from clean]; nofun)
    · intro _
      exact .inr ⟨i, false, still, by simp [setPhase, Phase.begun]⟩
    · intro _
      refine ⟨marked, still, ?_⟩
      simp only [Function.update_self]
      change p.yielded i ++ [(some i, pcm)] ++ chunks p.unread.tail = _
      rw [unread]
      exact grown
  · simp only [react, here]
    have empty : Silent { p.pop with needsDrain := false } := by
      refine ⟨?_, none_due, idle⟩
      change p.unread.tail = []
      rw [unread, nothing, List.tail_cons]
    refine ordered.moved held .finished rfl ordered.whole rfl (fun _ _ => rfl)
      (ordered.own i) (fun _ => empty) nofun nofun nofun nofun rfl

theorem Ordered.read (ordered : Ordered p) (reads : (p.phase i).reads) (unread : p.unread ≠ [])
    (now : Nat) : Ordered (p.next now (.read i)) := by
  obtain ⟨frame, rest, split⟩ := List.exists_cons_of_ne_nil unread
  simp only [next, split]
  have parked := ordered.unpark i
  have here : (p.unpark i).unread = frame :: rest := split
  cases phase : p.phase i with
  | draining ex => exact parked.drained here phase now
  | header => exact parked.opened here phase now
  | streaming => exact parked.streamed here phase now
  | listing =>
    have synth := ordered.synth i
    rw [phase] at synth
    cases synth
  | _ => rw [phase] at reads; cases reads

end Reading

theorem Ordered.raised (ordered : Ordered p) (reads : (p.phase i).reads)
    (through : ∀ ex, p.phase i ≠ .draining ex) (error : ReadError) : Ordered (p.raiseRead i error) := by
  have held := Phase.holds_of_reads reads
  cases phase : p.phase i with
  | draining ex => exact absurd phase (through ex)
  | header => simp only [raiseRead, phase]; exact ordered.finished held
  | streaming => simp only [raiseRead, phase]; exact ordered.finished held
  | listing => simp only [raiseRead, phase]; exact ordered.finished held
  | _ => rw [phase] at reads; cases reads

theorem Ordered.interrupted (ordered : Ordered p) (suspended : (p.phase i).suspended)
    (through : ∀ ex, p.phase i ≠ .draining ex) : Ordered (p.interrupt i) := by
  have held : (∀ ex, p.phase i ≠ .queued ex) → (p.phase i).holds := by
    intro unqueued
    cases phase : p.phase i with
    | queued ex => exact absurd phase (unqueued ex)
    | _ => rw [phase] at suspended; simp_all [Phase.holds, Phase.suspended]
  cases phase : p.phase i with
  | queued ex =>
    simp only [interrupt, phase]
    exact ordered.dequeued phase
  | draining ex => exact absurd phase (through ex)
  | _ =>
    simp only [interrupt, phase]
    exact ordered.finished (held (by rw [phase]; simp))

theorem Ordered.advanced (ordered : Ordered p) (written : (p.phase i).written) {phase : Phase}
    (still : phase.written) (header : phase.beforeHeader = (p.phase i).beforeHeader)
    (synth : phase.forVoices = false) : Ordered (p.setPhase i phase) := by
  have held := Phase.holds_of_written written
  obtain ⟨marked, pending, account⟩ := ordered.current i written
  refine ordered.moved held phase rfl ordered.whole rfl (fun _ _ => rfl) (ordered.own i)
    ordered.clean ?_ ?_ (fun _ => ordered.lock i held) ?_ synth
  · intro _
    refine .inr ⟨i, _, pending, ?_⟩
    simpa [setPhase] using Phase.begun_of_written still
  · intro _
    exact ⟨marked, by rw [header]; exact pending, account⟩
  · intro begun
    rw [Phase.begun_of_written still] at begun
    cases begun

theorem Ordered.flushed (ordered : Ordered p) {ex : Exchange} (flushing : p.phase i = .flushing ex)
    (now : Nat) : Ordered (p.next now (.flushed i)) := by
  have synth := ordered.not_listing (.inr (.inr flushing))
  cases ex with
  | listVoices => exact absurd rfl synth
  | synthesize s =>
    simp only [next, flushing]
    exact ordered.advanced (by rw [flushing]; rfl) rfl (by rw [flushing]; rfl) rfl

theorem Ordered.served (ordered : Ordered p) (busy : ¬p.Silent) (phases : q.phase = p.phase)
    (whole : q.torn = p.torn) (mark : q.needsDrain = p.needsDrain)
    (lock : q.requestLock = p.requestLock) (yielded : q.yielded = p.yielded)
    (step : ∀ r unopened, Pending r p.requests p.answering p.unread unopened →
      Pending r q.requests q.answering q.unread unopened ∧ ∃ added : List Bytes,
        chunks q.unread = chunks p.unread ++ added.map (some r, ·) ∧
        q.produced = Function.update p.produced r (p.produced r ++ added)) : Ordered q := by
  have marked : p.needsDrain = true := by
    by_contra clean
    exact busy (ordered.clean (by simpa using clean))
  obtain ⟨r, unopened, pending, begun⟩ := (ordered.dirty marked).resolve_left busy
  obtain ⟨after, added, -, produced⟩ := step r unopened pending
  refine ⟨whole.trans ordered.whole, ?_, ?_, ?_, ?_, ?_, ?_, ?_⟩
  · intro j
    rw [yielded, produced]
    by_cases same : j = r
    · subst same
      rw [Function.update_self, List.map_append]
      exact (ordered.own j).trans (List.prefix_append ..)
    · rw [Function.update_of_ne same]
      exact ordered.own j
  · intro clean
    rw [mark, marked] at clean
    cases clean
  · intro _
    exact .inr ⟨r, unopened, after, by rw [phases]; exact begun⟩
  · intro j written
    rw [phases] at written ⊢
    obtain ⟨-, mine, account⟩ := ordered.current j written
    obtain ⟨answer, more, unread, grown⟩ := step j _ mine
    refine ⟨mark.trans marked, answer, ?_⟩
    rw [yielded, unread, grown, Function.update_self, List.map_append, ← account, List.append_assoc]
  · intro j holds
    rw [phases] at holds
    rw [lock]
    exact ordered.lock j holds
  · intro j unbegun
    rw [phases] at unbegun
    have other : j ≠ r := by
      rintro rfl
      rw [begun] at unbegun
      cases unbegun
    rw [produced, yielded, Function.update_of_ne other]
    exact ordered.untouched j unbegun
  · intro j
    rw [phases]
    exact ordered.synth j

theorem Ordered.serveHeader (ordered : Ordered p) {t : Option TaskId} {request : Request}
    {rest : List (Option TaskId × Request)} (requests : p.requests = (t, request) :: rest)
    (now : Nat) (rate : Int) : Ordered (p.next now (.serveHeader rate)) := by
  simp only [next, requests]
  refine ordered.served ?_ rfl rfl rfl rfl rfl ?_
  · rintro ⟨-, none_due, -⟩
    rw [requests] at none_due
    cases none_due
  · intro r unopened pending
    rw [requests] at pending
    obtain ⟨rfl, rfl, unread, rfl⟩ := pending.serveHeader
    simp only [unread]
    exact ⟨.begun rate .running, [], rfl, by simp⟩

theorem Ordered.serveChunk (ordered : Ordered p) (busy : p.answering ≠ none) (now : Nat)
    (pcm : Bytes) : Ordered (p.next now (.serveChunk pcm)) := by
  simp only [next]
  refine ordered.served (fun silent => busy silent.2.2) rfl rfl rfl rfl rfl ?_
  intro r unopened pending
  obtain ⟨mine, after⟩ := pending.serveChunk busy pcm
  refine ⟨after, [pcm], ?_, ?_⟩
  · simp only [chunks_append, mine]
    rfl
  · simp only [mine]

theorem Ordered.serveEnd (ordered : Ordered p) (busy : p.answering ≠ none) (now : Nat) :
    Ordered (p.next now .serveEnd) := by
  simp only [next]
  refine ordered.served (fun silent => busy silent.2.2) rfl rfl rfl rfl rfl ?_
  intro r unopened pending
  obtain ⟨mine, after⟩ := pending.serveEnd busy
  refine ⟨after, [], ?_, by simp⟩
  simp only [chunks_append]
  rfl

theorem Ordered.next (ordered : Ordered p) {now : Nat} {act : ExchangeAct} (enabled : p.Enabled act)
    (contract : Contract act) (through : DrainsThrough p act) : Ordered (p.next now act) := by
  cases act with
  | enter i ex => exact ordered.enter enabled contract now
  | acquire i =>
    obtain ⟨⟨ex, queued⟩, granted⟩ := enabled
    exact ordered.acquire queued granted now
  | begin i =>
    obtain ⟨ex, locked⟩ := enabled
    exact ordered.begin locked now
  | park i =>
    exact ⟨ordered.whole, ordered.own, ordered.clean, ordered.dirty, ordered.current, ordered.lock,
      ordered.untouched, ordered.synth⟩
  | read i => exact ordered.read enabled.1 enabled.2.2 now
  | garble i b =>
    have torn := enabled.2
    rw [ordered.whole] at torn
    cases torn
  | collide i => exact ordered.raised enabled.1 through .connection
  | lost i error => exact (ordered.unpark i).raised enabled through error
  | timeout i tear => exact through.elim
  | flushed i =>
    obtain ⟨ex, flushing⟩ := enabled
    exact ordered.flushed flushing now
  | unflushed i =>
    obtain ⟨ex, flushing⟩ := enabled
    exact ordered.finished (by rw [flushing]; rfl)
  | resume i => exact ordered.advanced (by rw [enabled]; rfl) rfl (by rw [enabled]; rfl) rfl
  | close i => exact ordered.finished (by rw [enabled]; rfl)
  | cancel i tear =>
    obtain ⟨undrained, rfl⟩ := through
    have whole : (p.unpark i).tearIf false = p.unpark i := by simp [tearIf]
    simp only [ProviderProcess.next, whole]
    exact (ordered.unpark i).interrupted enabled.1 undrained
  | serveHeader rate =>
    obtain ⟨-, j, synth, head⟩ := enabled
    obtain ⟨rest, requests⟩ := List.head?_eq_some_iff.mp head
    exact ordered.serveHeader requests now rate
  | serveChunk pcm => exact ordered.serveChunk enabled now pcm
  | serveEnd => exact ordered.serveEnd enabled now
  | serveError message => exact contract.elim
  | answer b => exact contract.elim
  | emit b => exact contract.elim

/-- A run of exchanges in which no drain is cut short yields to each call its own chunks. -/
theorem ownChunks_of_drained {labels : List (Nat × ExchangeAct)} (fresh : Fresh p)
    (run : exchanges.Run (fun p label => Contract label.2 ∧ DrainsThrough p label.2) p labels q) :
    OwnChunks q := by
  have ordered : Ordered q := run.invariant
    (fun _ _ ordered enabled met => Ordered.next ordered enabled met.1 met.2) fresh.ordered
  exact ordered.own

def warmed : ProviderProcess where
  provider := "omnivoice"
  eager := true
  state := .ready
  lastActivity := 0

theorem warmed_fresh : Fresh warmed :=
  ⟨rfl, rfl, rfl, rfl, rfl, rfl, fun _ => rfl, fun _ => rfl, fun _ => rfl⟩

def saying (text : String) : Exchange := .synthesize ⟨"eve", 0, "en-us", text⟩

def abandonedDrain : List (Nat × ExchangeAct) :=
  [.enter 1 (saying "one"), .begin 1, .flushed 1, .cancel 1 false, .enter 2 (saying "two"), .begin 2,
    .timeout 2 false, .flushed 2, .serveHeader 24000, .read 2, .serveChunk [1, 2, 3, 4],
    .read 2].map (0, ·)

theorem abandonedDrain_yields_foreign :
    ¬∀ (p q : ProviderProcess) (labels : List (Nat × ExchangeAct)), Fresh p →
      exchanges.Run (fun _ label => Contract label.2) p labels q → OwnChunks q := by
  intro claimed
  have admitted : exchanges.Admits (fun _ label => Contract label.2) warmed abandonedDrain := by
    refine ⟨⟨rfl, nofun⟩, ⟨⟨_, rfl⟩, trivial⟩, ⟨⟨_, rfl⟩, trivial⟩, ⟨⟨rfl, nofun⟩, trivial⟩,
      ⟨rfl, nofun⟩, ⟨⟨_, rfl⟩, trivial⟩, ⟨⟨⟨_, rfl⟩, nofun⟩, trivial⟩, ⟨⟨_, rfl⟩, trivial⟩,
      ⟨⟨rfl, 1, _, rfl⟩, trivial⟩, ⟨⟨rfl, rfl, nofun⟩, trivial⟩, ⟨nofun, trivial⟩,
      ⟨⟨rfl, rfl, nofun⟩, trivial⟩, trivial⟩
  have own := claimed warmed _ abandonedDrain warmed_fresh admitted.run
  have foreign : (exchanges.after warmed abandonedDrain).yielded 2 = [(some 1, [1, 2, 3, 4])] := rfl
  have mine := (own 2).subset (foreign ▸ List.mem_singleton_self _)
  simp at mine

def closedEarly : List (Nat × ExchangeAct) :=
  [.enter 1 (saying "one"), .begin 1, .flushed 1, .serveHeader 24000, .read 1, .serveChunk [1, 2, 3, 4],
    .read 1, .close 1, .enter 2 (saying "two"), .begin 2, .serveEnd, .read 2, .flushed 2,
    .serveHeader 24000, .read 2, .serveChunk [5, 6, 7, 8], .read 2].map (0, ·)

theorem closedEarly_ownChunks : OwnChunks (exchanges.after warmed closedEarly) :=
  ownChunks_of_drained warmed_fresh (System.Admits.run
    ⟨⟨rfl, nofun, trivial⟩, ⟨⟨_, rfl⟩, trivial, trivial⟩, ⟨⟨_, rfl⟩, trivial, trivial⟩,
      ⟨⟨rfl, 1, _, rfl⟩, trivial, trivial⟩, ⟨⟨rfl, rfl, nofun⟩, trivial, trivial⟩,
      ⟨nofun, trivial, trivial⟩, ⟨⟨rfl, rfl, nofun⟩, trivial, trivial⟩, ⟨rfl, trivial, trivial⟩,
      ⟨rfl, nofun, trivial⟩, ⟨⟨_, rfl⟩, trivial, trivial⟩, ⟨nofun, trivial, trivial⟩,
      ⟨⟨rfl, rfl, nofun⟩, trivial, trivial⟩, ⟨⟨_, rfl⟩, trivial, trivial⟩,
      ⟨⟨rfl, 2, _, rfl⟩, trivial, trivial⟩, ⟨⟨rfl, rfl, nofun⟩, trivial, trivial⟩,
      ⟨nofun, trivial, trivial⟩, ⟨⟨rfl, rfl, nofun⟩, trivial, trivial⟩, trivial⟩)

end ProviderProcess

end Daemon

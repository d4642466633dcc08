import NeuralTts.Daemon.Readiness
import NeuralTts.Daemon.VoiceIndexViews

/-! What is known of a connection from its routing to its exchange. The provider is chosen once for
all when the connection is routed; the local id is looked up again, in the index as it is then, and
`ok` is what is asked of it. -/

namespace Daemon

open Library

/-- The exchange that is still to write its request, or is just flushing it. -/
def Phase.exchange : Phase → Option Exchange
  | .queued ex | .locked ex | .draining ex | .flushing ex => some ex
  | .outside | .header | .streaming | .yielded | .listing | .finished => none

namespace ProviderProcess

/-- `P` holds of every exchange that a task wants, and of every synthesis that it has asked for. -/
structure Carries (P : TaskId → Exchange → Prop) (p : ProviderProcess) : Prop where
  wanted : ∀ i ex, (p.phase i).exchange = some ex → P i ex
  sent : ∀ i synth, (i, Request.synthesize synth) ∈ p.sent → P i (.synthesize synth)

variable {P : TaskId → Exchange → Prop} {p q : ProviderProcess} {i : TaskId} {now : Nat}
  {ex : Exchange}

theorem Carries.same (carries : Carries P p) (phase : q.phase = p.phase) (sent : q.sent = p.sent) :
    Carries P q := by
  refine ⟨?_, ?_⟩
  · rw [phase]
    exact carries.wanted
  · rw [sent]
    exact carries.sent

theorem Carries.mono {Q : TaskId → Exchange → Prop} (carries : Carries P p)
    (implies : ∀ i ex, P i ex → Q i ex) : Carries Q p :=
  ⟨fun i ex at_ => implies i ex (carries.wanted i ex at_),
    fun i synth sent => implies i _ (carries.sent i synth sent)⟩

theorem Carries.moved (carries : Carries P p) (phase : Phase)
    (wanted : ∀ ex, phase.exchange = some ex → P i ex)
    (phases : q.phase = Function.update p.phase i phase) (sent : q.sent = p.sent) : Carries P q := by
  refine ⟨?_, by rw [sent]; exact carries.sent⟩
  intro j ex at_
  rw [phases] at at_
  by_cases same : j = i
  · subst same
    rw [Function.update_self] at at_
    exact wanted ex at_
  · rw [Function.update_of_ne same] at at_
    exact carries.wanted j ex at_

theorem Carries.past (carries : Carries P p) (phase : Phase) (asked : phase.exchange = none)
    (phases : q.phase = Function.update p.phase i phase) (sent : q.sent = p.sent) : Carries P q := by
  refine carries.moved phase ?_ phases sent
  intro ex at_
  rw [asked] at at_
  cases at_

theorem Carries.finish (carries : Carries P p) : Carries P (p.finish i) :=
  carries.past .finished rfl rfl rfl

theorem Carries.send (carries : Carries P p) (wanted : P i ex) {req : Request}
    (asked : ∀ synth, req = .synthesize synth → ex = .synthesize synth) : Carries P (p.send i ex req) := by
  refine ⟨?_, ?_⟩
  · exact (carries.moved (q := p.setPhase i (.flushing ex)) (.flushing ex)
      (fun _ at_ => Option.some.inj at_ ▸ wanted) rfl rfl).wanted
  · intro j synth inside
    rcases List.mem_append.mp inside with before | new
    · exact carries.sent j synth before
    · cases List.mem_singleton.mp new
      rw [← asked synth rfl]
      exact wanted

theorem Carries.write (carries : Carries P p) (wanted : P i ex) : Carries P (p.write i ex) := by
  cases ex with
  | listVoices => exact carries.send wanted nofun
  | synthesize synth =>
    have marked : Carries P { p with needsDrain := true } := carries.same rfl rfl
    simp only [ProviderProcess.write]
    split
    · exact marked.finish
    · exact marked.send wanted fun _ at_ => by cases at_; rfl

theorem Carries.react (carries : Carries P p) (frame : Option TaskId × Response) :
    Carries P (p.react i now frame) := by
  unfold ProviderProcess.react
  split
  · rename_i ex draining
    split
    · have cleared : Carries P { p with needsDrain := false } := carries.same rfl rfl
      exact cleared.write (carries.wanted i ex (by rw [draining]; rfl))
    · exact carries
  · split
    · exact carries.past .finished rfl rfl rfl
    · exact carries.past .streaming rfl rfl rfl
    · exact carries.finish
  · dsimp only
    split
    · exact carries.past .yielded rfl rfl rfl
    · exact carries.past .finished rfl rfl rfl
    · exact carries.past .finished rfl rfl rfl
    · exact carries.same rfl rfl
  · split
    · exact carries.past .finished rfl rfl rfl
    · exact carries.finish
  · exact carries

theorem Carries.abandonDrain (carries : Carries P p) (wanted : P i ex) :
    Carries P (p.abandonDrain i ex) := by
  have failed : Carries P { p with state := .failed, needsDrain := false } := carries.same rfl rfl
  exact failed.write wanted

theorem Carries.raiseRead (carries : Carries P p) (error : ReadError) :
    Carries P (p.raiseRead i error) := by
  unfold ProviderProcess.raiseRead
  split
  · rename_i ex draining
    exact carries.abandonDrain (carries.wanted i ex (by rw [draining]; rfl))
  · exact carries.past .finished rfl rfl rfl
  · exact carries.finish

theorem Carries.next (carries : Carries P p) (act : ExchangeAct) (enters : act.enters = false) :
    Carries P (p.next now act) := by
  have unparked : ∀ i, Carries P (p.unpark i) := fun _ => carries.same rfl rfl
  cases act with
  | enter i ex => cases enters
  | acquire i =>
    simp only [ProviderProcess.next]
    split
    · rename_i ex queued
      refine carries.moved (.locked ex) (fun _ at_ => ?_) rfl rfl
      cases at_
      exact carries.wanted i ex (by rw [queued]; rfl)
    · exact carries
  | begin i =>
    simp only [ProviderProcess.next]
    split
    · rename_i ex locked
      have wanted : P i ex := carries.wanted i ex (by rw [locked]; rfl)
      unfold beginExchange
      split
      · refine carries.moved (.draining ex) (fun _ at_ => ?_) rfl rfl
        cases at_
        exact wanted
      · exact carries.write wanted
    · exact carries
  | read i =>
    simp only [ProviderProcess.next]
    split
    · have popped : Carries P (p.unpark i).pop := carries.same rfl rfl
      exact popped.react _
    · exact carries
  | garble i b => exact (unparked i).react _
  | collide i => exact carries.raiseRead _
  | lost i error => exact (unparked i).raiseRead _
  | timeout i tear =>
    simp only [ProviderProcess.next]
    split
    · rename_i ex draining
      have torn : Carries P ((p.unpark i).tearIf tear) := carries.same rfl rfl
      exact torn.abandonDrain (carries.wanted i ex (by rw [draining]; rfl))
    · exact carries
  | flushed i =>
    simp only [ProviderProcess.next]
    split
    · exact carries.past .header rfl rfl rfl
    · exact carries.past .listing rfl rfl rfl
    · exact carries
  | unflushed i => exact carries.finish
  | resume i => exact carries.past .streaming rfl rfl rfl
  | close i => exact carries.finish
  | cancel i tear =>
    simp only [ProviderProcess.next, interrupt]
    split <;> exact carries.past .finished rfl rfl rfl
  | serveHeader rate => simp only [ProviderProcess.next]; split <;> exact carries.same rfl rfl
  | answer b => simp only [ProviderProcess.next]; split <;> exact carries.same rfl rfl
  | _ => exact carries.same rfl rfl

theorem Carries.enter (carries : Carries P p) (wanted : P i ex) :
    Carries P (p.next now (.enter i ex)) := by
  simp only [ProviderProcess.next]
  split
  · refine carries.moved (.locked ex) (fun _ at_ => ?_) rfl rfl
    cases at_
    exact wanted
  · refine carries.moved (.queued ex) (fun _ at_ => ?_) rfl rfl
    cases at_
    exact wanted

end ProviderProcess

structure VoiceIndex.Named (idx : VoiceIndex) : Prop where
  raw : "" ∉ idx.byProviderRaw
  provider : ∀ u, idx.providerFor u ≠ some ""

theorem VoiceIndex.named_rebuild {raw : Dict String (List Voice)} (named : "" ∉ raw) :
    (rebuild raw).Named := by
  refine ⟨named, fun u found => ?_⟩
  obtain ⟨v, listed, -⟩ := (providerFor_rebuild raw u "").mp found
  have offered := mem_offers.mp (mem_offers_of_listed raw listed)
  rw [rawList, AList.lookup_eq_none.mpr named] at offered
  cases offered

theorem Curation.named_populate (c : Curation) (idx : VoiceIndex) {out : Dict String (List Voice)}
    (named : "" ∉ out) : (c.populate idx out).Named := by
  refine List.foldlRecOn out.entries _ ⟨AList.notMem_empty _, nofun⟩ fun idx kept slice member => ?_
  refine VoiceIndex.named_rebuild ?_
  rw [Dict.mem_set]
  rintro (blank | inside)
  · exact named (AList.mem_keys.mpr (blank ▸ List.mem_map.mpr ⟨slice, member, rfl⟩))
  · exact kept.raw inside

/-- The entry by which the awaiting connection was routed. -/
def Awaiter.route : Awaiter → Option Route
  | .connection _ route | .generator _ route => some route
  | .caller | .reloadVoices => none

def Awaiter.synth : Awaiter → Option SynthesizeRequest
  | .connection synth _ | .generator synth _ => some synth
  | .caller | .reloadVoices => none

def Op.route : Op → Option Route
  | .ensureReady _ awaiter => awaiter.route
  | _ => none

/-- An operation pursues the provider that its connection was routed to, and `ok` holds of the local
id that the voice of the connection has in the index. -/
def Op.Aims (ok : Route → String → Prop) (idx : VoiceIndex) : Op → Prop
  | .ensureReady target awaiter => ∀ route, awaiter.route = some route →
    target = route.provider ∧ ok route (idx.localIdFor route.voice) ∧
      ∀ synth, awaiter.synth = some synth → synth.voice = route.voice
  | .enumerate todo out _ => "" ∉ todo ∧ "" ∉ out
  | .switch _ | .evict | .shutdown => True

theorem aims_unrouted {ok : Route → String → Prop} {idx : VoiceIndex} {target : String}
    {awaiter : Awaiter} (unrouted : awaiter.route = none) : (Op.ensureReady target awaiter).Aims ok idx := by
  intro route same
  rw [unrouted] at same
  cases same

def Exchange.Aims (ok : Route → String → Prop) (route : Option Route) : Exchange → Prop
  | .synthesize synth => ∃ r, route = some r ∧ ok r synth.voice
  | .listVoices => True

inductive Awaiter.Enters (idx : VoiceIndex) : Awaiter → Exchange → Option Route → Prop
  | lists : Enters idx .reloadVoices .listVoices none
  | synthesizes (synth : SynthesizeRequest) (route : Route) :
      Enters idx (.generator synth route) (.synthesize { synth with voice := idx.localIdFor synth.voice })
        (some route)

namespace Supervisor

def InFlight (s : Supervisor) (i : TaskId) (r : Route) : Prop :=
  ∃ op, (s.tasks i = .waiting op ∨ ∃ stage, s.tasks i = .inside op stage) ∧ op.route = some r

/-- An enumeration that is about to replace the index keeps `ok` for the connections in flight. -/
def KeepsAim (ok : Route → String → Prop) (c : Settings) (s : Supervisor) (act : SupervisorAct) : Prop :=
  ∀ i out asked, act = .proceed i → s.tasks i = .inside (.enumerate [] out asked) .entered →
    ∀ j r, s.InFlight j r → ok r ((c.populate s.voiceIndex out).localIdFor r.voice)

structure Aimed (ok : Route → String → Prop) (s : Supervisor) : Prop where
  named : s.voiceIndex.Named
  pursued : ∀ i op, (s.tasks i).pursues = some op → op.Aims ok s.voiceIndex
  exchanging : ∀ i p r, s.tasks i = .exchanging p (some r) →
    p < s.nextProc ∧ (s.procs p).provider = r.provider
  carries : ∀ p, (s.procs p).Carries fun i ex => ∃ route, s.tasks i = .exchanging p route ∧ ex.Aims ok route

variable {c : Settings} {s t : Supervisor} {now : Nat} {act : SupervisorAct} {i : TaskId} {p q : ProcId}
  {awaiter : Awaiter} {proc : ProviderProcess} {task : Task} {op : Op} {P : TaskId → Exchange → Prop}
  {ok : Route → String → Prop}

theorem Works.carries (works : s.Works now p act proc) (carries : (s.procs p).Carries P) :
    proc.Carries P := by
  cases works with
  | exchange born enters enabled actor => exact carries.next _ enters
  | @teardown act enabled => cases act <;> exact carries.same rfl rfl
  | @killer act enabled => cases act <;> exact carries.same rfl rfl
  | exits => exact carries.same rfl rfl
  | parks => exact carries.same rfl rfl

theorem Arrival.carries (arrival : s.Arrival now i p awaiter proc task) (carries : (s.procs p).Carries P)
    (enters : ∀ ex route, awaiter.Enters s.voiceIndex ex route → task = .exchanging p route → P i ex) :
    proc.Carries P := by
  cases arrival with
  | ends => exact carries
  | lists => exact carries.enter (enters _ _ .lists rfl)
  | streams => exact carries
  | synthesizes synth route listed =>
    have stamped : ({ s.procs p with lastActivity := now } : ProviderProcess).Carries P :=
      carries.same rfl rfl
    exact stamped.enter (enters _ _ (.synthesizes synth route) rfl)

theorem Moves.carries (moves : Moves c s now act t) (carries : (s.procs q).Carries P)
    (enters : ∀ i awaiter proc ex route, s.Returns i awaiter q act proc →
      awaiter.Enters s.voiceIndex ex route → t.tasks i = .exchanging q route → P i ex) :
    (t.procs q).Carries P := by
  have handles := moves.handles q
  generalize t.procs q = proc at handles ⊢
  cases handles with
  | spared => exact carries
  | works step => exact step.carries carries
  | serves inside active provider ready arrival =>
    exact arrival.carries carries fun ex route =>
      enters _ _ _ ex route (.reused inside active provider ready)
  | reaps inside later => exact carries.same rfl rfl
  | spawns inside new => exact ⟨nofun, nofun⟩
  | connects inside later => exact carries.same rfl rfl
  | @warms i op warm proc inside read goes =>
    have warmed : ((s.setProc q warm).procs q).Carries P := by
      rw [procs_setProc]
      cases read with
      | ready answered => exact carries.same rfl rfl
    generalize at_ : t.tasks i = task at goes
    cases goes with
    | returns arrival =>
      exact arrival.carries warmed fun ex route entered busy =>
        enters _ _ _ ex route (.spawned inside read) entered (at_.trans busy)
    | lists name todo out asked => exact warmed.same rfl rfl
    | switched newName => exact warmed
    | unasked unwanted => exact warmed
  | warmupFails inside read later => rcases read with rfl | rfl <;> exact carries.same rfl rfl

theorem inFlight_of_pursues {target : String} {route : Route}
    (pursues : (s.tasks i).pursues = some (.ensureReady target awaiter))
    (routed : awaiter.route = some route) : s.InFlight i route := by
  generalize at_ : s.tasks i = task at pursues
  cases task with
  | waiting op =>
    cases pursues
    exact ⟨_, .inl at_, routed⟩
  | inside op stage =>
    cases pursues
    exact ⟨_, .inr ⟨stage, at_⟩, routed⟩
  | _ => cases pursues

theorem Returns.pursues (returns : s.Returns i awaiter p act proc) :
    ∃ target, (s.tasks i).pursues = some (.ensureReady target awaiter) := by
  obtain ⟨target, stage, inside⟩ := returns.inside
  exact ⟨target, by rw [inside]; rfl⟩

theorem Aimed.stays (aimed : Aimed ok s) (moves : Moves c s now act t) (keeps : KeepsAim ok c s act)
    (pursues : (s.tasks i).pursues = some op) : op.Aims ok t.voiceIndex := by
  have before := aimed.pursued i op pursues
  rcases moves.frame.index with same | ⟨j, out, asked, proceeds, inside, replaced⟩
  · rw [same]
    exact before
  · cases op with
    | ensureReady target awaiter =>
      intro route routed
      obtain ⟨provider, -, voice⟩ := before route routed
      rw [replaced]
      exact ⟨provider, keeps j out asked proceeds inside i route (inFlight_of_pursues pursues routed), voice⟩
    | _ => exact before

theorem Aimed.named_next (aimed : Aimed ok s) (moves : Moves c s now act t) : t.voiceIndex.Named := by
  rcases moves.frame.index with same | ⟨i, out, asked, -, inside, replaced⟩
  · rw [same]
    exact aimed.named
  · obtain ⟨-, clean⟩ := aimed.pursued i (.enumerate [] out asked) (by rw [inside]; rfl)
    rw [replaced]
    exact c.named_populate s.voiceIndex clean

def Begins (ok : Route → String → Prop) (idx : VoiceIndex) : Prop :=
  ∀ voice provider, idx.providerFor voice = some provider →
    ok ⟨voice, provider, idx.localIdFor voice⟩ (idx.localIdFor voice)

theorem aims_of_asks {u : Supervisor} (begins : Begins ok u.voiceIndex) (named : u.voiceIndex.Named)
    (asks : Asks c u op) : op.Aims ok u.voiceIndex := by
  cases asks with
  | ensureReady name => exact aims_unrouted rfl
  | reloadVoices => exact aims_unrouted rfl
  | enumerate asked =>
    refine ⟨?_, AList.notMem_empty _⟩
    rw [Settings.names, List.mem_insertionSort]
    exact c.named
  | routes synth found =>
    rintro route ⟨⟩
    refine ⟨?_, begins _ _ found, fun synth same => by cases same; rfl⟩
    rw [targetName, if_neg]
    rintro rfl
    exact named.provider _ found
  | _ => trivial

theorem Aimed.pursued_next (aimed : Aimed ok s) (kept : Kept c s) (moves : Moves c s now act t)
    (keeps : KeepsAim ok c s act) (begins : Begins ok t.voiceIndex)
    (pursues : (t.tasks i).pursues = some op) : op.Aims ok t.voiceIndex := by
  rcases moves.pursues pursues with before | takes
  · exact aimed.stays moves keeps before
  · cases takes with
    | asked asks index =>
      rw [index]
      exact aims_of_asks (index ▸ begins) (index ▸ aimed.named_next moves) asks
    | @streams p proc synth route returns listed =>
      obtain ⟨target, before⟩ := returns.pursues
      rintro _ ⟨⟩
      obtain ⟨provider, permitted, voice⟩ := aimed.stays moves keeps before route rfl
      refine ⟨?_, permitted, fun _ same => by cases same; exact voice synth rfl⟩
      -- `_active` is the process that has just been returned, and its provider is the one routed to.
      have active : (s.setProc p proc).active = some p := returns.active kept
      rw [targetName, targetName.fallback, active, ← provider]
      change ((s.setProc p proc).procs p).provider = target
      rw [procs_setProc]
      exact (returns.provider kept before).2
    | enumerates before grows =>
      obtain ⟨unnamed, clean⟩ := aimed.pursued i _ before
      refine ⟨fun member => unnamed (List.mem_cons_of_mem _ member), ?_⟩
      rcases grows with rfl | ⟨voices, rfl⟩
      · exact clean
      · rw [Dict.mem_set]
        rintro (blank | member)
        · exact unnamed (blank ▸ List.mem_cons_self ..)
        · exact clean member

theorem Aimed.exchanging_next (aimed : Aimed ok s) (kept : Kept c s) (moves : Moves c s now act t) {r : Route}
    (at_ : t.tasks i = .exchanging p (some r)) : p < t.nextProc ∧ (t.procs p).provider = r.provider := by
  have known : p < s.nextProc ∧ (s.procs p).provider = r.provider := by
    rcases moves.exchanging at_ with before | ⟨awaiter, proc, returns, joins⟩
    · exact aimed.exchanging i p r before
    · cases joins with
      | synthesizes synth =>
        obtain ⟨target, before⟩ := returns.pursues
        obtain ⟨provider, -⟩ := aimed.pursued i _ before r rfl
        exact ⟨returns.born kept, (returns.provider kept before).1.trans provider⟩
  exact ⟨Nat.lt_of_lt_of_le known.1 moves.frame.nextProc_le, (moves.make known.1).1.trans known.2⟩

theorem Aimed.carries_next (aimed : Aimed ok s) (moves : Moves c s now act t) (p : ProcId) :
    (t.procs p).Carries fun i ex => ∃ route, t.tasks i = .exchanging p route ∧ ex.Aims ok route := by
  have before : (s.procs p).Carries fun i ex =>
      ∃ route, t.tasks i = .exchanging p route ∧ ex.Aims ok route := by
    refine (aimed.carries p).mono ?_
    rintro i ex ⟨route, busy, aims⟩
    exact ⟨route, moves.frame.exchanging i p route busy, aims⟩
  refine moves.carries before ?_
  intro i awaiter proc ex route returns enters at_
  refine ⟨route, at_, ?_⟩
  cases enters with
  | lists => trivial
  | synthesizes synth route =>
    obtain ⟨target, pursues⟩ := returns.pursues
    obtain ⟨-, permitted, voice⟩ := aimed.pursued i _ pursues route rfl
    refine ⟨route, rfl, ?_⟩
    rw [voice synth rfl]
    exact permitted

theorem Aimed.next (aimed : Aimed ok s) (kept : Kept c s) (enabled : s.Enabled act)
    (keeps : KeepsAim ok c s act) (begins : Begins ok (s.next c now act).voiceIndex) :
    Aimed ok (s.next c now act) :=
  have moves := moves enabled
  ⟨aimed.named_next moves, fun _ _ pursues => aimed.pursued_next kept moves keeps begins pursues,
    fun _ _ _ at_ => aimed.exchanging_next kept moves at_, aimed.carries_next moves⟩

theorem start_aimed (ok : Route → String → Prop) (defaultProvider : String) :
    Aimed ok (start defaultProvider) :=
  ⟨⟨AList.notMem_empty _, nofun⟩, nofun, nofun, fun _ => ⟨nofun, nofun⟩⟩

end Supervisor

end Daemon

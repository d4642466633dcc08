import NeuralTts.Daemon.Aim

/-! Which provider and which local id the request of a connection goes to. -/

namespace Daemon

open Library

namespace Supervisor

/-- Every synthesis that a task has asked for is one of the provider, and for the local id, by
which its connection was routed. -/
def WritesAsRouted (s : Supervisor) : Prop :=
  ∀ p i synth, (i, Request.synthesize synth) ∈ (s.procs p).sent →
    ∃ r, s.tasks i = .exchanging p (some r) ∧ (s.procs p).provider = r.provider ∧ synth.voice = r.localId

/-- An enumeration that is about to replace the index has the local ids by which the connections
in flight were routed. -/
def KeepsRoutes (c : Settings) (s : Supervisor) (act : SupervisorAct) : Prop :=
  ∀ i out asked, act = .proceed i → s.tasks i = .inside (.enumerate [] out asked) .entered →
    ∀ j r, s.InFlight j r → (c.populate s.voiceIndex out).localIdFor r.voice = r.localId

variable {c : Settings} {s t : Supervisor}

theorem Aimed.writesAsRouted (aimed : Aimed (fun route localId => localId = route.localId) s) : WritesAsRouted s := by
  intro p i synth sent
  obtain ⟨route, exchanging, r, rfl, voice⟩ := (aimed.carries p).sent i synth sent
  exact ⟨r, exchanging, (aimed.exchanging i p r exchanging).2, voice⟩

/-- Where no enumeration takes a local id away from a connection in flight, every request that is
written goes to the provider, and for the local id, by which its connection was routed. -/
theorem writesAsRouted_of_keepsRoutes {defaultProvider : String} {labels : List (Nat × SupervisorAct)}
    (run : (system c).Run (fun s label => KeepsRoutes c s label.2) (start defaultProvider) labels t) :
    WritesAsRouted t := by
  have preserved : ∀ s label, (Kept c s ∧ Aimed (fun route localId => localId = route.localId) s) →
      (system c).enabled s label → KeepsRoutes c s label.2 →
      Kept c ((system c).next s label) ∧
        Aimed (fun route localId => localId = route.localId) ((system c).next s label) :=
    fun _ _ sound enabled keeps =>
      ⟨sound.1.next enabled, sound.2.next sound.1 enabled keeps fun _ _ _ => rfl⟩
  have sound := run.invariant preserved ⟨start_kept c defaultProvider, start_aimed _ defaultProvider⟩
  exact sound.2.writesAsRouted

def clonedVoices : Settings where
  voiceAllowlists := ∅
  voiceLocaleOverrides := ∅
  registry := ["moss-tts-nano", "omnivoice"]
  distinct := by decide
  named := by decide
  installed _ := true
  idleTimeoutSeconds := 300
  eagerStartup := true

def mossClones : List PbVoice := [⟨"hobbits", "en-us", .neutral, ""⟩]

/-- The clones of omnivoice; the name of the second clip is the public id of the first. -/
def omniClones : List PbVoice :=
  [⟨"hobbits", "en-us", .neutral, ""⟩, ⟨"hobbits.omnivoice", "en-us", .neutral, ""⟩]

def enumeration (i : TaskId) (p : ProcId) (voices : List PbVoice) : List SupervisorAct :=
  [.proceed i, .proceed i, .created i, .connected i, .exchange p (.answer (.warmup 24000 voices)),
    .readWarmup i, .teardown p .write, .teardown p (.giveUp false), .exits p, .teardown p .exited,
    .reaped i]

/-- Connection 1 fills the index and is routed to the first clone of omnivoice. Before it gets
the lifecycle lock, a second enumeration, in which moss-tts-nano fails to start, gives its
public id to the other clone. -/
def reindexed : List (Nat × SupervisorAct) := untimed
  (.connect 1 ⟨"hobbits.omnivoice", 0, "", "Good morning."⟩ :: enumeration 1 0 mossClones ++
    enumeration 1 1 omniClones ++
    [.enumerateAll 2, .proceed 1, .acquire 2, .proceed 2, .spawnFails 2] ++
    enumeration 2 2 omniClones ++
    [.proceed 2, .acquire 1, .proceed 1, .proceed 1, .created 1, .connected 1,
      .exchange 3 (.answer (.warmup 24000 omniClones)), .readWarmup 1, .proceed 1,
      .exchange 3 (.begin 1)])

theorem reindexed_misroutes :
    ¬∀ (c : Settings) (defaultProvider : String) (labels : List (Nat × SupervisorAct)) (t : Supervisor),
      (system c).Run (fun _ _ => True) (start defaultProvider) labels t → WritesAsRouted t := by
  intro claimed
  have admitted : (system clonedVoices).Admits (fun _ _ => True) (start "moss-tts-nano") reindexed :=
    ⟨⟨rfl, trivial⟩, ⟨⟨_, _, rfl, rfl⟩, trivial⟩, ⟨⟨_, _, rfl, rfl⟩, trivial⟩, ⟨⟨_, _, rfl⟩, trivial⟩,
      ⟨⟨_, _, rfl⟩, trivial⟩, ⟨⟨by decide, rfl, ⟨rfl, nofun⟩, trivial⟩, trivial⟩,
      ⟨⟨_, _, rfl, nofun⟩, trivial⟩, ⟨rfl, trivial⟩, ⟨⟨rfl, nofun⟩, trivial⟩, ⟨⟨by decide, rfl⟩, trivial⟩,
      ⟨⟨.inl rfl, rfl⟩, trivial⟩, ⟨⟨_, _, _, _, rfl, rfl⟩, trivial⟩, ⟨⟨_, _, rfl, rfl⟩, trivial⟩,
      ⟨⟨_, _, rfl, rfl⟩, trivial⟩, ⟨⟨_, _, rfl⟩, trivial⟩, ⟨⟨_, _, rfl⟩, trivial⟩,
      ⟨⟨by decide, rfl, ⟨rfl, nofun⟩, trivial⟩, trivial⟩, ⟨⟨_, _, rfl, nofun⟩, trivial⟩, ⟨rfl, trivial⟩,
      ⟨⟨rfl, nofun⟩, trivial⟩, ⟨⟨by decide, rfl⟩, trivial⟩, ⟨⟨.inl rfl, rfl⟩, trivial⟩,
      ⟨⟨_, _, _, _, rfl, rfl⟩, trivial⟩, ⟨rfl, trivial⟩, ⟨⟨_, _, rfl, rfl⟩, trivial⟩,
      ⟨⟨⟨_, rfl⟩, rfl, rfl⟩, trivial⟩, ⟨⟨_, _, rfl, rfl⟩, trivial⟩, ⟨⟨_, _, _, rfl⟩, trivial⟩,
      ⟨⟨_, _, rfl, rfl⟩, trivial⟩, ⟨⟨_, _, rfl, rfl⟩, trivial⟩, ⟨⟨_, _, rfl⟩, trivial⟩,
      ⟨⟨_, _, rfl⟩, trivial⟩, ⟨⟨by decide, rfl, ⟨rfl, nofun⟩, trivial⟩, trivial⟩,
      ⟨⟨_, _, rfl, nofun⟩, trivial⟩, ⟨rfl, trivial⟩, ⟨⟨rfl, nofun⟩, trivial⟩, ⟨⟨by decide, rfl⟩, trivial⟩,
      ⟨⟨.inl rfl, rfl⟩, trivial⟩, ⟨⟨_, _, _, _, rfl, rfl⟩, trivial⟩, ⟨⟨_, _, rfl, rfl⟩, trivial⟩,
      ⟨⟨⟨_, rfl⟩, rfl, rfl⟩, trivial⟩, ⟨⟨_, _, rfl, rfl⟩, trivial⟩, ⟨⟨_, _, rfl, rfl⟩, trivial⟩,
      ⟨⟨_, _, rfl⟩, trivial⟩, ⟨⟨_, _, rfl⟩, trivial⟩, ⟨⟨by decide, rfl, ⟨rfl, nofun⟩, trivial⟩, trivial⟩,
      ⟨⟨_, _, rfl, nofun⟩, trivial⟩, ⟨⟨_, _, rfl, rfl⟩, trivial⟩,
      ⟨⟨by decide, rfl, ⟨_, rfl⟩, ⟨_, rfl⟩⟩, trivial⟩, trivial⟩
  have routed := claimed clonedVoices "moss-tts-nano" reindexed _ admitted.run
  obtain ⟨r, at_, -, voice⟩ :=
    routed 3 1 ⟨"hobbits.omnivoice", 0x3F800000, "en-us", "Good morning."⟩ (by decide)
  cases at_
  exact absurd voice (by decide)

def undisputed : List (Nat × SupervisorAct) := untimed
  (.connect 1 ⟨"hobbits.omnivoice", 0, "", "Good morning."⟩ :: enumeration 1 0 mossClones ++
    enumeration 1 1 omniClones ++
    [.proceed 1, .proceed 1, .proceed 1, .created 1, .connected 1,
      .exchange 2 (.answer (.warmup 24000 omniClones)), .readWarmup 1, .proceed 1,
      .exchange 2 (.begin 1)])

theorem undisputed_writesAsRouted :
    WritesAsRouted ((system clonedVoices).after (start "moss-tts-nano") undisputed) := by
  have fills : KeepsRoutes clonedVoices
      ((system clonedVoices).after (start "moss-tts-nano") (undisputed.take 23)) (.proceed 1) := by
    rintro _ out asked ⟨⟩ - (_ | _ | j) r ⟨op, at_ | ⟨stage, at_⟩, mine⟩ <;> cases at_
    cases mine
  have admitted : (system clonedVoices).Admits (fun s label => KeepsRoutes clonedVoices s label.2)
      (start "moss-tts-nano") undisputed :=
    ⟨⟨rfl, nofun⟩, ⟨⟨_, _, rfl, rfl⟩, by rintro _ _ _ ⟨⟩ ⟨⟩⟩, ⟨⟨_, _, rfl, rfl⟩, by rintro _ _ _ ⟨⟩ ⟨⟩⟩,
      ⟨⟨_, _, rfl⟩, nofun⟩, ⟨⟨_, _, rfl⟩, nofun⟩, ⟨⟨by decide, rfl, ⟨rfl, nofun⟩, trivial⟩, nofun⟩,
      ⟨⟨_, _, rfl, nofun⟩, nofun⟩, ⟨rfl, nofun⟩, ⟨⟨rfl, nofun⟩, nofun⟩, ⟨⟨by decide, rfl⟩, nofun⟩,
      ⟨⟨.inl rfl, rfl⟩, nofun⟩, ⟨⟨_, _, _, _, rfl, rfl⟩, nofun⟩,
      ⟨⟨_, _, rfl, rfl⟩, by rintro _ _ _ ⟨⟩ ⟨⟩⟩, ⟨⟨_, _, rfl, rfl⟩, by rintro _ _ _ ⟨⟩ ⟨⟩⟩,
      ⟨⟨_, _, rfl⟩, nofun⟩, ⟨⟨_, _, rfl⟩, nofun⟩, ⟨⟨by decide, rfl, ⟨rfl, nofun⟩, trivial⟩, nofun⟩,
      ⟨⟨_, _, rfl, nofun⟩, nofun⟩, ⟨rfl, nofun⟩, ⟨⟨rfl, nofun⟩, nofun⟩, ⟨⟨by decide, rfl⟩, nofun⟩,
      ⟨⟨.inl rfl, rfl⟩, nofun⟩, ⟨⟨_, _, _, _, rfl, rfl⟩, nofun⟩, ⟨⟨_, _, rfl, rfl⟩, fills⟩,
      ⟨⟨_, _, rfl, rfl⟩, by rintro _ _ _ ⟨⟩ ⟨⟩⟩, ⟨⟨_, _, rfl, rfl⟩, by rintro _ _ _ ⟨⟩ ⟨⟩⟩,
      ⟨⟨_, _, rfl⟩, nofun⟩, ⟨⟨_, _, rfl⟩, nofun⟩, ⟨⟨by decide, rfl, ⟨rfl, nofun⟩, trivial⟩, nofun⟩,
      ⟨⟨_, _, rfl, nofun⟩, nofun⟩, ⟨⟨_, _, rfl, rfl⟩, by rintro _ _ _ ⟨⟩ ⟨⟩⟩,
      ⟨⟨by decide, rfl, ⟨_, rfl⟩, ⟨_, rfl⟩⟩, nofun⟩, trivial⟩
  exact writesAsRouted_of_keepsRoutes admitted.run

end Supervisor

end Daemon

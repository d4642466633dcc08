import NeuralTts.Daemon.Routing

/-! Whether the voices that an allowlist drops stay out of the listing and of what is written to a
provider. The list is applied when the index is filled; a process keeps its own, unfiltered list. -/

namespace Daemon

open Library

namespace Curation

/-- The allowlist of the provider, if it has one that is not empty, has the id. -/
def Permits (c : Curation) (provider localId : String) : Prop :=
  ∀ allow, c.voiceAllowlists.lookup provider = some allow → allow ≠ [] → localId ∈ allow

variable {c : Curation}

theorem permits_of_apply {provider : String} {voices : List Voice} {v : Voice}
    (member : v ∈ c.apply provider voices) : c.Permits provider v.id := by
  intro allow found nonempty
  obtain ⟨raw, kept, rfl⟩ := List.mem_map.mp member
  have same : (relocate (c.overridesFor provider) raw).id = raw.id := by
    unfold relocate
    split <;> rfl
  rw [same]
  unfold allowed at kept
  rw [found, Option.getD_some] at kept
  split at kept
  · exact absurd rfl nonempty
  · simpa using (List.mem_filter.mp kept).2

end Curation

structure VoiceIndex.Curated (c : Curation) (idx : VoiceIndex) : Prop where
  raw : ∀ provider, ∀ v ∈ rawList idx.byProviderRaw provider, c.Permits provider v.id
  entry : ∀ u provider localId, idx.byPublicId.lookup u = some (provider, localId) →
    c.Permits provider localId

namespace VoiceIndex

theorem curated_rebuild {c : Curation} {raw : Dict String (List Voice)}
    (slices : ∀ provider, ∀ v ∈ rawList raw provider, c.Permits provider v.id) : (rebuild raw).Curated c := by
  refine ⟨slices, ?_⟩
  intro u provider localId found
  obtain ⟨v, listed, -, rfl⟩ := (lookup_rebuild raw u provider localId).mp found
  exact slices provider v (mem_offers.mp (mem_offers_of_listed raw listed))

theorem curated_empty (c : Curation) : new.Curated c := ⟨nofun, nofun⟩

theorem Curated.permits {c : Curation} {idx : VoiceIndex} (curated : idx.Curated c) {u provider : String}
    (found : idx.providerFor u = some provider) : c.Permits provider (idx.localIdFor u) := by
  obtain ⟨⟨owner, localId⟩, entry, rfl⟩ := Option.map_eq_some_iff.mp found
  rw [localIdFor, entry]
  exact curated.entry u owner localId entry

end VoiceIndex

theorem Curation.curated_populate (c : Curation) (idx : VoiceIndex) (out : Dict String (List Voice)) :
    (c.populate idx out).Curated c := by
  refine List.foldlRecOn out.entries _ (VoiceIndex.curated_empty c) fun idx curated slice _ => ?_
  refine VoiceIndex.curated_rebuild ?_
  intro provider v member
  rw [VoiceIndex.rawList, Dict.lookup_set] at member
  split at member
  · rename_i same
    subst same
    exact permits_of_apply member
  · exact curated.raw provider v member

namespace Supervisor

/-- What the listing attributes to a provider, and what a connection has written to a process of a
provider, is on the allowlist of the provider. -/
structure EnforcesAllowlists (c : Curation) (s : Supervisor) : Prop where
  listed : ∀ v ∈ s.voiceIndex.allVoices, ∀ provider, s.voiceIndex.providerFor v.id = some provider →
    c.Permits provider (s.voiceIndex.localIdFor v.id)
  written : ∀ p i synth, (i, Request.synthesize synth) ∈ (s.procs p).sent →
    c.Permits (s.procs p).provider synth.voice

/-- An enumeration that is about to replace the index leaves each connection in flight a local id
that is on the allowlist of the provider to which the connection was routed. -/
def KeepsPermitted (c : Settings) (s : Supervisor) (act : SupervisorAct) : Prop :=
  ∀ i out asked, act = .proceed i → s.tasks i = .inside (.enumerate [] out asked) .entered →
    ∀ j r, s.InFlight j r → c.Permits r.provider ((c.populate s.voiceIndex out).localIdFor r.voice)

variable {c : Settings} {s t : Supervisor} {now : Nat} {act : SupervisorAct}

theorem Moves.curated (moves : Moves c s now act t) (curated : s.voiceIndex.Curated c.toCuration) :
    t.voiceIndex.Curated c.toCuration := by
  rcases moves.frame.index with same | ⟨i, out, asked, -, -, replaced⟩
  · rw [same]
    exact curated
  · rw [replaced]
    exact c.curated_populate s.voiceIndex out

theorem curated_of_run {ok : Supervisor → Nat × SupervisorAct → Prop} {defaultProvider : String}
    {labels : List (Nat × SupervisorAct)} (run : (system c).Run ok (start defaultProvider) labels t) :
    t.voiceIndex.Curated c.toCuration := by
  let holds : Supervisor → Prop := fun s => s.voiceIndex.Curated c.toCuration
  have preserved : ∀ s label, holds s → (system c).enabled s label → ok s label →
      holds ((system c).next s label) :=
    fun _ _ curated enabled _ => Moves.curated (moves enabled) curated
  have kept : holds t := run.invariant preserved (VoiceIndex.curated_empty _)
  exact kept

def OnAllowlist (c : Settings) (route : Route) (localId : String) : Prop :=
  c.Permits route.provider localId

theorem Aimed.enforces (aimed : Aimed (OnAllowlist c) s) (curated : s.voiceIndex.Curated c.toCuration) :
    EnforcesAllowlists c.toCuration s where
  listed _ _ _ found := curated.permits found
  written p i synth sent := by
    obtain ⟨route, busy, r, rfl, permitted⟩ := (aimed.carries p).sent i synth sent
    rw [(aimed.exchanging i p r busy).2]
    exact permitted

/-- Where no enumeration leaves a connection in flight a local id that its provider must not be
asked for, the allowlists hold of what is listed and of what is written. -/
theorem enforcesAllowlists_of_keepsPermitted {defaultProvider : String}
    {labels : List (Nat × SupervisorAct)}
    (run : (system c).Run (fun s label => KeepsPermitted c s label.2) (start defaultProvider) labels t) :
    EnforcesAllowlists c.toCuration t := by
  have preserved : ∀ s label,
      (Kept c s ∧ s.voiceIndex.Curated c.toCuration ∧ Aimed (OnAllowlist c) s) →
      (system c).enabled s label → KeepsPermitted c s label.2 →
      Kept c ((system c).next s label) ∧ ((system c).next s label).voiceIndex.Curated c.toCuration ∧
        Aimed (OnAllowlist c) ((system c).next s label) := by
    rintro s label ⟨kept, curated, aimed⟩ enabled keeps
    have still : ((system c).next s label).voiceIndex.Curated c.toCuration :=
      Moves.curated (moves enabled) curated
    exact ⟨kept.next enabled, still, aimed.next kept enabled keeps fun _ _ found => still.permits found⟩
  obtain ⟨-, curated, aimed⟩ := run.invariant preserved
    ⟨start_kept c defaultProvider, VoiceIndex.curated_empty _, start_aimed _ defaultProvider⟩
  exact aimed.enforces curated

def onlyHobbits : Settings :=
  { clonedVoices with voiceAllowlists := (∅ : Dict String (List String)).set "omnivoice" ["hobbits"] }

/-- In the second index the public id of connection 1 is unknown, and omnivoice has a clone of that
very name, which its allowlist drops. -/
theorem reindexed_disallowed :
    ¬∀ (c : Settings) (defaultProvider : String) (labels : List (Nat × SupervisorAct)) (t : Supervisor),
      (system c).Run (fun _ _ => True) (start defaultProvider) labels t →
        EnforcesAllowlists c.toCuration t := by
  intro claimed
  have admitted : (system onlyHobbits).Admits (fun _ _ => True) (start "moss-tts-nano") reindexed :=
    ⟨⟨rfl, trivial⟩, ⟨⟨_, _, rfl, rfl⟩, trivial⟩, ⟨⟨_, _, rfl, rfl⟩, trivial⟩, ⟨⟨_, _, rfl⟩, trivial⟩,
      ⟨⟨_, _, rfl⟩, trivial⟩, ⟨⟨by decide, rfl, ⟨rfl, nofun⟩, trivial⟩, trivial⟩,
      ⟨⟨_, _, rfl, nofun⟩, trivial⟩, ⟨rfl, trivial⟩, ⟨⟨rfl, nofun⟩, trivial⟩, ⟨⟨by decide, rfl⟩, trivial⟩,
      ⟨⟨.inl rfl, rfl⟩, trivial⟩, ⟨⟨_, _, _, _, rfl, rfl⟩, trivial⟩, ⟨⟨_, _, rfl, rfl⟩, trivial⟩,
      ⟨⟨_, _, rfl, rfl⟩, trivial⟩, ⟨⟨_, _, rfl⟩, trivial⟩, ⟨⟨_, _, rfl⟩, trivial⟩,
      ⟨⟨by decide, rfl, ⟨rfl, nofun⟩, trivial⟩, trivial⟩, ⟨⟨_, _, rfl, nofun⟩, trivial⟩, ⟨rfl, trivial⟩,
      ⟨⟨rfl, nofun⟩, trivial⟩, ⟨⟨by decide, rfl⟩, trivial⟩, ⟨⟨.inl rfl, rfl⟩, trivial⟩,
      ⟨⟨_, _, _, _, rfl, rfl⟩, trivial⟩, ⟨rfl, trivial⟩, ⟨⟨_, _, rfl, rfl⟩, trivial⟩,
      ⟨⟨⟨_, rfl⟩, rfl, rfl⟩, trivial⟩, ⟨⟨_, _, rfl, rfl⟩, trivial⟩, ⟨⟨_, _, _, rfl⟩, trivial⟩,
      ⟨⟨_, _, rfl, rfl⟩, trivial⟩, ⟨⟨_, _, rfl, rfl⟩, trivial⟩, ⟨⟨_, _, rfl⟩, trivial⟩,
      ⟨⟨_, _, rfl⟩, trivial⟩, ⟨⟨by decide, rfl, ⟨rfl, nofun⟩, trivial⟩, trivial⟩,
      ⟨⟨_, _, rfl, nofun⟩, trivial⟩, ⟨rfl, trivial⟩, ⟨⟨rfl, nofun⟩, trivial⟩, ⟨⟨by decide, rfl⟩, trivial⟩,
      ⟨⟨.inl rfl, rfl⟩, trivial⟩, ⟨⟨_, _, _, _, rfl, rfl⟩, trivial⟩, ⟨⟨_, _, rfl, rfl⟩, trivial⟩,
      ⟨⟨⟨_, rfl⟩, rfl, rfl⟩, trivial⟩, ⟨⟨_, _, rfl, rfl⟩, trivial⟩, ⟨⟨_, _, rfl, rfl⟩, trivial⟩,
      ⟨⟨_, _, rfl⟩, trivial⟩, ⟨⟨_, _, rfl⟩, trivial⟩, ⟨⟨by decide, rfl, ⟨rfl, nofun⟩, trivial⟩, trivial⟩,
      ⟨⟨_, _, rfl, nofun⟩, trivial⟩, ⟨⟨_, _, rfl, rfl⟩, trivial⟩,
      ⟨⟨by decide, rfl, ⟨_, rfl⟩, ⟨_, rfl⟩⟩, trivial⟩, trivial⟩
  have enforced := claimed onlyHobbits "moss-tts-nano" reindexed _ admitted.run
  have permitted : onlyHobbits.Permits "omnivoice" "hobbits.omnivoice" :=
    enforced.written 3 1 ⟨"hobbits.omnivoice", 0x3F800000, "en-us", "Good morning."⟩ (by decide)
  exact absurd (permitted ["hobbits"] rfl (by simp)) (by decide)

theorem undisputed_enforcesAllowlists :
    EnforcesAllowlists onlyHobbits.toCuration
      ((system onlyHobbits).after (start "moss-tts-nano") undisputed) := by
  have fills : KeepsPermitted onlyHobbits
      ((system onlyHobbits).after (start "moss-tts-nano") (undisputed.take 23)) (.proceed 1) := by
    rintro _ out asked ⟨⟩ - (_ | _ | j) r ⟨op, at_ | ⟨stage, at_⟩, mine⟩ <;> cases at_
    cases mine
  have admitted : (system onlyHobbits).Admits (fun s label => KeepsPermitted onlyHobbits s label.2)
      (start "moss-tts-nano") undisputed :=
    ⟨⟨rfl, nofun⟩, ⟨⟨_, _, rfl, rfl⟩, by rintro _ _ _ ⟨⟩ ⟨⟩⟩, ⟨⟨_, _, rfl, rfl⟩, by rintro _ _ _ ⟨⟩ ⟨⟩⟩,
      ⟨⟨_, _, rfl⟩, nofun⟩, ⟨⟨_, _, rfl⟩, nofun⟩, ⟨⟨by decide, rfl, ⟨rfl, nofun⟩, trivial⟩, nofun⟩,
      ⟨⟨_, _, rfl, nofun⟩, nofun⟩, ⟨rfl, nofun⟩, ⟨⟨rfl, nofun⟩, nofun⟩, ⟨⟨by decide, rfl⟩, nofun⟩,
      ⟨⟨.inl rfl, rfl⟩, nofun⟩, ⟨⟨_, _, _, _, rfl, rfl⟩, nofun⟩,
      ⟨⟨_, _, rfl, rfl⟩, by rintro _ _ _ ⟨⟩ ⟨⟩⟩, ⟨⟨_, _, rfl, rfl⟩, by rintro _ _ _ ⟨⟩ ⟨⟩⟩,
      ⟨⟨_, _, rfl⟩, nofun⟩, ⟨⟨_, _, rfl⟩, nofun⟩, ⟨⟨by decide, rfl, ⟨rfl, nofun⟩, trivial⟩, nofun⟩,
      ⟨⟨_, _, rfl, nofun⟩, nofun⟩, ⟨rfl, nofun⟩, ⟨⟨rfl, nofun⟩, nofun⟩, ⟨⟨by decide, rfl⟩, nofun⟩,
      ⟨⟨.inl rfl, rfl⟩, nofun⟩, ⟨⟨_, _, _, _, rfl, rfl⟩, nofun⟩, ⟨⟨_, _, rfl, rfl⟩, fills⟩,
      ⟨⟨_, _, rfl, rfl⟩, by rintro _ _ _ ⟨⟩ ⟨⟩⟩, ⟨⟨_, _, rfl, rfl⟩, by rintro _ _ _ ⟨⟩ ⟨⟩⟩,
      ⟨⟨_, _, rfl⟩, nofun⟩, ⟨⟨_, _, rfl⟩, nofun⟩, ⟨⟨by decide, rfl, ⟨rfl, nofun⟩, trivial⟩, nofun⟩,
      ⟨⟨_, _, rfl, nofun⟩, nofun⟩, ⟨⟨_, _, rfl, rfl⟩, by rintro _ _ _ ⟨⟩ ⟨⟩⟩,
      ⟨⟨by decide, rfl, ⟨_, rfl⟩, ⟨_, rfl⟩⟩, nofun⟩, trivial⟩
  exact enforcesAllowlists_of_keepsPermitted admitted.run

end Supervisor

end Daemon

import NeuralTts.Daemon.Supervisor

/-! `Supervisor.enumerate_all_voices` as its caller sees it: nobody else works on the processes,
and what becomes of them is known beforehand. -/

namespace Daemon

open Library

structure ActiveProvider where
  name : String
  state : ProviderState
  voices : List Voice
deriving DecidableEq

/-- What a provider that is spawned now would list in its warm-up response, if it gets that far,
and which teardowns raise. -/
structure Host where
  reports : String → Option (List PbVoice)
  teardownRaises : ActiveProvider → Bool

namespace Host

variable (c : Settings) (h : Host)

/-- `_shutdown_locked` leaves no active provider behind, whether it raises or not. -/
def shutdownRaises : Option ActiveProvider → Bool
  | some a => h.teardownRaises a
  | none => false

/-- `_spawn_locked`: the active provider that it leaves, and whether it returns. -/
def spawnLocked (active : Option ActiveProvider) (name : String) : Option ActiveProvider × Bool :=
  if name ∉ c.registry ∨ c.installed name = false then (active, false)
  else if h.shutdownRaises active then (none, false)
  else
    match h.reports name with
    | some voices => (some ⟨name, .ready, voices.map voiceFromPb⟩, true)
    | none => (none, false)

/-- The branch that spares the active process. -/
def reusable (active : Option ActiveProvider) (name : String) : Option ActiveProvider :=
  active.filter fun a => a.name = name ∧ a.state = .ready

/-- The body of the loop; whatever the spawn raises is logged. -/
def enumerateProvider (acc : Option ActiveProvider × Dict String (List Voice)) (name : String) :
    Option ActiveProvider × Dict String (List Voice) :=
  if c.installed name = false then acc
  else
    match reusable acc.1 name with
    | some a => (acc.1, acc.2.set name a.voices)
    | none =>
      match h.spawnLocked c acc.1 name with
      | (some a, true) => (none, acc.2.set name a.voices)
      | (active, _) => (active, acc.2)

def enumerateAllVoices (idx : VoiceIndex) (active : Option ActiveProvider) :
    Option ActiveProvider × VoiceIndex :=
  let swept := c.names.foldl (h.enumerateProvider c) (active, ∅)
  (swept.1, c.populate idx swept.2)

def listing (name : String) : Option (List Voice) :=
  (h.reports name).map fun voices => voices.map voiceFromPb

/-- Every enabled and installed provider that starts has its present list in the index, curated,
and no other provider has any. -/
def Fresh (idx : VoiceIndex) : Prop :=
  ∀ name, idx.byProviderRaw.lookup name =
    if name ∈ c.registry ∧ c.installed name = true then (h.listing name).map (c.apply name) else none

/-- The active provider remembers its present list, or is not the first to be enumerated; and if
its teardown raises, the provider that has it torn down would not have started anyway. -/
structure Unbiased (names : List String) (a : ActiveProvider) : Prop where
  remembers : a.state = .ready → names.find? c.installed = some a.name →
    (h.listing a.name).map (c.apply a.name) = some (c.apply a.name a.voices)
  spares : ∀ name, names.find? (fun name => c.installed name && (reusable (some a) name).isNone) = some name →
    h.teardownRaises a = true → h.reports name = none

variable {c h} {name : String} {names : List String} {active : Option ActiveProvider} {a : ActiveProvider}
  {out : Dict String (List Voice)}

theorem enumerateProvider_uninstalled (missing : c.installed name = false) :
    h.enumerateProvider c (active, out) name = (active, out) := by
  simp [enumerateProvider, missing]

theorem enumerateProvider_reuses (present : c.installed name = true)
    (reuse : reusable active name = some a) :
    h.enumerateProvider c (active, out) name = (active, out.set name a.voices) := by
  simp [enumerateProvider, present, reuse]

theorem enumerateProvider_spawns (known : name ∈ c.registry) (present : c.installed name = true)
    (fresh : reusable active name = none) :
    h.enumerateProvider c (active, out) name =
      (none, if h.shutdownRaises active then out else
        match h.listing name with
        | some voices => out.set name voices
        | none => out) := by
  simp only [enumerateProvider, present, fresh, spawnLocked, known, listing]
  by_cases raises : h.shutdownRaises active = true
  · simp [raises]
  · cases reported : h.reports name <;> simp [raises]

theorem unlisted_set {first : String} {rest : List String} (absent : first ∉ rest)
    (unlisted : ∀ other ∈ rest, out.lookup other = none) (voices : List Voice) :
    ∀ other ∈ rest, (out.set first voices).lookup other = none := by
  intro other inside
  have differs : other ≠ first := fun same => absent (same ▸ inside)
  rw [Dict.lookup_set, if_neg differs, unlisted other inside]

theorem sweep_other (known : ∀ other ∈ names, other ∈ c.registry)
    (other : name ∉ names ∨ c.installed name = false) :
    (names.foldl (h.enumerateProvider c) (active, out)).2.lookup name = out.lookup name := by
  induction names generalizing active out with
  | nil => rfl
  | cons first rest ih =>
    obtain ⟨known_first, rest_known⟩ := List.forall_mem_cons.mp known
    have rest_other : name ∉ rest ∨ c.installed name = false :=
      other.imp_left fun outside inside => outside (List.mem_cons_of_mem _ inside)
    rw [List.foldl_cons]
    by_cases present : c.installed first = true
    · have differs : name ≠ first := by
        rintro rfl
        rcases other with outside | missing
        · exact outside List.mem_cons_self
        · rw [present] at missing
          cases missing
      cases reuse : reusable active first with
      | some a =>
        rw [enumerateProvider_reuses present reuse, ih rest_known rest_other, Dict.lookup_set, if_neg differs]
      | none =>
        rw [enumerateProvider_spawns known_first present reuse, ih rest_known rest_other]
        split
        · rfl
        · split
          · rw [Dict.lookup_set, if_neg differs]
          · rfl
    · rw [enumerateProvider_uninstalled (by simpa using present), ih rest_known rest_other]

theorem sweep_idle (distinct : names.Nodup) (known : ∀ other ∈ names, other ∈ c.registry)
    (unlisted : ∀ other ∈ names, out.lookup other = none) (inside : name ∈ names)
    (present : c.installed name = true) :
    (names.foldl (h.enumerateProvider c) (none, out)).2.lookup name = h.listing name := by
  induction names generalizing out with
  | nil => cases inside
  | cons first rest ih =>
    obtain ⟨absent, distinctRest⟩ := List.nodup_cons.mp distinct
    obtain ⟨known_first, rest_known⟩ := List.forall_mem_cons.mp known
    obtain ⟨unlisted_first, rest_unlisted⟩ := List.forall_mem_cons.mp unlisted
    have set_unlisted := unlisted_set absent rest_unlisted
    rw [List.foldl_cons]
    by_cases same : name = first
    · subst same
      rw [enumerateProvider_spawns known_first present rfl, sweep_other rest_known (.inl absent)]
      simp only [shutdownRaises]
      cases listed : h.listing name with
      | some voices => simp
      | none => simp [unlisted_first]
    · have later : name ∈ rest := (List.mem_cons.mp inside).resolve_left same
      by_cases installed : c.installed first = true
      · rw [enumerateProvider_spawns known_first installed rfl]
        simp only [shutdownRaises]
        cases listed : h.listing first with
        | some voices => exact ih distinctRest rest_known (set_unlisted voices) later
        | none => exact ih distinctRest rest_known rest_unlisted later
      · rw [enumerateProvider_uninstalled (by simpa using installed)]
        exact ih distinctRest rest_known rest_unlisted later

theorem unbiased_cons_of_uninstalled {first : String} {rest : List String}
    (missing : c.installed first = false) : h.Unbiased c (first :: rest) a ↔ h.Unbiased c rest a := by
  have installed : (first :: rest).find? c.installed = rest.find? c.installed :=
    List.find?_cons_of_neg (by simp [missing])
  have reaper : (first :: rest).find? (fun name => c.installed name && (reusable (some a) name).isNone) =
      rest.find? fun name => c.installed name && (reusable (some a) name).isNone :=
    List.find?_cons_of_neg (by simp [missing])
  constructor
  · intro unbiased
    exact ⟨by rw [← installed]; exact unbiased.remembers, by rw [← reaper]; exact unbiased.spares⟩
  · intro unbiased
    exact ⟨by rw [installed]; exact unbiased.remembers, by rw [reaper]; exact unbiased.spares⟩

theorem reusable_active : reusable (some a) name = some a ↔ a.name = name ∧ a.state = .ready := by
  simp [reusable, Option.filter_eq_some_iff]

theorem unbiased_cons_of_reuses {rest : List String} (present : c.installed a.name = true)
    (ready : a.state = .ready) :
    h.Unbiased c (a.name :: rest) a ↔
      (h.listing a.name).map (c.apply a.name) = some (c.apply a.name a.voices) ∧ h.Unbiased c rest a := by
  have reuse : reusable (some a) a.name = some a := reusable_active.mpr ⟨rfl, ready⟩
  have reaper : (a.name :: rest).find? (fun name => c.installed name && (reusable (some a) name).isNone) =
      rest.find? fun name => c.installed name && (reusable (some a) name).isNone :=
    List.find?_cons_of_neg (by simp [reuse])
  constructor
  · intro unbiased
    have remembered := unbiased.remembers ready (List.find?_cons_of_pos present)
    refine ⟨remembered, fun _ _ => remembered, ?_⟩
    rw [← reaper]
    exact unbiased.spares
  · rintro ⟨remembered, unbiased⟩
    refine ⟨fun _ _ => remembered, ?_⟩
    rw [reaper]
    exact unbiased.spares

theorem unbiased_cons_of_spawns {first : String} {rest : List String} (present : c.installed first = true)
    (fresh : reusable (some a) first = none) :
    h.Unbiased c (first :: rest) a ↔ (h.teardownRaises a = true → h.reports first = none) := by
  have reaper : (first :: rest).find? (fun name => c.installed name && (reusable (some a) name).isNone) =
      some first := List.find?_cons_of_pos (by simp [present, fresh])
  constructor
  · intro unbiased
    exact unbiased.spares first reaper
  · intro spared
    refine ⟨fun ready found => ?_, fun name found => ?_⟩
    · rw [List.find?_cons_of_pos present] at found
      rw [reusable_active.mpr ⟨(Option.some.inj found).symm, ready⟩] at fresh
      cases fresh
    · rw [reaper] at found
      cases found
      exact spared

def Sweeps (c : Settings) (h : Host) (names : List String) (a : ActiveProvider)
    (out : Dict String (List Voice)) : Prop :=
  ∀ name ∈ names, c.installed name = true →
    ((names.foldl (h.enumerateProvider c) (some a, out)).2.lookup name).map (c.apply name) =
      (h.listing name).map (c.apply name)

theorem sweeps_iff (distinct : names.Nodup) (known : ∀ other ∈ names, other ∈ c.registry)
    (unlisted : ∀ other ∈ names, out.lookup other = none) :
    Sweeps c h names a out ↔ h.Unbiased c names a := by
  induction names generalizing out with
  | nil => exact ⟨fun _ => ⟨nofun, nofun⟩, fun _ => nofun⟩
  | cons first rest ih =>
    obtain ⟨absent, distinctRest⟩ := List.nodup_cons.mp distinct
    obtain ⟨known_first, rest_known⟩ := List.forall_mem_cons.mp known
    obtain ⟨unlisted_first, rest_unlisted⟩ := List.forall_mem_cons.mp unlisted
    have set_unlisted := unlisted_set absent rest_unlisted
    have split : ∀ {acc}, h.enumerateProvider c (some a, out) first = acc →
        (Sweeps c h (first :: rest) a out ↔
          (c.installed first = true →
            ((rest.foldl (h.enumerateProvider c) acc).2.lookup first).map (c.apply first) =
              (h.listing first).map (c.apply first)) ∧
          ∀ name ∈ rest, c.installed name = true →
            ((rest.foldl (h.enumerateProvider c) acc).2.lookup name).map (c.apply name) =
              (h.listing name).map (c.apply name)) := by
      intro acc step
      rw [Sweeps, List.foldl_cons, step, List.forall_mem_cons]
    by_cases present : c.installed first = true
    · by_cases reuse : reusable (some a) first = some a
      · -- `first` is the active provider, which stays active for the rest.
        obtain ⟨rfl, ready⟩ := reusable_active.mp reuse
        rw [split (enumerateProvider_reuses present reuse), unbiased_cons_of_reuses present ready,
          sweep_other rest_known (.inl absent), Dict.lookup_set, if_pos rfl]
        refine and_congr ?_ (ih distinctRest rest_known (set_unlisted _))
        exact ⟨fun remembered => (remembered present).symm, fun remembered _ => remembered.symm⟩
      · -- `first` has `a` torn down, and nothing is active for the rest.
        have fresh : reusable (some a) first = none := by
          cases served : reusable (some a) first with
          | none => rfl
          | some b => exact absurd (Option.filter_eq_some_iff.mp served).1 (by rintro ⟨⟩; exact reuse served)
        rw [split (enumerateProvider_spawns known_first present fresh),
          unbiased_cons_of_spawns present fresh, sweep_other rest_known (.inl absent)]
        have others : ∀ other ∈ rest, (if h.shutdownRaises (some a) then out else
            match h.listing first with
            | some voices => out.set first voices
            | none => out).lookup other = none := by
          intro other inside
          split
          · exact rest_unlisted other inside
          · split
            · exact set_unlisted _ other inside
            · exact rest_unlisted other inside
        rw [and_iff_left fun name inside installed =>
          congrArg _ (sweep_idle distinctRest rest_known others inside installed)]
        by_cases raises : h.teardownRaises a = true
        · simp [shutdownRaises, raises, present, unlisted_first, listing, eq_comm]
        · have quiet : h.teardownRaises a = false := by simpa using raises
          cases listed : h.listing first with
          | some voices => simp [shutdownRaises, quiet]
          | none => simp [shutdownRaises, quiet, unlisted_first]
    · have missing : c.installed first = false := by simpa using present
      rw [split (enumerateProvider_uninstalled missing), unbiased_cons_of_uninstalled missing,
        ← ih distinctRest rest_known rest_unlisted]
      exact and_iff_right fun installed => absurd installed present

theorem lookup_foldl_setProviderVoices (c : Curation) (name : String)
    (slices : List (Sigma fun _ : String => List Voice)) (idx : VoiceIndex) (distinct : slices.NodupKeys) :
    (slices.foldl (fun idx slice => idx.setProviderVoices slice.1 (c.apply slice.1 slice.2))
        idx).byProviderRaw.lookup name =
      ((slices.dlookup name).map (c.apply name)).or (idx.byProviderRaw.lookup name) := by
  induction slices generalizing idx with
  | nil => rfl
  | cons slice rest ih =>
    obtain ⟨provider, voices⟩ := slice
    obtain ⟨absent, distinctRest⟩ := List.nodupKeys_cons.mp distinct
    rw [List.foldl_cons, ih _ distinctRest]
    have stored : (idx.setProviderVoices provider (c.apply provider voices)).byProviderRaw =
        idx.byProviderRaw.set provider (c.apply provider voices) := rfl
    rw [stored, Dict.lookup_set]
    by_cases same : name = provider
    · subst same
      rw [List.dlookup_eq_none.mpr absent, List.dlookup_cons_eq, if_pos rfl]
      rfl
    · rw [List.dlookup_cons_ne _ _ same, if_neg same]

theorem lookup_populate (c : Curation) (idx : VoiceIndex) (out : Dict String (List Voice)) (name : String) :
    (c.populate idx out).byProviderRaw.lookup name = (out.lookup name).map (c.apply name) := by
  have populated := lookup_foldl_setProviderVoices c name out.entries idx.clear out.nodupKeys
  rw [show idx.clear.byProviderRaw.lookup name = none from rfl, Option.or_none] at populated
  exact populated

theorem mem_names : name ∈ c.names ↔ name ∈ c.registry := List.mem_insertionSort _

theorem lookup_sweep_iff (c : Settings) (h : Host) (active : Option ActiveProvider) :
    (∀ name ∈ c.names, c.installed name = true →
      ((c.names.foldl (h.enumerateProvider c) (active, ∅)).2.lookup name).map (c.apply name) =
        (h.listing name).map (c.apply name)) ↔ ∀ a, active = some a → h.Unbiased c c.names a := by
  have distinct : c.names.Nodup := (List.perm_insertionSort _ _).nodup_iff.mpr c.distinct
  have known : ∀ other ∈ c.names, other ∈ c.registry := fun _ inside => mem_names.mp inside
  have unlisted : ∀ other ∈ c.names, (∅ : Dict String (List Voice)).lookup other = none := fun _ _ => rfl
  cases active with
  | none =>
    refine ⟨fun _ => nofun, fun _ name inside installed => ?_⟩
    rw [sweep_idle distinct known unlisted inside installed]
  | some a =>
    refine (sweeps_iff distinct known unlisted).trans ⟨?_, fun unbiased => unbiased a rfl⟩
    rintro unbiased _ ⟨⟩
    exact unbiased

theorem lookup_sweep_other (active : Option ActiveProvider) (other : ¬(name ∈ c.registry ∧ c.installed name = true)) :
    (c.names.foldl (h.enumerateProvider c) (active, ∅)).2.lookup name = none := by
  have left : name ∉ c.names ∨ c.installed name = false := by
    by_cases inside : name ∈ c.names
    · exact .inr (by simpa using fun installed => other ⟨mem_names.mp inside, installed⟩)
    · exact .inl inside
  exact sweep_other (fun _ inside => mem_names.mp inside) left

/-- The whole enumeration reports what the providers report now, exactly if the process that was
active remembers its present list or is torn down, quietly, for another provider. -/
theorem fresh_iff_unbiased (c : Settings) (h : Host) (idx : VoiceIndex) (active : Option ActiveProvider) :
    h.Fresh c (h.enumerateAllVoices c idx active).2 ↔ ∀ a, active = some a → h.Unbiased c c.names a := by
  rw [← lookup_sweep_iff c h active]
  constructor
  · intro fresh name inside installed
    have slice := fresh name
    rwa [if_pos ⟨mem_names.mp inside, installed⟩, enumerateAllVoices, lookup_populate] at slice
  · intro swept name
    rw [enumerateAllVoices, lookup_populate]
    split
    · rename_i listed
      exact swept name (mem_names.mpr listed.1) listed.2
    · rename_i unlisted
      rw [lookup_sweep_other active unlisted]
      rfl

def onlyMoss : Settings where
  voiceAllowlists := ∅
  voiceLocaleOverrides := ∅
  registry := ["moss-tts-nano"]
  distinct := by decide
  named := by decide
  installed _ := true
  idleTimeoutSeconds := 300
  eagerStartup := true

def newClip : Host where
  reports _ := some [⟨"hobbits", "en-us", .neutral, ""⟩, ⟨"wizards", "en-us", .neutral, ""⟩]
  teardownRaises _ := false

theorem newClip_unseen :
    ¬∀ (c : Settings) (h : Host) (idx : VoiceIndex) (active : Option ActiveProvider),
      (∀ a, active = some a → a.name ∈ c.registry ∧ a.state = .ready) →
      h.Fresh c (h.enumerateAllVoices c idx active).2 := by
  intro claimed
  have fresh := claimed onlyMoss newClip .new
    (some ⟨"moss-tts-nano", .ready, [⟨"hobbits", "en-us", .neutral, none, []⟩]⟩)
    (by rintro a ⟨⟩; exact ⟨by decide, rfl⟩) "moss-tts-nano"
  revert fresh
  decide

end Host

end Daemon

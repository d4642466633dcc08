import NeuralTts.Cloning.Globbing
import NeuralTts.Cloning.VoiceRegistry
import NeuralTts.Library.Cache
import NeuralTts.Library.Transition

/-! The two caches of OmniVoice's clone prompts, in memory by voice id and on disk by a digest of what
a prompt is built from, over any sequence of replacements, rescans, synths and restarts. -/

namespace Cloning.Omnivoice

open Library PyText

structure Stamp where
  mtimeNs : Int
  size : Nat
deriving DecidableEq

/-- The voices directory, and what `stat` of a clip in it gives. -/
structure Drop where
  dir : Option Directory
  stat : Text → Option Stamp

/-- What a prompt is built from: the clip, by what tells its versions apart, and the transcript that
goes with it. -/
structure Version where
  wavPath : Option Text
  stamp : Option Stamp
  refText : Text
deriving DecidableEq

def Drop.version (drop : Drop) (entry : VoiceEntry) : Version where
  wavPath := entry.wavPath
  stamp := entry.wavPath.bind drop.stat
  refText := entry.promptText.getD []

/-- What the cache on disk uses of Python's library, and the voices directory's path. -/
structure CacheLibrary where
  root : Text
  sha1 : Text → Text
  length_sha1 : ∀ text, (sha1 text).length = 40
  glob : Globbing

def digestInput (lib : CacheLibrary) (wavPath : Text) (stamp : Stamp) (refText : Text) : Text :=
  lib.root ++ '/' :: wavPath ++ ':' :: showInt stamp.mtimeNs ++ ':' :: showInt stamp.size ++
    ':' :: refText

def cacheName (lib : CacheLibrary) (voiceId lang wavPath : Text) (stamp : Stamp) (refText : Text) : Text :=
  voiceId ++ '.' :: lang ++ '-' :: sliceTo (lib.sha1 (digestInput lib wavPath stamp refText)) 16 ++
    ".pt".toList

def promptCachePath (lib : CacheLibrary) (drop : Drop) (entry : VoiceEntry) : Option Text := do
  let wavPath ← entry.wavPath
  let stamp ← drop.stat wavPath
  return cacheName lib entry.voiceId entry.lang wavPath stamp (entry.promptText.getD [])

inductive PromptFile
  | whole (built : Version)
  | torn
deriving DecidableEq

structure State where
  drop : Drop
  files : Cache Text PromptFile
  voices : Voices
  promptCache : Cache Text Version
  /-- What the latest rescan of the running provider saw, which the provider itself does not keep. -/
  seen : Cache Text Version

/-- How persisting a prompt goes: it may fail with some of the stale files swept, and with the new one
half written. -/
inductive Saving
  | saved
  | failed (swept : Text → Bool) (torn : Bool)

/-- What a call of `_get_clone_prompt` meets. -/
structure Outcome where
  looks : Bool
  /-- `VoiceClonePrompt.load` reads a file that was written whole. -/
  loads : Bool
  /-- An unreadable file can be unlinked. -/
  unlinks : Bool
  builds : Bool
  saving : Saving

def stalePattern (voiceId lang : Text) : Text := voiceId ++ '.' :: lang ++ "-*.pt".toList

def persist (lib : CacheLibrary) (saving : Saving) (s : State) (entry : VoiceEntry) (path : Text)
    (built : Version) : State :=
  match lib.glob (stalePattern entry.voiceId entry.lang) with
  | none => s
  | some hits =>
    let stale (name : Text) : Bool := hits name && decide (name ≠ path)
    match saving with
    | .saved => { s with files := (s.files.keep fun name => !stale name).put path (.whole built) }
    | .failed swept torn =>
      let left := s.files.keep fun name => !(stale name && swept name)
      { s with files := if torn then left.put path .torn else left }

def build (lib : CacheLibrary) (o : Outcome) (s : State) (entry : VoiceEntry) (path : Option Text) :
    Option Version × State :=
  if o.builds then
    let built := s.drop.version entry
    let cached := { s with promptCache := s.promptCache.put entry.voiceId built }
    match path with
    | none => (some built, cached)
    | some path => (some built, persist lib o.saving cached entry path built)
  else (none, s)

/-- `_get_clone_prompt`: the prompt, by what it was built from; none when it raises. -/
def getClonePrompt (lib : CacheLibrary) (o : Outcome) (s : State) (entry : VoiceEntry) :
    Option Version × State :=
  match s.promptCache entry.voiceId with
  | some prompt => (some prompt, s)
  | none =>
    match promptCachePath lib s.drop entry with
    | none => build lib o s entry none
    | some path =>
      if o.looks then
        match s.files path, o.loads with
        | some (.whole prompt), true =>
          (some prompt, { s with promptCache := s.promptCache.put entry.voiceId prompt })
        | some _, _ =>
          if o.unlinks then
            build lib o { s with files := s.files.keep fun name => decide (name ≠ path) } entry (some path)
          else (none, s)
        | none, _ => build lib o s entry (some path)
      else (none, s)

/-- `synthesize_stream`, as far as the prompt of one chunk. -/
def synth (lib : CacheLibrary) (o : Outcome) (s : State) (voice : Text) : Option Version × State :=
  match s.voices.lookup voice with
  | none => (none, s)
  | some entry => getClonePrompt lib o s entry

/-- `_rescan_voices`; a scan that raises leaves everything as it was. -/
def rescan (pyLib : PyLibrary) (s : State) : State :=
  match Provider.omnivoice.rescanVoices pyLib s.drop.dir with
  | .error _ => s
  | .ok voices =>
    { s with
      voices := voices
      promptCache := s.promptCache.keep fun voice => (voices.lookup voice).isSome
      seen := fun voice => (voices.lookup voice).map s.drop.version }

inductive Act
  | replace (drop : Drop)
  | rescan
  | synth (voice : Text) (outcome : Outcome)
  | restart

def next (pyLib : PyLibrary) (lib : CacheLibrary) (s : State) : Act → State
  | .replace drop => { s with drop := drop }
  | .rescan => rescan pyLib s
  | .synth voice o => (synth lib o s voice).2
  | .restart => { s with voices := ∅, promptCache := .empty, seen := .empty }

def provider (pyLib : PyLibrary) (lib : CacheLibrary) : System State Act where
  enabled _ _ := True
  next := next pyLib lib

def initial (drop : Drop) : State := ⟨drop, .empty, ∅, .empty, .empty⟩

/-- A prompt that a synth uses was built from what the latest rescan saw for the voice. -/
def UsesSeen (lib : CacheLibrary) (s : State) : Act → Prop
  | .synth voice o => ∀ prompt, (synth lib o s voice).1 = some prompt → s.seen voice = some prompt
  | .replace _ | .rescan | .restart => True

def Separate (lib : CacheLibrary) (v w : Version) : Prop :=
  ∀ path stamp path' stamp', v.wavPath = some path → v.stamp = some stamp → w.wavPath = some path' →
    w.stamp = some stamp' →
    sliceTo (lib.sha1 (digestInput lib path stamp v.refText)) 16 =
      sliceTo (lib.sha1 (digestInput lib path' stamp' w.refText)) 16 →
    digestInput lib path stamp v.refText = digestInput lib path' stamp' w.refText

/-- A rescan finds the voices whose prompts are in memory unchanged. A synth that finds none in memory
finds the clip unchanged since the latest rescan, and meets no collision on disk. -/
def Undisturbed (pyLib : PyLibrary) (lib : CacheLibrary) (s : State) : Act → Prop
  | .rescan => ∀ voices, Provider.omnivoice.rescanVoices pyLib s.drop.dir = .ok voices →
      ∀ voice entry, voices.lookup voice = some entry → s.promptCache voice ≠ none →
        s.seen voice = some (s.drop.version entry)
  | .synth voice _ => ∀ entry, s.voices.lookup voice = some entry → s.promptCache voice = none →
      s.seen voice = some (s.drop.version entry) ∧
      ∀ path built, promptCachePath lib s.drop entry = some path → s.files path = some (.whole built) →
        Separate lib built (s.drop.version entry)
  | .replace _ | .restart => True

section

variable {lib : CacheLibrary} {voiceId lang voiceId' lang' wavPath refText refText' : Text}
  {stamp stamp' : Stamp}

theorem digestInput_injective
    (same : digestInput lib wavPath stamp refText = digestInput lib wavPath stamp' refText') :
    stamp = stamp' ∧ refText = refText' := by
  have noColon : ∀ n : Int, ':' ∉ showInt n := by
    intro n member
    rcases mem_showInt member with digit | dash
    · exact absurd digit (by decide)
    · exact absurd dash (by decide)
  simp only [digestInput, List.append_assoc, List.cons_append, List.append_cancel_left_eq,
    List.cons.injEq, true_and] at same
  obtain ⟨mtime, rest⟩ := append_cons_inj (noColon _) (noColon _) same
  obtain ⟨size, text⟩ := append_cons_inj (noColon _) (noColon _) rest
  refine ⟨?_, text⟩
  cases stamp
  cases stamp'
  simp only [Stamp.mk.injEq]
  exact ⟨showInt_injective mtime, by exact_mod_cast showInt_injective size⟩

theorem cacheName_injective {wavPath' : Text} (primary : '.' ∉ lang) (primary' : '.' ∉ lang')
    (same : cacheName lib voiceId lang wavPath stamp refText =
      cacheName lib voiceId' lang' wavPath' stamp' refText') :
    voiceId = voiceId' ∧ lang = lang' ∧
      sliceTo (lib.sha1 (digestInput lib wavPath stamp refText)) 16 =
        sliceTo (lib.sha1 (digestInput lib wavPath' stamp' refText')) 16 := by
  have size : ∀ text, (sliceTo (lib.sha1 text) 16).length = 16 := by
    intro text
    have cut : sliceTo (lib.sha1 text) 16 = (lib.sha1 text).take 16 := sliceTo_natCast _ 16
    rw [cut, List.length_take, lib.length_sha1]
    rfl
  unfold cacheName at same
  obtain ⟨names, digests⟩ := List.append_inj' (List.append_cancel_right same) (by simp [size])
  have parts := rpartition_append primary voiceId
  rw [names, rpartition_append primary'] at parts
  cases parts
  exact ⟨rfl, rfl, (List.cons.inj digests).2⟩

end

def NamedFor (lib : CacheLibrary) (name : Text) (file : PromptFile) : Prop :=
  ∀ built, file = .whole built → ∃ voiceId lang stamp, '.' ∉ lang ∧
    built.wavPath = some (clipPath voiceId lang) ∧ built.stamp = some stamp ∧
    name = cacheName lib voiceId lang (clipPath voiceId lang) stamp built.refText

structure Coherent (lib : CacheLibrary) (s : State) : Prop where
  memory : s.promptCache.Sound fun voice prompt => s.seen voice = some prompt
  files : s.files.Sound (NamedFor lib)
  entries : ∀ voice entry, s.voices.lookup voice = some entry →
    entry.voiceId = voice ∧ '.' ∉ entry.lang ∧ entry.wavPath = some (clipPath voice entry.lang)

/-- What a call is to leave and to return, where the latest rescan has `seen` the voice. -/
structure Serves (lib : CacheLibrary) (seen : Option Version) (result : Option Version × State) : Prop where
  coherent : Coherent lib result.2
  used : ∀ prompt, result.1 = some prompt → seen = some prompt

section

variable {pyLib : PyLibrary} {lib : CacheLibrary} {s : State} {o : Outcome} {entry : VoiceEntry}
  {path : Text} {built : Version}

theorem promptCachePath_eq_some {voice : Text} (clip : entry.wavPath = some (clipPath voice entry.lang))
    (named : entry.voiceId = voice) (cached : promptCachePath lib s.drop entry = some path) :
    ∃ stamp, (s.drop.version entry).stamp = some stamp ∧
      path = cacheName lib voice entry.lang (clipPath voice entry.lang) stamp
        (s.drop.version entry).refText := by
  unfold promptCachePath at cached
  rw [clip] at cached
  obtain ⟨_, same, rest⟩ := Option.bind_eq_some_iff.mp cached
  cases same
  obtain ⟨stamp, known, named_for⟩ := Option.bind_eq_some_iff.mp rest
  refine ⟨stamp, ?_, ?_⟩
  · rw [Drop.version, clip]
    exact known
  · subst named
    exact (Option.some.inj named_for).symm

/-- What a file under the name of the present version holds is of this version, unless the digests
collide. -/
theorem Coherent.loaded (coherent : Coherent lib s) {voice : Text}
    (found : s.voices.lookup voice = some entry) (cached : promptCachePath lib s.drop entry = some path)
    (whole : s.files path = some (.whole built)) (separate : Separate lib built (s.drop.version entry)) :
    built = s.drop.version entry := by
  obtain ⟨named, primary, clip⟩ := coherent.entries voice entry found
  obtain ⟨stamp, stamped, rfl⟩ := promptCachePath_eq_some clip named cached
  obtain ⟨voiceId', lang', stamp', primary', clip', stamped', same⟩ :=
    coherent.files _ _ whole built rfl
  obtain ⟨rfl, rfl, digests⟩ := cacheName_injective primary primary' same
  have inputs := separate _ _ _ _ clip' stamped' clip stamped digests.symm
  obtain ⟨rfl, texts⟩ := digestInput_injective inputs
  cases built
  simp_all [Drop.version]

theorem Coherent.persist (coherent : Coherent lib s) (saving : Saving) {voice : Text}
    (found : s.voices.lookup voice = some entry) (cached : promptCachePath lib s.drop entry = some path) :
    Coherent lib (persist lib saving s entry path (s.drop.version entry)) := by
  obtain ⟨named, primary, clip⟩ := coherent.entries voice entry found
  obtain ⟨stamp, stamped, name⟩ := promptCachePath_eq_some clip named cached
  have fresh : NamedFor lib path (.whole (s.drop.version entry)) := by
    intro built same
    cases same
    exact ⟨voice, entry.lang, stamp, primary, clip, stamped, name⟩
  unfold Omnivoice.persist
  cases lib.glob (stalePattern entry.voiceId entry.lang) with
  | none => exact coherent
  | some hits =>
    cases saving with
    | saved => exact ⟨coherent.memory, (coherent.files.keep _).put fresh, coherent.entries⟩
    | failed swept torn =>
      refine ⟨coherent.memory, ?_, coherent.entries⟩
      cases torn with
      | true => exact (coherent.files.keep _).put nofun
      | false => exact coherent.files.keep _

theorem Coherent.serves (coherent : Coherent lib s) {seen : Option Version} : Serves lib seen (none, s) :=
  ⟨coherent, nofun⟩

theorem Coherent.hit (coherent : Coherent lib s) {seen : Option Version} (same : seen = some built) :
    Serves lib seen (some built, s) where
  coherent := coherent
  used _ returned := same.trans returned

theorem Coherent.remember (coherent : Coherent lib s) {voice : Text} (seen : s.seen voice = some built) :
    Coherent lib { s with promptCache := s.promptCache.put voice built } :=
  ⟨coherent.memory.put seen, coherent.files, coherent.entries⟩

theorem Coherent.build (coherent : Coherent lib s) {voice : Text}
    (found : s.voices.lookup voice = some entry) (seen : s.seen voice = some (s.drop.version entry))
    (path : Option Text) (cached : ∀ name, path = some name → promptCachePath lib s.drop entry = some name) :
    Serves lib (s.seen voice) (build lib o s entry path) := by
  obtain ⟨named, -⟩ := coherent.entries voice entry found
  unfold Omnivoice.build
  rw [named]
  split
  · have remembered := coherent.remember seen
    cases path with
    | none => exact remembered.hit seen
    | some name => exact (remembered.persist o.saving found (cached name rfl)).hit seen
  · exact coherent.serves

theorem Coherent.rebuild (coherent : Coherent lib s) {voice : Text}
    (found : s.voices.lookup voice = some entry) (seen : s.seen voice = some (s.drop.version entry))
    (cached : promptCachePath lib s.drop entry = some path) :
    Serves lib (s.seen voice) (if o.unlinks then
      Omnivoice.build lib o { s with files := s.files.keep fun name => decide (name ≠ path) } entry (some path)
    else (none, s)) := by
  split
  · have swept : Coherent lib { s with files := s.files.keep fun name => decide (name ≠ path) } :=
      ⟨coherent.memory, coherent.files.keep _, coherent.entries⟩
    exact swept.build found seen (some path) fun name same => cached.trans same
  · exact coherent.serves

theorem Coherent.getClonePrompt (coherent : Coherent lib s) {voice : Text}
    (found : s.voices.lookup voice = some entry)
    (fresh : s.promptCache voice = none → s.seen voice = some (s.drop.version entry) ∧
      ∀ path built, promptCachePath lib s.drop entry = some path → s.files path = some (.whole built) →
        Separate lib built (s.drop.version entry)) :
    Serves lib (s.seen voice) (getClonePrompt lib o s entry) := by
  obtain ⟨named, -⟩ := coherent.entries voice entry found
  unfold Omnivoice.getClonePrompt
  rw [named]
  cases memory : s.promptCache voice with
  | some prompt => exact coherent.hit (coherent.memory voice prompt memory)
  | none =>
    obtain ⟨seen, separate⟩ := fresh memory
    cases cached : promptCachePath lib s.drop entry with
    | none => exact coherent.build found seen none nofun
    | some path =>
      simp only
      split
      · cases file : s.files path with
        | none => exact coherent.build found seen (some path) fun name same => cached.trans same
        | some kept =>
          cases kept with
          | torn => exact coherent.rebuild found seen cached
          | whole built =>
            cases o.loads with
            | false => exact coherent.rebuild found seen cached
            | true =>
              have same := coherent.loaded found cached file (separate path built cached file)
              rw [same]
              exact (coherent.remember seen).hit seen
      · exact coherent.serves

theorem Coherent.rescan (coherent : Coherent lib s) (unchanged : Undisturbed pyLib lib s .rescan) :
    Coherent lib (rescan pyLib s) := by
  unfold Omnivoice.rescan
  cases rescanned : Provider.omnivoice.rescanVoices pyLib s.drop.dir with
  | error raised => exact coherent
  | ok voices =>
    refine ⟨?_, coherent.files, ?_⟩
    · intro voice prompt kept
      simp only [Cache.keep] at kept
      split at kept
      · rename_i listed
        obtain ⟨entry, found⟩ := Option.isSome_iff_exists.mp listed
        have before : s.seen voice = some prompt := coherent.memory voice prompt kept
        rw [unchanged voices rescanned voice entry found (by simp [kept])] at before
        simpa [found] using before
      · cases kept
    · intro voice entry found
      obtain ⟨named, source⟩ := rescanVoices_entry rescanned found
      rcases source with preset | ⟨-, lang, primary, same, path⟩
      · cases preset
      · have plain : entry.lang = lang := same
        subst plain
        exact ⟨named, primary, path⟩

theorem Coherent.synth (coherent : Coherent lib s) {voice : Text}
    (undisturbed : Undisturbed pyLib lib s (.synth voice o)) :
    Serves lib (s.seen voice) (synth lib o s voice) := by
  unfold Omnivoice.synth
  cases found : s.voices.lookup voice with
  | none => exact coherent.serves
  | some entry => exact coherent.getClonePrompt found (undisturbed entry found)

theorem Coherent.step (coherent : Coherent lib s) {a : Act} (undisturbed : Undisturbed pyLib lib s a) :
    Coherent lib (next pyLib lib s a) ∧ UsesSeen lib s a := by
  cases a with
  | replace drop => exact ⟨⟨coherent.memory, coherent.files, coherent.entries⟩, trivial⟩
  | rescan => exact ⟨coherent.rescan undisturbed, trivial⟩
  | restart => exact ⟨⟨Cache.sound_empty, coherent.files, nofun⟩, trivial⟩
  | synth voice o =>
    have serves := coherent.synth undisturbed
    exact ⟨serves.coherent, serves.used⟩

/-- A rescan that finds the voice of a prompt in memory changed leaves it there: the next synth of the
voice uses it. -/
theorem Coherent.stale (coherent : Coherent lib s)
    (disturbed : ¬ Undisturbed pyLib lib s .rescan) :
    ∃ voice prompt, (∀ o, (Omnivoice.synth lib o (Omnivoice.rescan pyLib s) voice).1 = some prompt) ∧
      (Omnivoice.rescan pyLib s).seen voice ≠ some prompt := by
  obtain ⟨voices, rescanned, voice, entry, found, cached, changed⟩ :
      ∃ voices, Provider.omnivoice.rescanVoices pyLib s.drop.dir = .ok voices ∧
        ∃ voice entry, voices.lookup voice = some entry ∧ s.promptCache voice ≠ none ∧
          s.seen voice ≠ some (s.drop.version entry) := by
    simpa [Undisturbed] using disturbed
  obtain ⟨prompt, memory⟩ := Option.ne_none_iff_exists'.mp cached
  obtain ⟨named, -⟩ := rescanVoices_entry rescanned found
  refine ⟨voice, prompt, ?_, ?_⟩
  · intro o
    simp [Omnivoice.synth, Omnivoice.rescan, rescanned, found, Omnivoice.getClonePrompt, named,
      Cache.keep, memory]
  · have before : s.seen voice = some prompt := coherent.memory voice prompt memory
    simp only [Omnivoice.rescan, rescanned, found, Option.map_some]
    intro same
    exact changed (before.trans same.symm)

end

theorem coherent_initial (lib : CacheLibrary) (drop : Drop) : Coherent lib (initial drop) :=
  ⟨Cache.sound_empty, Cache.sound_empty, nofun⟩

/-- In every run whose steps are undisturbed, every synth uses a prompt that was built from what the
latest rescan saw for its voice. -/
theorem undisturbed_uses_seen (pyLib : PyLibrary) (lib : CacheLibrary) (drop : Drop) (acts : List Act)
    (undisturbed : (provider pyLib lib).Admits (Undisturbed pyLib lib) (initial drop) acts) :
    (provider pyLib lib).Admits (UsesSeen lib) (initial drop) acts :=
  undisturbed.imp (fun _ _ coherent _ calm => (coherent.step calm).1)
    (fun _ _ coherent _ calm => (coherent.step calm).2) (coherent_initial lib drop)

/-- SHA-1 of what the runs below take the digest of, and a `glob` of one star. -/
def sampleLibrary : CacheLibrary where
  root := "/v".toList
  sha1 text :=
    if text = "/v/alice.en.wav:1:44:".toList then "03d9ec439dc4cbfc829d6ccf7ab2995f9af0ca85".toList
    else if text = "/v/alice.en.wav:2:44:".toList then "67492fb8245534a38630d947155465b9478fbd86".toList
    else List.replicate 40 '0'
  length_sha1 text := by split <;> [rfl; split <;> simp]
  glob pattern := some fun name =>
    (pattern.takeWhile (· ≠ '*')).isPrefixOf name &&
      ((pattern.dropWhile (· ≠ '*')).drop 1).isSuffixOf name

def alicesDrop (mtimeNs : Int) : Drop where
  dir := some alicesClip
  stat name := if name = "alice.en.wav".toList then some ⟨mtimeNs, 44⟩ else none

def alicesVersion (mtimeNs : Int) : Version := ⟨some "alice.en.wav".toList, some ⟨mtimeNs, 44⟩, []⟩

def smoothly : Outcome := ⟨true, true, true, true, .saved⟩

def speakAlice : Act := .synth "alice".toList smoothly

def alicesEntry : VoiceEntry :=
  ⟨"alice".toList, "en".toList, some "alice.en.wav".toList, none, "alice".toList, .unspecified⟩

theorem restarted_after_replacement_uses_seen :
    (provider noTables sampleLibrary).Admits (Undisturbed noTables sampleLibrary)
        (initial (alicesDrop 1))
        [.rescan, speakAlice, .restart, .replace (alicesDrop 2), .rescan, speakAlice] ∧
      (provider noTables sampleLibrary).Admits (UsesSeen sampleLibrary) (initial (alicesDrop 1))
        [.rescan, speakAlice, .restart, .replace (alicesDrop 2), .rescan, speakAlice] := by
  have undisturbed : (provider noTables sampleLibrary).Admits (Undisturbed noTables sampleLibrary)
      (initial (alicesDrop 1))
      [.rescan, speakAlice, .restart, .replace (alicesDrop 2), .rescan, speakAlice] := by
    refine ⟨⟨trivial, ?_⟩, ⟨trivial, ?_⟩, ⟨trivial, trivial⟩, ⟨trivial, trivial⟩, ⟨trivial, ?_⟩,
      ⟨trivial, ?_⟩, trivial⟩
    · intro _ _ _ _ _ cached
      exact absurd rfl cached
    · intro entry found _
      cases (show some alicesEntry = some entry from found)
      exact ⟨rfl, nofun⟩
    · intro _ _ _ _ _ cached
      exact absurd rfl cached
    · intro entry found _
      cases (show some alicesEntry = some entry from found)
      refine ⟨rfl, ?_⟩
      intro path built named whole
      cases named
      cases (show (none : Option PromptFile) = some (.whole built) from whole)
  exact ⟨undisturbed, undisturbed_uses_seen _ _ _ _ undisturbed⟩

/-- The clip is replaced and rescanned, and the prompt in memory stays. -/
theorem replaced_clip_stays_in_memory :
    ¬ (provider noTables sampleLibrary).Admits (UsesSeen sampleLibrary) (initial (alicesDrop 1))
      [.rescan, speakAlice, .replace (alicesDrop 2), .rescan, speakAlice] := by
  rintro ⟨-, -, -, -, ⟨-, uses⟩, -⟩
  have stale := uses (alicesVersion 1) rfl
  exact absurd stale (by decide)

end Cloning.Omnivoice

import NeuralTts.Cloning.VoiceScan
import NeuralTts.Library.Dict

/-! The voices of a provider that clones: `_rescan_voices` and `list_voices_pb`, over the scan. -/

namespace Cloning

open Library PyText Daemon

abbrev Voices := Dict Text VoiceEntry

/-- `{e.voice_id: e for e in entries}` -/
def byVoiceId (entries : List VoiceEntry) : Voices :=
  entries.foldl (fun voices e => voices.set e.voiceId e) ∅

def toPb (rules : ScanRules) (entry : VoiceEntry) : PbVoice where
  id := String.ofList entry.voiceId
  language := String.ofList (rules.langTag entry.lang)
  gender := entry.gender
  displayName := String.ofList entry.displayName

namespace Provider

variable (p : Provider) (lib : PyLibrary)

def presets : Provider → List VoiceEntry
  | pocketTts => PocketTts.presetEntries lib
  | qwen3Tts | omnivoice | longcatAudiodit | mossTtsNano => []

def rescanVoices (root : Option Directory) : Except PyError Voices := do
  let entries ← p.scanVoices lib root
  return byVoiceId (presets lib p ++ entries)

def listVoicesPb (voices : Voices) : List PbVoice := voices.values.map (toPb (p.rules lib))

end Provider

/-- A clip that keeps to the documented grammar of the provider, with the transcript it requires. -/
structure ValidClip (p : Provider) (lib : PyLibrary) (d : Directory) (wav voiceId lang : Text) :
    Prop where
  present : wav ∈ d.names
  named : wav = voiceId ++ '.' :: lang ++ ".wav".toList
  primary : '.' ∉ lang
  some_id : voiceId ≠ []
  free : voiceId ∉ (p.rules lib).reserved
  accepted : (p.rules lib).accepts lang = true
  transcribed : Transcribed (p.rules lib) d wav

structure Surfaces (p : Provider) (lib : PyLibrary) (d : Directory) (voices : Voices) : Prop where
  own : ∀ wav voiceId lang, ValidClip p lib d wav voiceId lang →
    ∃ entry, voices.lookup voiceId = some entry ∧ entry.wavPath = some wav ∧
      toPb (p.rules lib) entry ∈ p.listVoicesPb lib voices
  count : ∃ clips : List Text, clips.Nodup ∧
    (∀ wav, wav ∈ clips ↔ ∃ voiceId lang, ValidClip p lib d wav voiceId lang) ∧
    (p.listVoicesPb lib voices).length = (Provider.presets lib p).length + clips.length
  synthesized : ∀ voice ∈ p.listVoicesPb lib voices,
    ∃ entry, voices.lookup voice.id.toList = some entry ∧ toPb (p.rules lib) entry = voice ∧
      (entry ∈ Provider.presets lib p ∨ ∃ wav lang, entry.wavPath = some wav ∧
        ValidClip p lib d wav entry.voiceId lang)

def NoneDropped (p : Provider) (lib : PyLibrary) (d : Directory) : Prop :=
  ∃ voices, p.rescanVoices lib (some d) = .ok voices ∧ Surfaces p lib d voices

section

variable {p : Provider} {lib : PyLibrary} {d : Directory} {wav voiceId lang : Text}

theorem scanClip_keeps_iff {rules : ScanRules} (returned : Returns (scanClip lib rules d wav)) :
    (∃ entry, scanClip lib rules d wav = .ok (some entry) ∧ entry.voiceId = voiceId) ↔
      ∃ lang, parseName rules wav = some (voiceId, lang) ∧ Transcribed rules d wav := by
  constructor
  · rintro ⟨entry, kept, rfl⟩
    obtain ⟨lang, parsed, -⟩ := scanClip_kept kept
    refine ⟨lang, parsed, ?_⟩
    rw [scanClip, parsed] at kept
    obtain ⟨prompt, read, rest⟩ := bind_eq_ok.mp kept
    cases prompt with
    | none => cases rest
    | some prompt => exact (promptText_kept_iff ⟨_, read⟩).mp ⟨prompt, read⟩
  · rintro ⟨lang, parsed, transcribed⟩
    rw [scanClip, parsed] at returned ⊢
    obtain ⟨prompt, read, rest⟩ := returns_bind_iff.mp returned
    obtain ⟨text, kept⟩ := (promptText_kept_iff ⟨_, read⟩).mpr transcribed
    rw [read] at kept
    cases kept
    obtain ⟨shown, sidecarRead, -⟩ := returns_bind_iff.mp rest
    exact ⟨_, bind_eq_ok.mpr ⟨_, read, bind_eq_ok.mpr ⟨shown, sidecarRead, rfl⟩⟩, rfl⟩

theorem validClip_iff :
    ValidClip p lib d wav voiceId lang ↔ wav ∈ d.clips ∧
      parseName (p.rules lib) wav = some (voiceId, lang) ∧ Transcribed (p.rules lib) d wav := by
  constructor
  · intro valid
    have clip : ".wav".toList <:+ wav := ⟨_, valid.named.symm⟩
    exact ⟨mem_clips.mpr ⟨valid.present, clip⟩, (parseName_eq_some_iff clip).mpr
      ⟨valid.named, valid.primary, valid.some_id, valid.free, valid.accepted⟩, valid.transcribed⟩
  · rintro ⟨listed, parsed, transcribed⟩
    obtain ⟨present, clip⟩ := mem_clips.mp listed
    obtain ⟨named, primary, some_id, free, accepted⟩ := (parseName_eq_some_iff clip).mp parsed
    exact ⟨present, named, primary, some_id, free, accepted, transcribed⟩

theorem mem_scanned_iff (returns : ∀ wav ∈ d.clips, Returns (scanClip lib (p.rules lib) d wav)) :
    (∃ entry ∈ d.clips.filterMap (keeps (scanClip lib (p.rules lib) d)),
        entry.voiceId = voiceId ∧ entry.wavPath = some wav) ↔
      ∃ lang, ValidClip p lib d wav voiceId lang := by
  constructor
  · rintro ⟨entry, member, named, path⟩
    obtain ⟨clip, listed, kept⟩ := List.mem_filterMap.mp member
    have result := eq_ok_of_mem_keeps kept
    obtain ⟨_, -, -, from_clip⟩ := scanClip_kept result
    obtain rfl : clip = wav := by simpa [path] using from_clip.symm
    obtain ⟨lang, parsed, transcribed⟩ :=
      (scanClip_keeps_iff (returns clip listed)).mp ⟨entry, result, named⟩
    exact ⟨lang, validClip_iff.mpr ⟨listed, parsed, transcribed⟩⟩
  · rintro ⟨lang, valid⟩
    obtain ⟨listed, parsed, transcribed⟩ := validClip_iff.mp valid
    obtain ⟨entry, result, named⟩ :=
      (scanClip_keeps_iff (returns wav listed)).mpr ⟨lang, parsed, transcribed⟩
    obtain ⟨_, -, -, path⟩ := scanClip_kept result
    exact ⟨entry, List.mem_filterMap.mpr ⟨wav, listed, by rw [keeps, result]⟩, named, path⟩

end

theorem presets_nodup (p : Provider) (lib : PyLibrary) :
    ((Provider.presets lib p).map VoiceEntry.voiceId).Nodup := by
  cases p with
  | pocketTts =>
    have ids : (PocketTts.presetEntries lib).map VoiceEntry.voiceId =
        PocketTts.presetVoices.map Prod.fst := by
      rw [PocketTts.presetEntries, List.map_map]
      rfl
    rw [Provider.presets, ids]
    decide
  | qwen3Tts => exact List.nodup_nil
  | omnivoice => exact List.nodup_nil
  | longcatAudiodit => exact List.nodup_nil
  | mossTtsNano => exact List.nodup_nil

theorem mem_reserved_of_preset (p : Provider) (lib : PyLibrary) {entry : VoiceEntry}
    (preset : entry ∈ Provider.presets lib p) : entry.voiceId ∈ (p.rules lib).reserved := by
  cases p with
  | pocketTts =>
    obtain ⟨voice, listed, rfl⟩ := List.mem_map.mp preset
    exact List.mem_map.mpr ⟨voice, listed, rfl⟩
  | qwen3Tts => cases preset
  | omnivoice => cases preset
  | longcatAudiodit => cases preset
  | mossTtsNano => cases preset

theorem byVoiceId_values {entries : List VoiceEntry} (distinct : (entries.map VoiceEntry.voiceId).Nodup) :
    (byVoiceId entries).values = entries := by
  rw [byVoiceId, Dict.values_foldl_set distinct (by simp), List.map_id']
  rfl

theorem byVoiceId_lookup {entries : List VoiceEntry}
    (distinct : (entries.map VoiceEntry.voiceId).Nodup) {entry : VoiceEntry} (member : entry ∈ entries) :
    (byVoiceId entries).lookup entry.voiceId = some entry :=
  Dict.lookup_foldl_set_of_mem distinct member ∅

theorem mem_of_byVoiceId {entries : List VoiceEntry} {voiceId : Text} {entry : VoiceEntry}
    (found : (byVoiceId entries).lookup voiceId = some entry) :
    entry ∈ entries ∧ entry.voiceId = voiceId := by
  rw [byVoiceId, Dict.lookup_foldl_set, AList.lookup_empty, Option.or_none] at found
  obtain ⟨last, search, rfl⟩ := Option.map_eq_some_iff.mp found
  exact ⟨List.mem_reverse.mp (List.mem_of_find?_eq_some search), by simpa using List.find?_some search⟩

def clipPath (voiceId lang : Text) : Text := voiceId ++ '.' :: lang ++ ".wav".toList

theorem rescanVoices_entry {p : Provider} {lib : PyLibrary} {root : Option Directory} {voices : Voices}
    (rescanned : p.rescanVoices lib root = .ok voices) {voiceId : Text} {entry : VoiceEntry}
    (found : voices.lookup voiceId = some entry) :
    entry.voiceId = voiceId ∧ (entry ∈ Provider.presets lib p ∨
      voiceId ∉ (p.rules lib).reserved ∧ ∃ lang, '.' ∉ lang ∧
        entry.lang = (p.rules lib).entryLang lang ∧ entry.wavPath = some (clipPath voiceId lang)) := by
  obtain ⟨entries, scanned, made⟩ := bind_eq_ok.mp rescanned
  cases made
  obtain ⟨member, rfl⟩ := mem_of_byVoiceId found
  refine ⟨rfl, ?_⟩
  rcases List.mem_append.mp member with preset | kept
  · exact .inl preset
  · cases root with
    | none =>
      cases scanned
      cases kept
    | some d =>
      obtain ⟨-, rfl⟩ := filterMapM_eq_ok_iff.mp scanned
      obtain ⟨wav, listed, kept⟩ := List.mem_filterMap.mp kept
      obtain ⟨lang, parsed, same, path⟩ := scanClip_kept (eq_ok_of_mem_keeps kept)
      obtain ⟨named, primary, -, free, -⟩ := (parseName_eq_some_iff (mem_clips.mp listed).2).mp parsed
      exact .inr ⟨free, lang, primary, same, path.trans (congrArg some named)⟩

section

variable {p : Provider} {lib : PyLibrary} {d : Directory}
  (returns : ∀ wav ∈ d.clips, Returns (scanClip lib (p.rules lib) d wav))
  (apart : ∀ voiceId wav lang wav' lang', ValidClip p lib d wav voiceId lang →
    ValidClip p lib d wav' voiceId lang' → wav = wav')

include returns

theorem scanned_valid {entry : VoiceEntry}
    (scanned : entry ∈ d.clips.filterMap (keeps (scanClip lib (p.rules lib) d))) :
    ∃ wav lang, entry.wavPath = some wav ∧ ValidClip p lib d wav entry.voiceId lang := by
  obtain ⟨wav, -, kept⟩ := List.mem_filterMap.mp scanned
  obtain ⟨_, -, -, path⟩ := scanClip_kept (eq_ok_of_mem_keeps kept)
  obtain ⟨lang, valid⟩ := (mem_scanned_iff returns).mp ⟨entry, scanned, rfl, path⟩
  exact ⟨wav, lang, path, valid⟩

include apart

theorem ids_nodup :
    ((Provider.presets lib p ++ d.clips.filterMap (keeps (scanClip lib (p.rules lib) d))).map
      VoiceEntry.voiceId).Nodup := by
  rw [List.map_append, List.nodup_append]
  refine ⟨presets_nodup p lib, ?_, ?_⟩
  · have clips_nodup : d.clips.Nodup :=
      (List.perm_insertionSort _ _).nodup_iff.mpr (d.distinct.filter _)
    rw [List.Nodup, List.pairwise_map, List.pairwise_filterMap]
    apply clips_nodup.imp_of_mem
    intro wav wav' member member' different entry kept entry' kept' same
    obtain ⟨_, -, -, path⟩ := scanClip_kept (eq_ok_of_mem_keeps kept)
    obtain ⟨_, -, -, path'⟩ := scanClip_kept (eq_ok_of_mem_keeps kept')
    obtain ⟨lang, valid⟩ := (mem_scanned_iff returns).mp
      ⟨entry, List.mem_filterMap.mpr ⟨wav, member, kept⟩, rfl, path⟩
    obtain ⟨lang', valid'⟩ := (mem_scanned_iff returns).mp
      ⟨entry', List.mem_filterMap.mpr ⟨wav', member', kept'⟩, same.symm, path'⟩
    exact different (apart _ _ _ _ _ valid valid')
  · intro id preset id' scanned
    obtain ⟨entry, listed, rfl⟩ := List.mem_map.mp preset
    obtain ⟨entry', listed', rfl⟩ := List.mem_map.mp scanned
    obtain ⟨_, _, -, valid⟩ := scanned_valid returns listed'
    intro same
    exact valid.free (same ▸ mem_reserved_of_preset p lib listed)

theorem surfaces_of_apart :
    Surfaces p lib d (byVoiceId (Provider.presets lib p ++
      d.clips.filterMap (keeps (scanClip lib (p.rules lib) d)))) := by
  have distinct := ids_nodup returns apart
  have listing : p.listVoicesPb lib (byVoiceId (Provider.presets lib p ++
        d.clips.filterMap (keeps (scanClip lib (p.rules lib) d)))) =
      (Provider.presets lib p ++ d.clips.filterMap (keeps (scanClip lib (p.rules lib) d))).map
        (toPb (p.rules lib)) := by
    rw [Provider.listVoicesPb, byVoiceId_values distinct]
  refine ⟨?_, ?_, ?_⟩
  · intro wav voiceId lang valid
    obtain ⟨entry, scanned, rfl, path⟩ := (mem_scanned_iff returns).mpr ⟨lang, valid⟩
    have member := List.mem_append_right (Provider.presets lib p) scanned
    refine ⟨entry, byVoiceId_lookup distinct member, path, ?_⟩
    rw [listing]
    exact List.mem_map_of_mem member
  · refine ⟨d.clips.filter fun wav => (keeps (scanClip lib (p.rules lib) d) wav).isSome, ?_, ?_, ?_⟩
    · exact ((List.perm_insertionSort _ _).nodup_iff.mpr (d.distinct.filter _)).filter _
    · intro wav
      rw [List.mem_filter, Option.isSome_iff_exists]
      constructor
      · rintro ⟨member, entry, kept⟩
        obtain ⟨_, -, -, path⟩ := scanClip_kept (eq_ok_of_mem_keeps kept)
        obtain ⟨lang, valid⟩ := (mem_scanned_iff returns).mp
          ⟨entry, List.mem_filterMap.mpr ⟨wav, member, kept⟩, rfl, path⟩
        exact ⟨_, lang, valid⟩
      · rintro ⟨voiceId, lang, valid⟩
        obtain ⟨member, parsed, transcribed⟩ := validClip_iff.mp valid
        obtain ⟨entry, result, -⟩ :=
          (scanClip_keeps_iff (returns wav member)).mpr ⟨lang, parsed, transcribed⟩
        exact ⟨member, entry, by rw [keeps, result]⟩
    · rw [listing, List.length_map, List.length_append, List.length_filterMap_eq_countP,
        List.countP_eq_length_filter]
  · intro voice listed
    rw [listing] at listed
    obtain ⟨entry, member, rfl⟩ := List.mem_map.mp listed
    refine ⟨entry, ?_, rfl, ?_⟩
    · rw [toPb, String.toList_ofList]
      exact byVoiceId_lookup distinct member
    · rcases List.mem_append.mp member with preset | scanned
      · exact .inl preset
      · exact .inr (scanned_valid returns scanned)

end

/-- For every provider and every directory: no valid clip is dropped exactly when no clip makes the
scan raise and no two of the valid clips have the same id. -/
theorem noneDropped_iff (p : Provider) (lib : PyLibrary) (d : Directory) :
    NoneDropped p lib d ↔
      (∀ wav ∈ d.clips, (parseName (p.rules lib) wav).isSome → Harmless lib (p.rules lib) d wav) ∧
      ∀ voiceId wav lang wav' lang', ValidClip p lib d wav voiceId lang →
        ValidClip p lib d wav' voiceId lang' → wav = wav' := by
  constructor
  · rintro ⟨voices, rescanned, surfaces⟩
    obtain ⟨entries, scanned, -⟩ := bind_eq_ok.mp rescanned
    refine ⟨?_, ?_⟩
    · intro wav member
      exact returns_scanClip_iff.mp (returns_of_filterMapM scanned wav member)
    · intro voiceId wav lang wav' lang' valid valid'
      obtain ⟨entry, found, path, -⟩ := surfaces.own wav voiceId lang valid
      obtain ⟨entry', found', path', -⟩ := surfaces.own wav' voiceId lang' valid'
      rw [found] at found'
      cases found'
      exact Option.some.inj (path.symm.trans path')
  · rintro ⟨harmless, apart⟩
    have returns : ∀ wav ∈ d.clips, Returns (scanClip lib (p.rules lib) d wav) :=
      fun wav member => returns_scanClip_iff.mpr (harmless wav member)
    exact ⟨_, bind_eq_ok.mpr ⟨_, filterMapM_of_returns returns, rfl⟩, surfaces_of_apart returns apart⟩

def alicesClip : Directory := .ofFiles [("alice.en.wav", [])] (by decide)

def alicesClips : Directory :=
  .ofFiles [("alice.en.wav", []), ("alice.zh.wav", [])] (by decide)

theorem second_language_dropped :
    ValidClip .omnivoice noTables alicesClips "alice.en.wav".toList "alice".toList "en".toList ∧
      ValidClip .omnivoice noTables alicesClips "alice.zh.wav".toList "alice".toList "zh".toList ∧
      ¬ NoneDropped .omnivoice noTables alicesClips := by
  have en : ValidClip .omnivoice noTables alicesClips "alice.en.wav".toList "alice".toList
      "en".toList :=
    ⟨by decide, by decide, by decide, by decide, by decide, by decide, nofun⟩
  have zh : ValidClip .omnivoice noTables alicesClips "alice.zh.wav".toList "alice".toList
      "zh".toList :=
    ⟨by decide, by decide, by decide, by decide, by decide, by decide, nofun⟩
  refine ⟨en, zh, ?_⟩
  rintro ⟨voices, -, surfaces⟩
  obtain ⟨entry, found, path, -⟩ := surfaces.own _ _ _ en
  obtain ⟨entry', found', path', -⟩ := surfaces.own _ _ _ zh
  rw [found] at found'
  cases found'
  rw [path] at path'
  exact absurd (Option.some.inj path') (by decide)

end Cloning

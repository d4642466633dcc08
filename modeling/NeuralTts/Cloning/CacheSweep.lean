import NeuralTts.Cloning.PromptCache
import NeuralTts.Cloning.StateCache

/-! The sweeps of the caches on disk, which pocket-tts and OmniVoice make when they save the file of
a voice that they have encoded afresh. -/

namespace Cloning

open Library PyText Daemon

/-- `named voice label name`: the file is of the voice, and `label` is the part of its name that the
pattern of a sweep is matched with. -/
abbrev Naming := Text → Text → Text → Prop

def Owns (named : Naming) (voice name : Text) : Prop := ∃ label, named voice label name

/-- No file of another voice is both claimed by the pattern and within reach of the sweep. If the new
file is saved, the older ones of the voice itself all are. -/
structure Apart {File : Type} (named : Naming) (sep : Char) (voice pattern : Text)
    (files : Cache Text File) (reached : Text → Bool) (saved : Prop) : Prop where
  others : ∀ other label name, named other label name → other ≠ voice → files name ≠ none →
    Claims sep pattern label → reached name = false
  own : saved → ∀ label name, named voice label name → files name ≠ none →
    Claims sep pattern label ∧ reached name = true

theorem replaces_iff_apart {File : Type} {named : Naming} {sep : Char} {voice pattern fresh : Text}
    {files : Cache Text File} {stale reached : Text → Bool} {written : Option File} {saved : Prop}
    (unique : ∀ v v' label label' name, named v label name → named v' label' name → v = v')
    (all : ∀ name, files name ≠ none → ∃ v, Owns named v name)
    (matched : ∀ v label name, named v label name → files name ≠ none →
      (stale name = true ↔ Claims sep pattern label))
    (mine : Owns named voice fresh) (absent : files fresh = none) (writes : saved → written ≠ none) :
    Cache.Replaces (Owns named voice) fresh saved files
        (files.sweep (fun name => stale name && reached name) fresh written) ↔
      Apart named sep voice pattern files reached saved := by
  rw [Cache.replaces_sweep_iff mine absent writes]
  simp only [Bool.and_eq_true]
  constructor
  · rintro ⟨onlyOwn, allOwn⟩
    refine ⟨fun other label name of different present claims => ?_, fun saved label name of present => ?_⟩
    · by_contra reached
      rw [Bool.not_eq_false] at reached
      obtain ⟨label', own⟩ := onlyOwn name present ⟨(matched other label name of present).mpr claims, reached⟩
      exact different (unique _ _ _ _ _ of own)
    · obtain ⟨hit, reached⟩ := allOwn saved name ⟨label, of⟩ present
      exact ⟨(matched voice label name of present).mp hit, reached⟩
  · intro apart
    refine ⟨fun name present gone => ?_, fun saved name owned present => ?_⟩
    · obtain ⟨other, label, of⟩ := all name present
      by_cases same : other = voice
      · subst same
        exact ⟨label, of⟩
      · have spared := apart.others other label name of same present
          ((matched other label name of present).mp gone.1)
        rw [spared] at gone
        cases gone.2
    · obtain ⟨label, of⟩ := owned
      obtain ⟨claims, reached⟩ := apart.own saved label name of present
      exact ⟨(matched voice label name of present).mpr claims, reached⟩

/-- Where nothing can be globbed for, nothing is swept or saved. -/
theorem replaces_self_iff_apart {File : Type} {named : Naming} {sep : Char} {voice pattern fresh : Text}
    {files : Cache Text File} {reached : Text → Bool} {saved : Prop} (unsaved : ¬saved)
    (unreached : ∀ name, reached name = false) :
    Cache.Replaces (Owns named voice) fresh saved files files ↔
      Apart named sep voice pattern files reached saved :=
  iff_of_true
    ⟨fun _ present gone => absurd gone present, fun saves => absurd saves unsaved, fun _ _ => rfl⟩
    ⟨fun _ _ name _ _ _ _ => unreached name, fun saves => absurd saves unsaved⟩

namespace PocketTts

variable {Content : Type}

def anyProvider (lib : PyLibrary) (glob : Globbing) : System (State Content) (Act Content) where
  enabled _ _ := True
  next := next lib glob

/-- A call that finds no state of the clip in memory finds none on disk either, and encodes it. -/
structure Encodes (o : Outcome) (s : State Content) (voice : Text) (clip : Clip Content) : Prop where
  opens : o.opens = true
  absent : s.files (cacheName voice clip.mtimeNs) = none
  clones : o.clones = true
  encodes : o.encodes = true

def Named : Naming := fun voice label name => label = voice ∧ ∃ mtimeNs, name = cacheName voice mtimeNs

def Saves (o : Outcome) (voice : Text) : Prop :=
  pathGlob (stalePattern voice) ≠ none ∧ o.exporting = .saved

def reached (o : Outcome) (voice name : Text) : Bool :=
  (pathGlob (stalePattern voice)).isSome && o.unlinked name

/-- `law` of every call that encodes a clip afresh: its outcome, the entry, the voice and the clip. -/
def OnEncoding (s : State Content) (law : Outcome → VoiceEntry → Text → Clip Content → Prop) :
    Act Content → Prop
  | .synth voice o | .interrupted voice o => ∀ entry wavPath clip, s.voices.lookup voice = some entry →
      entry.wavPath = some wavPath → s.drop.clip wavPath = some clip →
      (∀ state, s.stateCache voice ≠ some (clip.mtimeNs, state)) → Encodes o s voice clip →
      law o entry voice clip
  | .edit _ | .rescan | .restart => True

/-- Saving the state of a voice replaces the file of this voice and of no other. -/
def SweepsOwn (s : State Content) : Act Content → Prop :=
  OnEncoding s fun o entry voice clip =>
    Cache.Replaces (Owns Named voice) (cacheName voice clip.mtimeNs) (Saves o voice) s.files
      (getVoiceState pathGlob o s entry).2.files

def MeetsApart (s : State Content) : Act Content → Prop :=
  OnEncoding s fun o _ voice _ => Apart Named '.' voice voice s.files (reached o voice) (Saves o voice)

structure Labelled (s : State Content) : Prop where
  files : s.files.Sound fun name _ => ∃ voice, Owns Named voice name
  entries : ∀ voice entry, s.voices.lookup voice = some entry → entry.voiceId = voice

def written (exporting : Exporting) (state : VoiceState Content) : Option (StateFile Content) :=
  match exporting with
  | .saved => some (.whole state)
  | .failed true => some .torn
  | .failed false => none

section

variable {lib : PyLibrary} {o : Outcome} {s : State Content} {voice : Text} {clip : Clip Content}
  {entry : VoiceEntry}

theorem named_cacheName (voice : Text) (mtimeNs : Int) : Named voice voice (cacheName voice mtimeNs) :=
  ⟨rfl, mtimeNs, rfl⟩

theorem accepts_cacheName (voice other : Text) (mtimeNs : Int) :
    Glob.accepts (Glob.read (stalePattern voice)) (cacheName other mtimeNs) = true ↔
      Claims '.' voice other := by
  have literal : Glob.Literal ('.' :: ".safetensors".toList) := rfl
  have pattern : stalePattern voice = voice ++ '.' :: '*' :: ".safetensors".toList := rfl
  have name : cacheName other mtimeNs = other ++ '.' :: (showInt mtimeNs ++ ".safetensors".toList) := by
    simp only [cacheName, List.append_assoc, List.cons_append]
  rw [pattern, name]
  exact accepts_iff_claims voice other literal (by decide) (dot_notMem_showInt mtimeNs)

theorem loadOrEncode_files (glob : Globbing) (encodes : Encodes o s voice clip) :
    (loadOrEncode glob o s voice clip).2.files =
      match glob (stalePattern voice) with
      | none => s.files
      | some stale => s.files.sweep (fun name => stale name && o.unlinked name)
          (cacheName voice clip.mtimeNs) (written o.exporting (.encoded clip.content)) := by
  obtain ⟨opens, absent, clones, encodes⟩ := encodes
  simp only [loadOrEncode, opens, absent, clones, encodes]
  cases glob (stalePattern voice) with
  | none => rfl
  | some stale =>
    cases o.exporting with
    | saved => rfl
    | failed torn => cases torn <;> rfl

theorem loadOrEncode_keeps (glob : Globbing) (other : ¬Encodes o s voice clip) :
    (loadOrEncode glob o s voice clip).2.files = s.files := by
  cases opens : o.opens with
  | false => simp [loadOrEncode, opens]
  | true =>
    cases absent : s.files (cacheName voice clip.mtimeNs) with
    | some kept => cases kept <;> simp [loadOrEncode, opens, absent]
    | none =>
      cases trial : o.clones && o.encodes with
      | false => simp [loadOrEncode, opens, absent, trial]
      | true =>
        obtain ⟨clones, encodes⟩ := (Bool.and_eq_true _ _).mp trial
        exact absurd ⟨opens, absent, clones, encodes⟩ other

theorem loadOrEncode_voices (glob : Globbing) (o : Outcome) (s : State Content) (voice : Text)
    (clip : Clip Content) : (loadOrEncode glob o s voice clip).2.voices = s.voices := by
  unfold loadOrEncode
  dsimp only
  split
  · rfl
  · split
    · rfl
    · rfl
    · split
      · split <;> rfl
      · rfl

theorem Labelled.loadOrEncode (labelled : Labelled s) (glob : Globbing) (o : Outcome) (voice : Text)
    (clip : Clip Content) : Labelled (loadOrEncode glob o s voice clip).2 := by
  refine ⟨?_, by simpa only [loadOrEncode_voices] using labelled.entries⟩
  by_cases encodes : Encodes o s voice clip
  · rw [loadOrEncode_files glob encodes]
    cases glob (stalePattern voice) with
    | none => exact labelled.files
    | some stale =>
      exact labelled.files.sweep fun _ => ⟨voice, voice, named_cacheName voice clip.mtimeNs⟩
  · rw [loadOrEncode_keeps glob encodes]
    exact labelled.files

theorem Labelled.getVoiceState (labelled : Labelled s) (glob : Globbing) (o : Outcome) (entry : VoiceEntry) :
    Labelled (getVoiceState glob o s entry).2 := by
  cases path : entry.wavPath with
  | none =>
    simp only [PocketTts.getVoiceState, path]
    cases s.stateCache entry.voiceId with
    | some cached => exact labelled
    | none => cases o.encodes <;> exact ⟨labelled.files, labelled.entries⟩
  | some wavPath =>
    simp only [PocketTts.getVoiceState, path]
    cases s.drop.clip wavPath with
    | none => exact labelled
    | some clip =>
      have miss := labelled.loadOrEncode glob o entry.voiceId clip
      cases s.stateCache entry.voiceId with
      | none => exact miss
      | some cached =>
        by_cases same : cached.1 = clip.mtimeNs
        · simpa [same] using labelled
        · simpa [same] using miss

theorem Labelled.synth (labelled : Labelled s) (glob : Globbing) (o : Outcome) (voice : Text) :
    Labelled (synth glob o s voice) := by
  unfold PocketTts.synth
  cases s.voices.lookup voice with
  | none => exact labelled
  | some entry => exact labelled.getVoiceState glob o entry

theorem Labelled.rescan (labelled : Labelled s) (lib : PyLibrary) : Labelled (rescan lib s) := by
  unfold PocketTts.rescan
  cases rescanned : Provider.pocketTts.rescanVoices lib s.drop.dir with
  | error raised => exact labelled
  | ok voices => exact ⟨labelled.files, fun voice entry found => (rescanVoices_entry rescanned found).1⟩

theorem Labelled.step (labelled : Labelled s) (lib : PyLibrary) (glob : Globbing) (a : Act Content) :
    Labelled (next lib glob s a) := by
  cases a with
  | edit drop => exact ⟨labelled.files, labelled.entries⟩
  | rescan => exact labelled.rescan lib
  | synth voice o => exact labelled.synth glob o voice
  | interrupted voice o => exact ⟨(labelled.synth glob o voice).files, nofun⟩
  | restart => exact ⟨labelled.files, nofun⟩

theorem named_unique {v v' label label' name : Text} (of : Named v label name)
    (of' : Named v' label' name) : v = v' := by
  obtain ⟨-, mtimeNs, rfl⟩ := of
  obtain ⟨-, mtimeNs', same⟩ := of'
  exact (cacheName_injective same).1

theorem getVoiceState_forgotten (glob : Globbing) {wavPath : Text} (named : entry.voiceId = voice)
    (path : entry.wavPath = some wavPath) (present : s.drop.clip wavPath = some clip)
    (forgotten : ∀ state, s.stateCache voice ≠ some (clip.mtimeNs, state)) :
    getVoiceState glob o s entry = loadOrEncode glob o s voice clip := by
  subst named
  simp only [getVoiceState, path, present]
  cases cached : s.stateCache entry.voiceId with
  | none => rfl
  | some kept =>
    obtain ⟨mtimeNs, state⟩ := kept
    refine if_neg ?_
    rintro rfl
    exact forgotten state cached

theorem Labelled.replaces_iff (labelled : Labelled s) (encodes : Encodes o s voice clip) :
    Cache.Replaces (Owns Named voice) (cacheName voice clip.mtimeNs) (Saves o voice) s.files
        (PocketTts.loadOrEncode pathGlob o s voice clip).2.files ↔
      Apart Named '.' voice voice s.files (reached o voice) (Saves o voice) := by
  rw [loadOrEncode_files pathGlob encodes]
  cases globbed : pathGlob (stalePattern voice) with
  | none =>
    refine replaces_self_iff_apart (fun saves => saves.1 globbed) fun name => ?_
    rw [reached, globbed]
    rfl
  | some stale =>
    obtain rfl := pathGlob_eq_some globbed
    have reach : reached o voice = o.unlinked := by
      funext name
      rw [reached, globbed]
      rfl
    rw [reach]
    refine replaces_iff_apart (fun _ _ _ _ _ => named_unique) (fun name present => ?_)
      (fun v label name of present => ?_) ⟨voice, named_cacheName voice clip.mtimeNs⟩ encodes.absent
      (fun saves => ?_)
    · obtain ⟨file, there⟩ := Option.ne_none_iff_exists'.mp present
      exact labelled.files name file there
    · obtain ⟨rfl, mtimeNs, rfl⟩ := of
      exact accepts_cacheName voice label mtimeNs
    · rw [saves.2]
      exact Option.some_ne_none _

theorem Labelled.sweepsOwn_iff (labelled : Labelled s) (a : Act Content) :
    SweepsOwn s a ↔ MeetsApart s a := by
  have call (voice : Text) (o : Outcome) : SweepsOwn s (.synth voice o) ↔ MeetsApart s (.synth voice o) := by
    refine forall_congr' fun entry => forall_congr' fun wavPath => forall_congr' fun clip =>
      forall_congr' fun found => forall_congr' fun path => forall_congr' fun present =>
      forall_congr' fun forgotten => forall_congr' fun encodes => ?_
    dsimp only
    rw [getVoiceState_forgotten pathGlob (labelled.entries voice entry found) path present forgotten]
    exact labelled.replaces_iff encodes
  cases a with
  | edit drop => exact Iff.rfl
  | rescan => exact Iff.rfl
  | restart => exact Iff.rfl
  | synth voice o => exact call voice o
  | interrupted voice o => exact call voice o

theorem apart_literal_iff {File : Type} {files : Cache Text File} {reached : Text → Bool} {saved : Prop}
    (literal : Glob.Literal voice) :
    Apart Named '.' voice voice files reached saved ↔
      (∀ other mtimeNs, voice ++ ['.'] <+: other → files (cacheName other mtimeNs) ≠ none →
        reached (cacheName other mtimeNs) = false) ∧
      (saved → ∀ mtimeNs, files (cacheName voice mtimeNs) ≠ none →
        reached (cacheName voice mtimeNs) = true) := by
  constructor
  · intro apart
    refine ⟨fun other mtimeNs dotted present => ?_, fun saves mtimeNs present => ?_⟩
    · have different : other ≠ voice := by
        rintro rfl
        have size := dotted.length_le
        simp at size
      exact apart.others other other _ (named_cacheName other mtimeNs) different present
        ((claims_literal literal).mpr (.inr dotted))
    · exact (apart.own saves voice _ (named_cacheName voice mtimeNs) present).2
  · rintro ⟨others, own⟩
    refine ⟨fun other label name of different present claims => ?_, fun saves label name of present => ?_⟩
    · obtain ⟨rfl, mtimeNs, rfl⟩ := of
      rcases (claims_literal literal).mp claims with same | dotted
      · exact absurd same.symm different
      · exact others label mtimeNs dotted present
    · obtain ⟨rfl, mtimeNs, rfl⟩ := of
      exact ⟨(claims_literal literal).mpr (.inl rfl), own saves mtimeNs present⟩

theorem labelled_initial (drop : Drop Content) : Labelled (initial drop) := ⟨Cache.sound_empty, nofun⟩

end

end PocketTts

namespace Omnivoice

def Named (lib : CacheLibrary) : Naming := fun voice label name =>
  ∃ lang wavPath stamp refText, '.' ∉ lang ∧ label = voice ++ '.' :: lang ∧
    name = cacheName lib voice lang wavPath stamp refText

structure Builds (lib : CacheLibrary) (o : Outcome) (s : State) (entry : VoiceEntry) (path : Text) :
    Prop where
  forgotten : s.promptCache entry.voiceId = none
  cached : promptCachePath lib s.drop entry = some path
  looks : o.looks = true
  unreadable : ∀ built, s.files path = some (.whole built) → o.loads = false
  unlinks : s.files path ≠ none → o.unlinks = true
  builds : o.builds = true

def beforeSaving (s : State) (path : Text) : Cache Text PromptFile :=
  s.files.keep fun name => decide (name ≠ path)

def Saves (lib : CacheLibrary) (o : Outcome) (entry : VoiceEntry) : Prop :=
  lib.glob (stalePattern entry.voiceId entry.lang) ≠ none ∧ o.saving = .saved

def Saving.reaches (saving : Saving) (name : Text) : Bool :=
  match saving with
  | .saved => true
  | .failed swept _ => swept name

def reached (lib : CacheLibrary) (o : Outcome) (entry : VoiceEntry) (name : Text) : Bool :=
  (lib.glob (stalePattern entry.voiceId entry.lang)).isSome && o.saving.reaches name

def written (saving : Saving) (built : Version) : Option PromptFile :=
  match saving with
  | .saved => some (.whole built)
  | .failed _ torn => if torn then some .torn else none

/-- `law` of every call that builds a prompt afresh: its outcome, the entry, the voice and the file. -/
def OnBuilding (lib : CacheLibrary) (s : State) (law : Outcome → VoiceEntry → Text → Text → Prop) : Act → Prop
  | .synth voice o => ∀ entry path, s.voices.lookup voice = some entry → Builds lib o s entry path →
      law o entry voice path
  | .replace _ | .rescan | .restart => True

/-- Saving the prompt of a voice replaces the file of this voice and of no other. -/
def SweepsOwn (lib : CacheLibrary) (s : State) : Act → Prop :=
  OnBuilding lib s fun o entry voice path =>
    Cache.Replaces (Owns (Named lib) voice) path (Saves lib o entry) (beforeSaving s path)
      (getClonePrompt lib o s entry).2.files

def MeetsApart (lib : CacheLibrary) (s : State) : Act → Prop :=
  OnBuilding lib s fun o entry voice path =>
    Apart (Named lib) '-' voice (voice ++ '.' :: entry.lang) (beforeSaving s path) (reached lib o entry)
      (Saves lib o entry)

def isHexDigit (c : Char) : Bool := c.isDigit || ('a' ≤ c && c ≤ 'f')

def Hexadecimal (hexdigest : Text → Text) : Prop := ∀ text, (hexdigest text).all isHexDigit = true

structure Labelled (lib : CacheLibrary) (s : State) : Prop where
  files : s.files.Sound fun name _ => ∃ voice, Owns (Named lib) voice name
  entries : ∀ voice entry, s.voices.lookup voice = some entry → entry.voiceId = voice ∧ '.' ∉ entry.lang

section

variable {lib : CacheLibrary} {o : Outcome} {s : State} {voice path : Text} {entry : VoiceEntry}

theorem accepts_cacheName (hex : Hexadecimal lib.sha1) (voice lang other lang' wavPath : Text)
    (stamp : Stamp) (refText : Text) :
    Glob.accepts (Glob.read (stalePattern voice lang))
        (cacheName lib other lang' wavPath stamp refText) = true ↔
      Claims '-' (voice ++ '.' :: lang) (other ++ '.' :: lang') := by
  have literal : Glob.Literal ('-' :: ".pt".toList) := rfl
  have last : '-' ∉ sliceTo (lib.sha1 (digestInput lib wavPath stamp refText)) 16 := by
    rw [show (16 : Int) = (16 : Nat) from rfl, sliceTo_natCast]
    intro member
    exact absurd (List.all_eq_true.mp (hex _) '-' (List.mem_of_mem_take member)) (by decide)
  have name : cacheName lib other lang' wavPath stamp refText = (other ++ '.' :: lang') ++ '-' ::
      (sliceTo (lib.sha1 (digestInput lib wavPath stamp refText)) 16 ++ ".pt".toList) := by
    simp only [cacheName, List.append_assoc, List.cons_append]
  rw [name]
  exact accepts_iff_claims (voice ++ '.' :: lang) _ literal (by decide) last

theorem persist_files (saving : Saving) (built : Version) :
    (persist lib saving s entry path built).files =
      match lib.glob (stalePattern entry.voiceId entry.lang) with
      | none => s.files
      | some hits => s.files.sweep (fun name => (hits name && decide (name ≠ path)) && saving.reaches name)
          path (written saving built) := by
  unfold persist
  cases lib.glob (stalePattern entry.voiceId entry.lang) with
  | none => rfl
  | some hits =>
    cases saving with
    | saved => simp [Saving.reaches, written, Cache.sweep]
    | failed swept torn => cases torn <;> rfl

theorem beforeSaving_of_absent (absent : s.files path = none) : beforeSaving s path = s.files := by
  funext name
  by_cases same : name = path
  · subst same
    simp [beforeSaving, Cache.keep, absent]
  · simp [beforeSaving, Cache.keep, same]

/-- Whatever was in the way, the prompt is built as if there had been no file at the path. -/
theorem getClonePrompt_builds (builds : Builds lib o s entry path) :
    getClonePrompt lib o s entry = build lib o { s with files := beforeSaving s path } entry (some path) := by
  obtain ⟨forgotten, cached, looks, unreadable, unlinks, -⟩ := builds
  simp only [getClonePrompt, forgotten, cached, looks, if_true]
  cases file : s.files path with
  | none => simp only [beforeSaving_of_absent file]
  | some kept =>
    have discards : o.unlinks = true := unlinks (by simp [file])
    cases kept with
    | torn => simp only [discards, if_true, beforeSaving]
    | whole built =>
      have fails : o.loads = false := unreadable built file
      simp only [fails, discards, if_true, beforeSaving]

theorem getClonePrompt_files (builds : Builds lib o s entry path) :
    (getClonePrompt lib o s entry).2.files =
      match lib.glob (stalePattern entry.voiceId entry.lang) with
      | none => beforeSaving s path
      | some hits => (beforeSaving s path).sweep
          (fun name => (hits name && decide (name ≠ path)) && o.saving.reaches name) path
          (written o.saving (s.drop.version entry)) := by
  rw [getClonePrompt_builds builds, build, if_pos builds.builds]
  exact persist_files o.saving (s.drop.version entry)

theorem named_promptCachePath (primary : '.' ∉ entry.lang)
    (cached : promptCachePath lib s.drop entry = some path) :
    Named lib entry.voiceId (entry.voiceId ++ '.' :: entry.lang) path := by
  obtain ⟨wavPath, -, rest⟩ := Option.bind_eq_some_iff.mp cached
  obtain ⟨stamp, -, made⟩ := Option.bind_eq_some_iff.mp rest
  exact ⟨entry.lang, wavPath, stamp, entry.promptText.getD [], primary, rfl, (Option.some.inj made).symm⟩

theorem Labelled.persist (labelled : Labelled lib s) (saving : Saving) (built : Version)
    (owned : ∃ voice, Owns (Named lib) voice path) :
    Labelled lib (persist lib saving s entry path built) := by
  refine ⟨?_, ?_⟩
  · rw [persist_files]
    cases lib.glob (stalePattern entry.voiceId entry.lang) with
    | none => exact labelled.files
    | some hits => exact labelled.files.sweep fun _ => owned
  · unfold Omnivoice.persist
    cases lib.glob (stalePattern entry.voiceId entry.lang) with
    | none => exact labelled.entries
    | some hits => cases saving <;> exact labelled.entries

theorem Labelled.build (labelled : Labelled lib s) (o : Outcome) (path : Option Text)
    (owned : ∀ name, path = some name → ∃ voice, Owns (Named lib) voice name) :
    Labelled lib (build lib o s entry path).2 := by
  unfold Omnivoice.build
  split
  · have cached : Labelled lib
        { s with promptCache := s.promptCache.put entry.voiceId (s.drop.version entry) } :=
      ⟨labelled.files, labelled.entries⟩
    cases path with
    | none => exact cached
    | some name => exact cached.persist o.saving _ (owned name rfl)
  · exact labelled

theorem Labelled.discard (labelled : Labelled lib s) (path : Text) :
    Labelled lib { s with files := beforeSaving s path } := ⟨labelled.files.keep _, labelled.entries⟩

theorem Labelled.getClonePrompt (labelled : Labelled lib s) (o : Outcome) (primary : '.' ∉ entry.lang) :
    Labelled lib (getClonePrompt lib o s entry).2 := by
  unfold Omnivoice.getClonePrompt
  cases s.promptCache entry.voiceId with
  | some prompt => exact labelled
  | none =>
    cases cached : promptCachePath lib s.drop entry with
    | none => exact labelled.build o none nofun
    | some path =>
      have owned : ∀ name, some path = some name → ∃ voice, Owns (Named lib) voice name := by
        rintro _ ⟨⟩
        exact ⟨_, _, named_promptCachePath primary cached⟩
      have rebuilt : Labelled lib (if o.unlinks = true then
          Omnivoice.build lib o { s with files := beforeSaving s path } entry (some path)
        else (none, s)).2 := by
        split
        · exact (labelled.discard path).build o _ owned
        · exact labelled
      dsimp only
      split
      · cases s.files path with
        | none => exact labelled.build o _ owned
        | some kept =>
          cases kept with
          | torn => exact rebuilt
          | whole built =>
            cases o.loads with
            | true => exact ⟨labelled.files, labelled.entries⟩
            | false => exact rebuilt
      · exact labelled

theorem Labelled.rescan (labelled : Labelled lib s) (pyLib : PyLibrary) : Labelled lib (rescan pyLib s) := by
  unfold Omnivoice.rescan
  cases rescanned : Provider.omnivoice.rescanVoices pyLib s.drop.dir with
  | error raised => exact labelled
  | ok voices =>
    refine ⟨labelled.files, fun voice entry found => ?_⟩
    obtain ⟨named, preset | ⟨-, lang, primary, same, -⟩⟩ := rescanVoices_entry rescanned found
    · cases preset
    · have plain : entry.lang = lang := same
      exact ⟨named, plain ▸ primary⟩

theorem Labelled.synth (labelled : Labelled lib s) (o : Outcome) (voice : Text) :
    Labelled lib (synth lib o s voice).2 := by
  unfold Omnivoice.synth
  cases found : s.voices.lookup voice with
  | none => exact labelled
  | some entry => exact labelled.getClonePrompt o (labelled.entries voice entry found).2

theorem Labelled.step (labelled : Labelled lib s) (pyLib : PyLibrary) (a : Act) :
    Labelled lib (next pyLib lib s a) := by
  cases a with
  | replace drop => exact ⟨labelled.files, labelled.entries⟩
  | rescan => exact labelled.rescan pyLib
  | synth voice o => exact labelled.synth o voice
  | restart => exact ⟨labelled.files, nofun⟩

theorem named_unique {v v' label label' name : Text} (of : Named lib v label name)
    (of' : Named lib v' label' name) : v = v' := by
  obtain ⟨lang, wavPath, stamp, refText, primary, -, rfl⟩ := of
  obtain ⟨lang', wavPath', stamp', refText', primary', -, same⟩ := of'
  exact (cacheName_injective primary primary' same).1

theorem Labelled.replaces_iff (labelled : Labelled lib s) (hex : Hexadecimal lib.sha1)
    (globs : lib.glob = pathGlob) (primary : '.' ∉ entry.lang) (builds : Builds lib o s entry path) :
    Cache.Replaces (Owns (Named lib) entry.voiceId) path (Saves lib o entry) (beforeSaving s path)
        (Omnivoice.getClonePrompt lib o s entry).2.files ↔
      Apart (Named lib) '-' entry.voiceId (entry.voiceId ++ '.' :: entry.lang) (beforeSaving s path)
        (reached lib o entry) (Saves lib o entry) := by
  rw [getClonePrompt_files builds]
  cases globbed : lib.glob (stalePattern entry.voiceId entry.lang) with
  | none =>
    refine replaces_self_iff_apart (fun saves => saves.1 globbed) fun name => ?_
    rw [reached, globbed]
    rfl
  | some hits =>
    obtain rfl := pathGlob_eq_some (globs ▸ globbed)
    have reach : reached lib o entry = o.saving.reaches := by
      funext name
      rw [reached, globbed]
      rfl
    have absent : beforeSaving s path path = none := by simp [beforeSaving, Cache.keep]
    rw [reach]
    refine replaces_iff_apart (fun _ _ _ _ _ => named_unique) (fun name present => ?_)
      (fun v label name of present => ?_) ⟨_, named_promptCachePath primary builds.cached⟩ absent
      (fun saves => ?_)
    · obtain ⟨file, there⟩ := Option.ne_none_iff_exists'.mp present
      exact (labelled.discard path).files name file there
    · have different : name ≠ path := by
        rintro rfl
        exact present absent
      obtain ⟨lang, wavPath, stamp, refText, -, rfl, rfl⟩ := of
      rw [decide_eq_true different, Bool.and_true]
      exact accepts_cacheName hex entry.voiceId entry.lang v lang wavPath stamp refText
    · rw [saves.2]
      exact Option.some_ne_none _

theorem Labelled.sweepsOwn_iff (labelled : Labelled lib s) (hex : Hexadecimal lib.sha1)
    (globs : lib.glob = pathGlob) (a : Act) : SweepsOwn lib s a ↔ MeetsApart lib s a := by
  cases a with
  | replace drop => exact Iff.rfl
  | rescan => exact Iff.rfl
  | restart => exact Iff.rfl
  | synth voice o =>
    refine forall_congr' fun entry => forall_congr' fun path => forall_congr' fun found =>
      forall_congr' fun builds => ?_
    obtain ⟨rfl, primary⟩ := labelled.entries voice entry found
    exact labelled.replaces_iff hex globs primary builds

theorem labelled_initial (lib : CacheLibrary) (drop : Drop) : Labelled lib (initial drop) :=
  ⟨Cache.sound_empty, nofun⟩

end

end Omnivoice

/-- In every run of either provider from an empty cache: every save replaces the file of its own voice
and leaves those of the others exactly when all are made with the files apart. -/
theorem sweepsOwn_run_iff {Content : Type} (pyLib : PyLibrary) (lib : Omnivoice.CacheLibrary)
    (hex : Omnivoice.Hexadecimal lib.sha1) (globs : lib.glob = pathGlob) (drop : PocketTts.Drop Content)
    (acts : List (PocketTts.Act Content)) (drop' : Omnivoice.Drop) (acts' : List Omnivoice.Act) :
    ((PocketTts.anyProvider pyLib pathGlob).Admits PocketTts.SweepsOwn (PocketTts.initial drop) acts ↔
        (PocketTts.anyProvider pyLib pathGlob).Admits PocketTts.MeetsApart (PocketTts.initial drop) acts) ∧
      ((Omnivoice.provider pyLib lib).Admits (Omnivoice.SweepsOwn lib) (Omnivoice.initial drop') acts' ↔
        (Omnivoice.provider pyLib lib).Admits (Omnivoice.MeetsApart lib) (Omnivoice.initial drop') acts') :=
  ⟨System.admits_congr (fun _ a labelled _ => labelled.step pyLib pathGlob a)
      (fun _ a labelled _ => labelled.sweepsOwn_iff a) (PocketTts.labelled_initial drop),
    System.admits_congr (fun _ a labelled _ => labelled.step pyLib a)
      (fun _ a labelled _ => labelled.sweepsOwn_iff hex globs a) (Omnivoice.labelled_initial lib drop')⟩

def globbingLibrary : Omnivoice.CacheLibrary := { Omnivoice.sampleLibrary with glob := pathGlob }

/-- The clip is replaced between two synths, and the provider restarted. -/
def pocketRuns : List (PocketTts.Act Nat) :=
  [.rescan, PocketTts.speakAlice .saved,
    .edit { PocketTts.alicesDrop with
      clip := fun name => if name = "alice.en.wav".toList then some ⟨2, 8⟩ else none },
    .restart, .rescan, PocketTts.speakAlice .saved]

def omnivoiceRuns : List Omnivoice.Act :=
  [.rescan, Omnivoice.speakAlice, .replace (Omnivoice.alicesDrop 2), .restart, .rescan, Omnivoice.speakAlice]

theorem alices_runs_iff :
    Omnivoice.Hexadecimal globbingLibrary.sha1 ∧ globbingLibrary.glob = pathGlob ∧
      ((PocketTts.anyProvider noTables pathGlob).Admits PocketTts.SweepsOwn
            (PocketTts.initial PocketTts.alicesDrop) pocketRuns ↔
          (PocketTts.anyProvider noTables pathGlob).Admits PocketTts.MeetsApart
            (PocketTts.initial PocketTts.alicesDrop) pocketRuns) ∧
        ((Omnivoice.provider noTables globbingLibrary).Admits (Omnivoice.SweepsOwn globbingLibrary)
            (Omnivoice.initial (Omnivoice.alicesDrop 1)) omnivoiceRuns ↔
          (Omnivoice.provider noTables globbingLibrary).Admits (Omnivoice.MeetsApart globbingLibrary)
            (Omnivoice.initial (Omnivoice.alicesDrop 1)) omnivoiceRuns) := by
  have hex : Omnivoice.Hexadecimal globbingLibrary.sha1 := by
    intro text
    simp only [globbingLibrary, Omnivoice.sampleLibrary]
    split
    · rfl
    · split <;> rfl
  exact ⟨hex, rfl, sweepsOwn_run_iff noTables globbingLibrary hex rfl _ _ _ _⟩

example : ((PocketTts.anyProvider noTables pathGlob).after (PocketTts.initial PocketTts.alicesDrop)
      (pocketRuns.take 2)).files (PocketTts.cacheName "alice".toList 1) ≠ none ∧
    ((PocketTts.anyProvider noTables pathGlob).after (PocketTts.initial PocketTts.alicesDrop) pocketRuns).files
      (PocketTts.cacheName "alice".toList 1) = none := by
  simp only [ne_eq, ← Option.isNone_iff_eq_none]
  decide +kernel

namespace PocketTts

/-- Two voices, of which one id goes on after the other with a dot. -/
def dottedClips : Directory := .ofFiles [("alice.en.wav", []), ("alice.b.en.wav", [])] (by decide)

def dottedDrop : Drop Nat where
  dir := some dottedClips
  clip name :=
    if name = "alice.en.wav".toList then some ⟨1, 7⟩
    else if name = "alice.b.en.wav".toList then some ⟨2, 8⟩
    else none

def smoothly : Outcome := ⟨true, true, true, fun _ => true, .saved⟩

def dottedState : State Nat :=
  (anyProvider noTables pathGlob).after (initial dottedDrop) [.rescan, .synth "alice.b".toList smoothly]

def dottedFile : Text := cacheName "alice.b".toList 2

theorem dottedState_facts :
    dottedState.voices.lookup "alice".toList = some alicesEntry ∧
      (dottedState.drop.clip "alice.en.wav".toList).map (fun clip => clip.mtimeNs) = some 1 ∧
      (dottedState.stateCache "alice".toList).isNone = true ∧
      (dottedState.files (cacheName "alice".toList 1)).isNone = true ∧
      (dottedState.files dottedFile).isSome = true ∧
      ((getVoiceState pathGlob smoothly dottedState alicesEntry).2.files dottedFile).isNone = true := by
  decide +kernel

theorem alice_not_owns_dottedFile : ¬Owns Named "alice".toList dottedFile := by
  rintro ⟨_, -, mtimeNs, same⟩
  exact absurd (cacheName_injective same).1 (by decide)

theorem dottedState_sweeps : ¬SweepsOwn dottedState (.synth "alice".toList smoothly) := by
  obtain ⟨found, present, forgotten, absent, kept, gone⟩ := dottedState_facts
  generalize dottedState = s at found present forgotten absent kept gone ⊢
  intro sweeps
  obtain ⟨clip, there, dated⟩ := Option.map_eq_some_iff.mp present
  have none : s.stateCache "alice".toList = none := Option.isNone_iff_eq_none.mp forgotten
  have encodes : Encodes smoothly s "alice".toList clip :=
    ⟨rfl, dated ▸ Option.isNone_iff_eq_none.mp absent, rfl, rfl⟩
  have replaces := sweeps alicesEntry "alice.en.wav".toList clip found rfl there
    (fun state cached => by rw [none] at cached; cases cached) encodes
  rw [← replaces.others dottedFile alice_not_owns_dottedFile, Option.isNone_iff_eq_none.mp gone] at kept
  cases kept

/-- Saving alice's state deletes the file of alice.b. -/
theorem dotted_id_swept :
    ¬(anyProvider noTables pathGlob).Admits SweepsOwn (initial dottedDrop)
      [.rescan, .synth "alice.b".toList smoothly, .synth "alice".toList smoothly] := by
  rintro ⟨-, -, ⟨-, sweeps⟩, -⟩
  exact dottedState_sweeps sweeps

end PocketTts

end Cloning

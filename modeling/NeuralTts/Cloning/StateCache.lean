import NeuralTts.Cloning.Globbing
import NeuralTts.Cloning.VoiceRegistry
import NeuralTts.Library.Cache
import NeuralTts.Library.Transition

/-! The caches of pocket-tts's voice states, in memory and on disk and both by the clip's modification
time, over any sequence of edits, rescans, synths, restarts and exports that fail or are cut short. -/

namespace Cloning.PocketTts

open Library PyText

structure Clip (Content : Type) where
  mtimeNs : Int
  content : Content

/-- The voices directory, and what `stat` of a clip in it finds. -/
structure Drop (Content : Type) where
  dir : Option Directory
  clip : Text → Option (Clip Content)

inductive VoiceState (Content : Type)
  | preset (name : Text)
  | encoded (content : Content)
deriving DecidableEq

inductive StateFile (Content : Type)
  | whole (state : VoiceState Content)
  | torn

def cacheName (voiceId : Text) (mtimeNs : Int) : Text :=
  voiceId ++ '.' :: showInt mtimeNs ++ ".safetensors".toList

structure State (Content : Type) where
  drop : Drop Content
  files : Cache Text (StateFile Content)
  voices : Voices
  stateCache : Cache Text (Int × VoiceState Content)

inductive Exporting
  | saved
  | failed (torn : Bool)

/-- What a call of `_get_voice_state` meets. -/
structure Outcome where
  /-- The cache directory can be made, and `exists` of the cache file does not raise. -/
  opens : Bool
  clones : Bool
  encodes : Bool
  unlinked : Text → Bool
  exporting : Exporting

inductive Raised
  | noClip
  | noCacheDir
  | unreadableCache
  | encoding
  | invalidPattern
deriving DecidableEq

def stalePattern (voiceId : Text) : Text := voiceId ++ ".*.safetensors".toList

section

variable {Content : Type} (glob : Globbing) (o : Outcome) (s : State Content)

/-- The cloned voice's state, where the one in memory is not of the clip. -/
def loadOrEncode (voiceId : Text) (clip : Clip Content) :
    Except Raised (VoiceState Content) × State Content :=
  let cacheFile := cacheName voiceId clip.mtimeNs
  if !o.opens then (.error .noCacheDir, s)
  else
    match s.files cacheFile with
    | some (.whole state) =>
      (.ok state, { s with stateCache := s.stateCache.put voiceId (clip.mtimeNs, state) })
    | some .torn => (.error .unreadableCache, s)
    | none =>
      if o.clones && o.encodes then
        match glob (stalePattern voiceId) with
        | none => (.error .invalidPattern, s)
        | some stale =>
          let state := .encoded clip.content
          let left := s.files.keep fun name => !(stale name && o.unlinked name)
          let files := match o.exporting with
            | .saved => left.put cacheFile (.whole state)
            | .failed true => left.put cacheFile .torn
            | .failed false => left
          (.ok state,
            { s with files := files, stateCache := s.stateCache.put voiceId (clip.mtimeNs, state) })
      else (.error .encoding, s)

def getVoiceState (entry : VoiceEntry) : Except Raised (VoiceState Content) × State Content :=
  match entry.wavPath with
  | none =>
    match s.stateCache entry.voiceId with
    | some cached => (.ok cached.2, s)
    | none =>
      if o.encodes then
        let state := .preset entry.voiceId
        (.ok state, { s with stateCache := s.stateCache.put entry.voiceId (0, state) })
      else (.error .encoding, s)
  | some wavPath =>
    match s.drop.clip wavPath with
    | none => (.error .noClip, s)
    | some clip =>
      match s.stateCache entry.voiceId with
      | some cached =>
        if cached.1 = clip.mtimeNs then (.ok cached.2, s)
        else loadOrEncode glob o s entry.voiceId clip
      | none => loadOrEncode glob o s entry.voiceId clip

end

def rescan {Content : Type} (lib : PyLibrary) (s : State Content) : State Content :=
  match Provider.pocketTts.rescanVoices lib s.drop.dir with
  | .error _ => s
  | .ok voices =>
    { s with
      voices := voices
      stateCache := s.stateCache.keep fun voice => (voices.lookup voice).isSome }

def restart {Content : Type} (s : State Content) : State Content :=
  { s with voices := ∅, stateCache := .empty }

inductive Act (Content : Type)
  | edit (drop : Drop Content)
  | rescan
  | synth (voice : Text) (outcome : Outcome)
  /-- The provider dies in the middle of a synth, and starts again. -/
  | interrupted (voice : Text) (outcome : Outcome)
  | restart

def synth {Content : Type} (glob : Globbing) (o : Outcome) (s : State Content) (voice : Text) :
    State Content :=
  match s.voices.lookup voice with
  | none => s
  | some entry => (getVoiceState glob o s entry).2

def next {Content : Type} (lib : PyLibrary) (glob : Globbing) (s : State Content) :
    Act Content → State Content
  | .edit drop => { s with drop := drop }
  | .rescan => rescan lib s
  | .synth voice o => synth glob o s voice
  | .interrupted voice o => restart (synth glob o s voice)
  | .restart => restart s

/-- The contents of a voice's clip are told apart by their modification times. -/
def Dated {Content : Type} (contentAt : Text → Int → Content) (drop : Drop Content) : Prop :=
  ∀ voice lang clip, drop.clip (clipPath voice lang) = some clip → '.' ∉ lang →
    clip.content = contentAt voice clip.mtimeNs

def provider {Content : Type} (lib : PyLibrary) (glob : Globbing)
    (contentAt : Text → Int → Content) : System (State Content) (Act Content) where
  enabled _
    | .edit drop => Dated contentAt drop
    | .rescan | .synth _ _ | .interrupted _ _ | .restart => True
  next := next lib glob

def initial {Content : Type} (drop : Drop Content) : State Content := ⟨drop, .empty, ∅, .empty⟩

/-- A synth of a cloned voice gets the state of the current clip, or raises because this clip is not
there or cannot be encoded. -/
def GetsCurrent {Content : Type} (glob : Globbing) (s : State Content) : Act Content → Prop
  | .synth voice o => ∀ entry wavPath, s.voices.lookup voice = some entry → entry.wavPath = some wavPath →
      match (getVoiceState glob o s entry).1 with
      | .ok state => ∃ clip, s.drop.clip wavPath = some clip ∧ state = .encoded clip.content
      | .error raised => raised = .noClip ∨ raised = .encoding
  | .edit _ | .rescan | .interrupted _ _ | .restart => True

/-- A synth that finds no state of the clip in memory can open the cache directory, and finds no torn
file of the clip there; where it encodes the clip, the stale files can be globbed for. -/
def MeetsNoTornFile {Content : Type} (glob : Globbing) (s : State Content) : Act Content → Prop
  | .synth voice o => ∀ entry wavPath, s.voices.lookup voice = some entry → entry.wavPath = some wavPath →
      ∀ clip, s.drop.clip wavPath = some clip →
      (∀ state, s.stateCache voice ≠ some (clip.mtimeNs, state)) →
      o.opens = true ∧ s.files (cacheName voice clip.mtimeNs) ≠ some .torn ∧
        (s.files (cacheName voice clip.mtimeNs) = none → o.clones = true → o.encodes = true →
          glob (stalePattern voice) ≠ none)
  | .edit _ | .rescan | .interrupted _ _ | .restart => True

theorem dot_notMem_showInt (n : Int) : '.' ∉ showInt n := by
  intro member
  rcases mem_showInt member with digit | dash
  · exact absurd digit (by decide)
  · exact absurd dash (by decide)

theorem cacheName_injective {voiceId voiceId' : Text} {mtimeNs mtimeNs' : Int}
    (same : cacheName voiceId mtimeNs = cacheName voiceId' mtimeNs') :
    voiceId = voiceId' ∧ mtimeNs = mtimeNs' := by
  have parts := rpartition_append (dot_notMem_showInt mtimeNs) voiceId
  rw [List.append_cancel_right same, rpartition_append (dot_notMem_showInt mtimeNs')] at parts
  obtain ⟨ids, times⟩ := Prod.mk.inj parts
  exact ⟨ids.symm, showInt_injective times.symm⟩

def reserved : List Text := presetVoices.map Prod.fst

def NamedFor {Content : Type} (contentAt : Text → Int → Content) (name : Text)
    (file : StateFile Content) : Prop :=
  ∀ state, file = .whole state → ∃ voiceId mtimeNs, name = cacheName voiceId mtimeNs ∧
    state = .encoded (contentAt voiceId mtimeNs)

structure Coherent {Content : Type} (contentAt : Text → Int → Content) (s : State Content) : Prop where
  dated : Dated contentAt s.drop
  memory : s.stateCache.Sound fun voice cached =>
    voice ∉ reserved → cached.2 = .encoded (contentAt voice cached.1)
  files : s.files.Sound (NamedFor contentAt)
  entries : ∀ voice entry, s.voices.lookup voice = some entry → entry.voiceId = voice ∧
    (voice ∈ reserved ∧ entry.wavPath = none ∨
      voice ∉ reserved ∧ ∃ lang, '.' ∉ lang ∧ entry.wavPath = some (clipPath voice lang))

section

variable {Content : Type} {contentAt : Text → Int → Content} {lib : PyLibrary}
  {glob : Globbing} {o : Outcome} {s : State Content} {voice : Text} {clip : Clip Content}
  {entry : VoiceEntry}

theorem Coherent.remember (coherent : Coherent contentAt s)
    (files : Cache Text (StateFile Content)) (named : files.Sound (NamedFor contentAt)) (mtimeNs : Int) :
    Coherent contentAt { s with
      files := files
      stateCache := s.stateCache.put voice (mtimeNs, .encoded (contentAt voice mtimeNs)) } :=
  ⟨coherent.dated, coherent.memory.put fun _ => rfl, named, coherent.entries⟩

theorem Coherent.loadOrEncode (coherent : Coherent contentAt s) (glob : Globbing)
    (o : Outcome) (current : clip.content = contentAt voice clip.mtimeNs) :
    Coherent contentAt (loadOrEncode glob o s voice clip).2 ∧
      ((match (loadOrEncode glob o s voice clip).1 with
        | .ok state => state = .encoded clip.content
        | .error raised => raised = .noClip ∨ raised = .encoding) ↔
      o.opens = true ∧ s.files (cacheName voice clip.mtimeNs) ≠ some .torn ∧
        (s.files (cacheName voice clip.mtimeNs) = none → o.clones = true → o.encodes = true →
          glob (stalePattern voice) ≠ none)) := by
  simp only [PocketTts.loadOrEncode, current]
  cases o.opens with
  | false => simp [coherent]
  | true =>
    simp only [Bool.not_true, Bool.false_eq_true, ↓reduceIte]
    cases file : s.files (cacheName voice clip.mtimeNs) with
    | none =>
      cases trial : o.clones && o.encodes with
      | false =>
        simp only [Bool.false_eq_true, ↓reduceIte, coherent, or_true, true_and, ne_eq, reduceCtorEq,
          not_false_eq_true, true_iff, forall_const]
        intro clones encodes
        simp [clones, encodes] at trial
      | true =>
        obtain ⟨clones, encodes⟩ := (Bool.and_eq_true _ _).mp trial
        cases globbed : glob (stalePattern voice) with
        | none => simp [coherent, clones, encodes]
        | some stale =>
          have fresh : NamedFor contentAt (cacheName voice clip.mtimeNs)
              (.whole (.encoded (contentAt voice clip.mtimeNs))) := by
            intro state same
            cases same
            exact ⟨voice, clip.mtimeNs, rfl, rfl⟩
          have partly : NamedFor contentAt (cacheName voice clip.mtimeNs) .torn := by
            intro state same
            cases same
          refine ⟨coherent.remember _ ?_ _, by simp⟩
          cases o.exporting with
          | saved => exact (coherent.files.keep _).put fresh
          | failed torn =>
            cases torn with
            | true => exact (coherent.files.keep _).put partly
            | false => exact coherent.files.keep _
    | some kept =>
      cases kept with
      | torn => simp [coherent]
      | whole state =>
        obtain ⟨voice', mtimeNs', named, rfl⟩ := coherent.files _ _ file state rfl
        obtain ⟨rfl, rfl⟩ := cacheName_injective named
        exact ⟨coherent.remember s.files coherent.files _, by simp⟩

theorem Coherent.getVoiceState (coherent : Coherent contentAt s)
    (found : s.voices.lookup voice = some entry) : Coherent contentAt (getVoiceState glob o s entry).2 := by
  obtain ⟨named, source⟩ := coherent.entries voice entry found
  simp only [PocketTts.getVoiceState, named]
  rcases source with ⟨preset, path⟩ | ⟨free, lang, primary, path⟩
  · simp only [path]
    cases s.stateCache voice with
    | some cached => exact coherent
    | none =>
      cases o.encodes with
      | true =>
        exact ⟨coherent.dated, coherent.memory.put fun free => absurd preset free, coherent.files,
          coherent.entries⟩
      | false => exact coherent
  · simp only [path]
    cases present : s.drop.clip (clipPath voice lang) with
    | none => exact coherent
    | some clip =>
      have miss := (coherent.loadOrEncode glob o
        (coherent.dated voice lang clip present primary)).1
      cases s.stateCache voice with
      | none => exact miss
      | some cached =>
        simp only
        split
        · exact coherent
        · exact miss

theorem Coherent.synth (coherent : Coherent contentAt s) (voice : Text) :
    Coherent contentAt (synth glob o s voice) := by
  unfold PocketTts.synth
  cases found : s.voices.lookup voice with
  | none => exact coherent
  | some entry => exact coherent.getVoiceState found

theorem Coherent.restart (coherent : Coherent contentAt s) : Coherent contentAt (restart s) :=
  ⟨coherent.dated, Cache.sound_empty, coherent.files, nofun⟩

theorem Coherent.rescan (coherent : Coherent contentAt s) : Coherent contentAt (rescan lib s) := by
  unfold PocketTts.rescan
  cases rescanned : Provider.pocketTts.rescanVoices lib s.drop.dir with
  | error raised => exact coherent
  | ok voices =>
    refine ⟨coherent.dated, coherent.memory.keep _, coherent.files, ?_⟩
    intro voice entry found
    obtain ⟨named, preset | ⟨free, lang, primary, -, path⟩⟩ := rescanVoices_entry rescanned found
    · refine ⟨named, .inl ⟨?_, ?_⟩⟩
      · rw [← named]
        exact mem_reserved_of_preset .pocketTts lib preset
      · obtain ⟨_, -, rfl⟩ := List.mem_map.mp preset
        rfl
    · exact ⟨named, .inr ⟨free, lang, primary, path⟩⟩

theorem Coherent.step (coherent : Coherent contentAt s) {a : Act Content}
    (allowed : (provider lib glob contentAt).enabled s a) : Coherent contentAt (next lib glob s a) := by
  cases a with
  | edit drop => exact ⟨allowed, coherent.memory, coherent.files, coherent.entries⟩
  | rescan => exact coherent.rescan
  | synth voice o => exact coherent.synth voice
  | interrupted voice o => exact (coherent.synth voice).restart
  | restart => exact coherent.restart

theorem Coherent.getsCurrent_iff (coherent : Coherent contentAt s) (a : Act Content) :
    GetsCurrent glob s a ↔ MeetsNoTornFile glob s a := by
  cases a with
  | edit drop => exact Iff.rfl
  | rescan => exact Iff.rfl
  | interrupted voice o => exact Iff.rfl
  | restart => exact Iff.rfl
  | synth voice o =>
    simp only [GetsCurrent, MeetsNoTornFile]
    refine forall_congr' fun entry => forall_congr' fun wavPath => forall_congr' fun found =>
      forall_congr' fun path => ?_
    obtain ⟨named, ⟨-, none⟩ | ⟨free, lang, primary, clip_path⟩⟩ := coherent.entries voice entry found
    · rw [none] at path
      cases path
    · rw [clip_path] at path
      cases path
      simp only [PocketTts.getVoiceState, clip_path, named]
      cases present : s.drop.clip (clipPath voice lang) with
      | none => simp
      | some clip =>
        have miss := (coherent.loadOrEncode glob o
          (coherent.dated voice lang clip present primary)).2
        simp only [Option.some.injEq, exists_eq_left', forall_eq']
        cases memory : s.stateCache voice with
        | none => simpa using miss
        | some cached =>
          obtain ⟨mtimeNs, state⟩ := cached
          by_cases same : mtimeNs = clip.mtimeNs
          · have current : state = .encoded (contentAt voice mtimeNs) :=
              coherent.memory voice _ memory free
            subst same
            simp [current, coherent.dated voice lang clip present primary]
          · simpa [same] using miss

end

theorem coherent_initial {Content : Type} {contentAt : Text → Int → Content} {drop : Drop Content}
    (dated : Dated contentAt drop) : Coherent contentAt (initial drop) :=
  ⟨dated, Cache.sound_empty, Cache.sound_empty, nofun⟩

/-- In every run: all synths of cloned voices are good exactly when none meets a torn file or a pattern
that cannot be globbed for. -/
theorem getsCurrent_run_iff {Content : Type} (lib : PyLibrary) (glob : Globbing)
    (contentAt : Text → Int → Content) (drop : Drop Content) (dated : Dated contentAt drop)
    (acts : List (Act Content)) :
    (provider lib glob contentAt).Admits (GetsCurrent glob) (initial drop) acts ↔
      (provider lib glob contentAt).Admits (MeetsNoTornFile glob) (initial drop) acts :=
  System.admits_congr (fun _ _ coherent allowed => Coherent.step coherent allowed)
    (fun _ a coherent _ => Coherent.getsCurrent_iff coherent a) (coherent_initial dated)

def alicesDrop : Drop Nat where
  dir := some alicesClip
  clip name := if name = "alice.en.wav".toList then some ⟨1, 7⟩ else none

def alicesEntry : VoiceEntry :=
  ⟨"alice".toList, "en-US".toList, some "alice.en.wav".toList, none, "alice".toList, .unspecified⟩

theorem dated_alicesDrop : Dated (fun _ _ => 7) alicesDrop := by
  intro voice lang clip found _
  simp only [alicesDrop] at found
  split at found
  · cases found
    rfl
  · cases found

def speakAlice (exporting : Exporting) : Act Nat :=
  .synth "alice".toList ⟨true, true, true, fun _ => true, exporting⟩

theorem alices_run_iff :
    Dated (fun _ _ => 7) alicesDrop ∧
      ((provider noTables pathGlob fun _ _ => 7).Admits (GetsCurrent pathGlob)
        (initial alicesDrop) [.rescan, speakAlice .saved, .restart, .rescan, speakAlice .saved] ↔
      (provider noTables pathGlob fun _ _ => 7).Admits (MeetsNoTornFile pathGlob)
        (initial alicesDrop)
        [.rescan, speakAlice .saved, .restart, .rescan, speakAlice .saved]) :=
  ⟨dated_alicesDrop, getsCurrent_run_iff _ _ _ _ dated_alicesDrop _⟩

/-- The export of alice's state failed half-way, and the provider has restarted. -/
def leftTorn : State Nat :=
  (provider noTables pathGlob fun _ _ => 7).after (initial alicesDrop)
    [.rescan, speakAlice (.failed true), .restart, .rescan]

theorem leftTorn_raises : ¬ GetsCurrent pathGlob leftTorn (speakAlice .saved) := by
  have found : leftTorn.voices.lookup "alice".toList = some alicesEntry := by decide +kernel
  have raised : (getVoiceState pathGlob ⟨true, true, true, fun _ => true, .saved⟩ leftTorn
      alicesEntry).1 = .error .unreadableCache := by decide +kernel
  generalize leftTorn = s at found raised ⊢
  intro gets
  have result := gets alicesEntry "alice.en.wav".toList found rfl
  rw [raised] at result
  rcases result with clash | clash
  · cases clash
  · cases clash

theorem torn_file_raises_after_restart :
    Dated (fun _ _ => 7) alicesDrop ∧
      ¬ (provider noTables pathGlob fun _ _ => 7).Admits (GetsCurrent pathGlob)
        (initial alicesDrop)
        [.rescan, speakAlice (.failed true), .restart, .rescan, speakAlice .saved] := by
  refine ⟨dated_alicesDrop, ?_⟩
  rintro ⟨-, -, -, -, ⟨-, gets⟩, -⟩
  exact leftTorn_raises gets

end Cloning.PocketTts

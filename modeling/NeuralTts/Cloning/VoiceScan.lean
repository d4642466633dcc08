import NeuralTts.Daemon.Protocol
import NeuralTts.Library.Collect
import NeuralTts.Library.PyText

/-! `voices.py` of the providers that clone voices: the scan of the directory that users drop
reference clips in. -/

namespace Cloning

open Library PyText Daemon

abbrev Text := List Char

inductive PyError
  | osError
  | unicodeDecodeError
  | tomlDecodeError
  | other
deriving DecidableEq

/-- What `stat` and `open` of a name in the directory come to. -/
inductive Node
  | missing
  /-- `stat` fails, in a way that `Path.exists` does not take for absence. -/
  | barred
  | unreadable
  | file (bytes : Bytes)
deriving DecidableEq

structure Directory where
  names : List Text
  distinct : names.Nodup
  node : Text → Node

namespace Directory

/-- `sorted(root.glob("*.wav"))` -/
def clips (d : Directory) : List Text :=
  (d.names.filter fun name => ".wav".toList.isSuffixOf name).insertionSort (· ≤ ·)

def exists? (d : Directory) (name : Text) : Except PyError Bool :=
  match d.node name with
  | .missing => .ok false
  | .barred => .error .osError
  | .unreadable | .file _ => .ok true

/-- What a branch makes of a file that is there. -/
def whenThere {α : Type} (d : Directory) (name : Text) (absent : α) (there : Except PyError α) :
    Except PyError α := do
  if ← d.exists? name then there else return absent

def readBytes (d : Directory) (name : Text) : Except PyError Bytes :=
  match d.node name with
  | .file bytes => .ok bytes
  | .missing | .barred | .unreadable => .error .osError

end Directory

def decode (bytes : Bytes) : Except PyError Text :=
  match String.fromUTF8? ⟨bytes.toArray⟩ with
  | some text => .ok text.toList
  | none => .error .unicodeDecodeError

/-- The newlines of a file that is opened as text. -/
def universalNewlines : Text → Text
  | '\r' :: '\n' :: rest => '\n' :: universalNewlines rest
  | '\r' :: rest => '\n' :: universalNewlines rest
  | c :: rest => c :: universalNewlines rest
  | [] => []

def Directory.readText (d : Directory) (name : Text) : Except PyError Text := do
  let bytes ← d.readBytes name
  let text ← decode bytes
  return universalNewlines text

def stem (name : Text) : Text :=
  let i := rfind '.' name
  if 0 < i ∧ i < name.length - 1 then sliceTo name i else name

def withSuffix (name suffix : Text) : Text := stem name ++ suffix

def rpartition (c : Char) (s : Text) : Text × Text :=
  let i := rfind c s
  if 0 ≤ i then (sliceTo s i, sliceFrom s (i + 1)) else ([], s)

theorem rpartition_append {c : Char} {t : Text} (last : c ∉ t) (s : Text) :
    rpartition c (s ++ c :: t) = (s, t) := by
  have after : ((s.length : Int) + 1) = ((s.length + 1 : Nat) : Int) := by push_cast; rfl
  have split : s ++ c :: t = (s ++ [c]) ++ t := by simp
  rw [rpartition, rfind_append_cons last, if_pos (by omega), after, sliceTo_natCast, sliceFrom_natCast,
    List.take_left, split, List.drop_left' (by simp)]

theorem exists_append_of_mem {c : Char} {s : Text} (member : c ∈ s) :
    ∃ before after, s = before ++ c :: after ∧ c ∉ after := by
  rcases rfind_cases c s with ⟨-, absent⟩ | ⟨i, -, here, last⟩
  · exact absurd member absent
  · obtain ⟨inside, atIndex⟩ := List.getElem?_eq_some_iff.mp here
    refine ⟨s.take i, s.drop (i + 1), ?_, last⟩
    rw [← atIndex, List.getElem_cons_drop, List.take_append_drop]

/-- What `tomllib.loads` makes of a text: the table, by its keys, or what it raises. -/
inductive Loaded (Value : Type)
  | table (get : Text → Option Value)
  | decodeError
  | raised

structure PyLibrary where
  Value : Type
  loads : Text → Loaded Value
  truthy : Value → Bool
  /-- `str` of a value; it raises for an integer of too many digits. -/
  str : Value → Option Text
  title : Text → Text

inductive TranscriptRule
  | required
  | optional
  | unused
deriving DecidableEq

/-- Where the providers' `voices.py` differ. -/
structure ScanRules where
  accepts : Text → Bool
  reserved : List Text
  transcript : TranscriptRule
  display : Text → Text
  entryLang : Text → Text
  /-- The language that `to_pb` gives for the entry's. -/
  langTag : Text → Text

/-- `VoiceEntry` of all the providers: without a clip for a preset voice. -/
structure VoiceEntry where
  voiceId : Text
  lang : Text
  wavPath : Option Text
  promptText : Option Text
  displayName : Text
  gender : PbGender
deriving DecidableEq

def genderFromStr (s : Text) : PbGender :=
  if s = "male".toList then .male
  else if s = "female".toList then .female
  else if s = "neutral".toList then .neutral
  else .unspecified

/-- `str.lower` as far as it reaches the keys of `GENDER_FROM_STR`: no other letter becomes one of
theirs. -/
def lower (s : Text) : Text := s.map Char.toLower

section

variable (lib : PyLibrary) (rules : ScanRules) (d : Directory)

/-- `str(meta.get(key) or default)` -/
def metaText (get : Text → Option lib.Value) (key default : Text) : Except PyError Text :=
  match get key with
  | none => .ok default
  | some value =>
    if lib.truthy value = true then
      match lib.str value with
      | some text => .ok text
      | none => .error .other
    else .ok default

def entryMeta (get : Text → Option lib.Value) (displayName : Text) :
    Except PyError (Text × PbGender) := do
  let displayName ← metaText lib get "display_name".toList displayName
  let gender ← metaText lib get "gender".toList []
  return (displayName, genderFromStr (lower gender))

def loadSidecar (displayName : Text) (bytes : Bytes) : Except PyError (Text × PbGender) := do
  let text ← decode bytes
  match lib.loads text with
  | .decodeError => .error .tomlDecodeError
  | .raised => .error .other
  | .table get => entryMeta lib get displayName

def exceptMalformed {α : Type} (default : α) : Except PyError α → Except PyError α
  | .error .osError | .error .tomlDecodeError => .ok default
  | result => result

def sidecar (toml displayName : Text) : Except PyError (Text × PbGender) :=
  d.whenThere toml (displayName, .unspecified)
    (exceptMalformed (displayName, .unspecified) (d.readBytes toml >>= loadSidecar lib displayName))

def exceptOSError {α : Type} (default : α) : Except PyError α → Except PyError α
  | .error .osError => .ok default
  | result => result

def strippedText (txt : Text) : Except PyError (Option Text) := do
  let text ← d.readText txt
  return if strip text = [] then none else some (strip text)

/-- The prompt text of a clip, if it has one; `none` when the clip is skipped. -/
def promptText (txt : Text) : Except PyError (Option (Option Text)) :=
  match rules.transcript with
  | .unused => .ok (some none)
  | .required => d.whenThere txt none (Option.map some <$> exceptOSError none (strippedText d txt))
  | .optional => d.whenThere txt (some none) (some <$> exceptOSError none (strippedText d txt))

/-- The id and the language of a clip whose name the scan accepts. -/
def parseName (wav : Text) : Option (Text × Text) :=
  if '.' ∉ stem wav then none
  else
    let (voiceId, lang) := rpartition '.' (stem wav)
    if voiceId = [] then none
    else if voiceId ∈ rules.reserved then none
    else if rules.accepts lang = false then none
    else some (voiceId, lang)

/-- One turn of the loop of `scan_voices`. -/
def scanClip (wav : Text) : Except PyError (Option VoiceEntry) :=
  match parseName rules wav with
  | none => .ok none
  | some (voiceId, lang) => do
    match ← promptText rules d (withSuffix wav ".txt".toList) with
    | none => return none
    | some prompt =>
      let (displayName, gender) ← sidecar lib d (withSuffix wav ".toml".toList) (rules.display voiceId)
      return some ⟨voiceId, rules.entryLang lang, some wav, prompt, displayName, gender⟩

end

theorem stem_append_wav {base : Text} (filled : base ≠ []) : stem (base ++ ".wav".toList) = base := by
  have size := List.length_pos_iff.mpr filled
  have dot : rfind '.' (base ++ ".wav".toList) = base.length :=
    rfind_append_cons (t := "wav".toList) (by decide) base
  rw [stem, dot, if_pos, sliceTo_natCast, List.take_left]
  rw [List.length_append]
  simp
  omega

section

variable {rules : ScanRules} {wav voiceId lang : Text}

theorem parseName_wav : parseName rules ".wav".toList = none := rfl

theorem parseName_eq_some_iff (clip : ".wav".toList <:+ wav) :
    parseName rules wav = some (voiceId, lang) ↔
      wav = voiceId ++ '.' :: lang ++ ".wav".toList ∧ '.' ∉ lang ∧ voiceId ≠ [] ∧
        voiceId ∉ rules.reserved ∧ rules.accepts lang = true := by
  obtain ⟨base, rfl⟩ := clip
  by_cases empty : base = []
  · subst empty
    constructor
    · intro parsed
      rw [List.nil_append, parseName_wav] at parsed
      cases parsed
    · rintro ⟨named, -, -⟩
      have size := congrArg List.length named
      simp at size
      omega
  · rw [parseName, stem_append_wav empty]
    by_cases dotted : '.' ∈ base
    · obtain ⟨before, after, rfl, last⟩ := exists_append_of_mem dotted
      rw [if_neg (by simp), rpartition_append last]
      constructor
      · intro parsed
        simp only at parsed
        split at parsed
        · cases parsed
        · rename_i filled
          split at parsed
          · cases parsed
          · rename_i free
            split at parsed
            · cases parsed
            · rename_i accepted
              cases parsed
              exact ⟨rfl, last, filled, free, by simpa using accepted⟩
      · rintro ⟨named, lastToo, filled, free, accepted⟩
        have same := List.append_cancel_right named
        have parts := rpartition_append last before
        rw [same, rpartition_append lastToo] at parts
        cases parts
        simp [filled, free, accepted]
    · rw [if_pos dotted]
      constructor
      · intro parsed
        cases parsed
      · rintro ⟨named, -⟩
        have same := List.append_cancel_right named
        simp [same] at dotted

theorem withSuffix_clip (voiceId lang suffix : Text) :
    withSuffix (voiceId ++ '.' :: lang ++ ".wav".toList) suffix = voiceId ++ '.' :: lang ++ suffix := by
  rw [withSuffix, stem_append_wav (by simp)]

end

/-- `scan_voices`, of a directory that need not exist. -/
def scan (lib : PyLibrary) (rules : ScanRules) : Option Directory → Except PyError (List VoiceEntry)
  | none => .ok []
  | some d => d.clips.filterMapM (scanClip lib rules d)

inductive Provider
  | qwen3Tts
  | omnivoice
  | longcatAudiodit
  | mossTtsNano
  | pocketTts
deriving DecidableEq

abbrev LangTable := List (Text × Text)

def LangTable.get (table : LangTable) (lang : Text) : Text := (table.lookup lang).getD lang

def LangTable.has (table : LangTable) (lang : Text) : Bool := (table.lookup lang).isSome

def langTable (entries : List (String × String)) : LangTable :=
  entries.map fun (lang, tag) => (lang.toList, tag.toList)

namespace Qwen3Tts

def langToBcp47 : LangTable := langTable
  [("en", "en-US"), ("zh", "zh-CN"), ("ja", "ja-JP"), ("ko", "ko-KR"), ("de", "de-DE"),
    ("fr", "fr-FR"), ("ru", "ru-RU"), ("pt", "pt-PT"), ("es", "es-ES"), ("it", "it-IT")]

def allowedLangs : List Text :=
  ["en", "zh", "ja", "ko", "de", "fr", "ru", "pt", "es", "it"].map String.toList

def rules : ScanRules where
  accepts lang := lang ∈ allowedLangs
  reserved := []
  transcript := .required
  display := id
  entryLang := id
  langTag := langToBcp47.get

end Qwen3Tts

namespace Omnivoice

def langToBcp47 : LangTable := langTable
  [("en", "en-US"), ("zh", "zh-CN"), ("fr", "fr-FR"), ("de", "de-DE"), ("es", "es-ES"),
    ("it", "it-IT"), ("ja", "ja-JP"), ("ko", "ko-KR"), ("pt", "pt-PT"), ("ru", "ru-RU"),
    ("nl", "nl-NL"), ("pl", "pl-PL"), ("ar", "ar-SA")]

def rules : ScanRules where
  accepts lang := lang ≠ []
  reserved := []
  transcript := .optional
  display := id
  entryLang := id
  langTag := langToBcp47.get

end Omnivoice

namespace LongcatAudiodit

def allowedLangs : List Text := ["en", "zh"].map String.toList

def rules : ScanRules where
  accepts lang := lang ∈ allowedLangs
  reserved := []
  transcript := .required
  display := id
  entryLang := id
  langTag := (langTable [("en", "en-US"), ("zh", "zh-CN")]).get

end LongcatAudiodit

namespace MossTtsNano

def allowedLangs : LangTable := langTable
  [("zh", "zh-CN"), ("en", "en-US"), ("de", "de-DE"), ("es", "es-ES"), ("fr", "fr-FR"),
    ("ja", "ja-JP"), ("it", "it-IT"), ("hu", "hu-HU"), ("ko", "ko-KR"), ("ru", "ru-RU"),
    ("fa", "fa-IR"), ("ar", "ar"), ("pl", "pl-PL"), ("pt", "pt-PT"), ("cs", "cs-CZ"),
    ("da", "da-DK"), ("sv", "sv-SE"), ("el", "el-GR"), ("tr", "tr-TR")]

def rules : ScanRules where
  accepts := allowedLangs.has
  reserved := []
  transcript := .unused
  display := id
  entryLang := id
  langTag := allowedLangs.get

end MossTtsNano

namespace PocketTts

def allowedLangs : LangTable := langTable
  [("en", "en-US"), ("it", "it-IT"), ("es", "es-ES"), ("de", "de-DE"), ("fr", "fr-FR"),
    ("pt", "pt-PT"), ("nl", "nl-NL"), ("pl", "pl-PL"), ("ja", "ja-JP"), ("zh", "zh-CN"),
    ("ko", "ko-KR"), ("ru", "ru-RU")]

def presetVoices : List (Text × Text × PbGender) :=
  [("alba", "en-US", .female), ("anna", "en-US", .female), ("vera", "en-US", .female),
    ("fantine", "en-US", .female), ("cosette", "en-US", .female), ("eponine", "en-US", .female),
    ("azelma", "en-US", .female), ("mary", "en-US", .female), ("jane", "en-US", .female),
    ("eve", "en-US", .female), ("caro_davy", "en-US", .female), ("marius", "en-US", .male),
    ("javert", "en-US", .male), ("jean", "en-US", .male), ("charles", "en-US", .male),
    ("paul", "en-US", .male), ("george", "en-US", .male), ("michael", "en-US", .male),
    ("bill_boerst", "en-US", .male), ("peter_yearsley", "en-US", .male),
    ("stuart_bell", "en-US", .male), ("giovanni", "it-IT", .male), ("lola", "es-ES", .female),
    ("juergen", "de-DE", .male), ("rafael", "pt-PT", .male), ("estelle", "fr-FR", .female)].map
    fun ((name, lang, gender) : String × String × PbGender) => (name.toList, lang.toList, gender)

def display (lib : PyLibrary) (voiceId : Text) : Text :=
  lib.title (voiceId.map fun c => if c = '_' then ' ' else c)

def presetEntries (lib : PyLibrary) : List VoiceEntry :=
  presetVoices.map fun (name, lang, gender) => ⟨name, lang, none, none, display lib name, gender⟩

def rules (lib : PyLibrary) : ScanRules where
  accepts := allowedLangs.has
  reserved := presetVoices.map Prod.fst
  transcript := .unused
  display := display lib
  entryLang := allowedLangs.get
  langTag := id

end PocketTts

namespace Provider

def rules (lib : PyLibrary) : Provider → ScanRules
  | qwen3Tts => Qwen3Tts.rules
  | omnivoice => Omnivoice.rules
  | longcatAudiodit => LongcatAudiodit.rules
  | mossTtsNano => MossTtsNano.rules
  | pocketTts => PocketTts.rules lib

def scanVoices (p : Provider) (lib : PyLibrary) (root : Option Directory) :
    Except PyError (List VoiceEntry) :=
  scan lib (p.rules lib) root

end Provider

section

variable (lib : PyLibrary) (rules : ScanRules) (d : Directory) (wav : Text)

/-- Nothing that reading the sidecar file raises escapes the scan. -/
def TomlHarmless (bytes : Bytes) : Prop :=
  ∃ text, decode bytes = .ok text ∧
    match lib.loads text with
    | .decodeError => True
    | .raised => False
    | .table get => ∀ key ∈ ["display_name".toList, "gender".toList], ∀ value, get key = some value →
        lib.truthy value = true → lib.str value ≠ none

/-- A file that may be looked for, and is harmless when it can be read. -/
def FileHarmless (name : Text) (contents : Bytes → Prop) : Prop :=
  d.node name ≠ .barred ∧ ∀ bytes, d.node name = .file bytes → contents bytes

def Transcribed : Prop :=
  rules.transcript = .required →
    ∃ text, d.readText (withSuffix wav ".txt".toList) = .ok text ∧ strip text ≠ []

structure Harmless : Prop where
  transcript : rules.transcript ≠ .unused →
    FileHarmless d (withSuffix wav ".txt".toList) fun bytes => ∃ text, decode bytes = .ok text
  sidecar : Transcribed rules d wav → FileHarmless d (withSuffix wav ".toml".toList) (TomlHarmless lib)

end

def clipFiles : List String := [".wav", ".txt", ".toml"]

/-- The directory with a clip more, whose sidecar files are there or not, of any contents. -/
structure Adds (d d' : Directory) (voiceId lang : Text) : Prop where
  some_id : voiceId ≠ []
  primary : '.' ∉ lang
  fresh : voiceId ++ '.' :: lang ++ ".wav".toList ∉ d.names
  present : voiceId ++ '.' :: lang ++ ".wav".toList ∈ d'.names
  others : ∀ name, (∀ suffix ∈ clipFiles, name ≠ voiceId ++ '.' :: lang ++ suffix.toList) →
    (name ∈ d'.names ↔ name ∈ d.names) ∧ d'.node name = d.node name

/-- The scan returns, with the entries of the clips that were there before and no other but perhaps
that of the clip more. -/
def Isolates (p : Provider) (lib : PyLibrary) (d d' : Directory) (wav : Text) : Prop :=
  ∃ entries entries', p.scanVoices lib (some d) = .ok entries ∧
    p.scanVoices lib (some d') = .ok entries' ∧ entries'.filter (·.wavPath ≠ some wav) = entries

section

variable {lib : PyLibrary} {rules : ScanRules} {d d' : Directory} {wav voiceId lang : Text}

theorem returns_metaText_iff {get : Text → Option lib.Value} {key : Text} (default : Text) :
    Returns (metaText lib get key default) ↔
      ∀ value, get key = some value → lib.truthy value = true → lib.str value ≠ none := by
  unfold metaText
  cases found : get key with
  | none => simp [Returns]
  | some value =>
    by_cases truthy : lib.truthy value = true
    · cases shown : lib.str value with
      | none => simp [truthy, shown, Returns]
      | some text => simp [truthy, shown, Returns]
    · simp [truthy, Returns]

theorem returns_entryMeta_iff {get : Text → Option lib.Value} (displayName : Text) :
    Returns (entryMeta lib get displayName) ↔
      ∀ key ∈ ["display_name".toList, "gender".toList], ∀ value, get key = some value →
        lib.truthy value = true → lib.str value ≠ none := by
  rw [List.forall_mem_cons, List.forall_mem_singleton,
    ← returns_metaText_iff displayName, ← returns_metaText_iff [], entryMeta,
    returns_bind_iff]
  constructor
  · rintro ⟨name, named, rest⟩
    obtain ⟨gender, gendered, -⟩ := returns_bind_iff.mp rest
    exact ⟨⟨name, named⟩, gender, gendered⟩
  · rintro ⟨⟨name, named⟩, gender, gendered⟩
    exact ⟨name, named, returns_bind_iff.mpr ⟨gender, gendered, returns_ok _⟩⟩

theorem entryMeta_raises {get : Text → Option lib.Value} {displayName : Text} {raised : PyError}
    (failed : entryMeta lib get displayName = .error raised) : raised = .other := by
  have one : ∀ {key default e}, metaText lib get key default = .error e → e = .other := by
    intro key default e failed
    unfold metaText at failed
    split at failed
    · cases failed
    · split at failed
      · split at failed
        · cases failed
        · cases failed
          rfl
      · cases failed
  unfold entryMeta at failed
  cases named : metaText lib get "display_name".toList displayName with
  | error e =>
    rw [named] at failed
    cases failed
    exact one named
  | ok name =>
    cases gendered : metaText lib get "gender".toList [] with
    | error e =>
      rw [named, gendered] at failed
      cases failed
      exact one gendered
    | ok gender =>
      rw [named, gendered] at failed
      cases failed

theorem returns_exceptMalformed_iff {α : Type} {default : α} {result : Except PyError α} :
    Returns (exceptMalformed default result) ↔
      result ≠ .error .unicodeDecodeError ∧ result ≠ .error .other := by
  cases result with
  | ok value => simp [exceptMalformed, Returns]
  | error raised => cases raised <;> simp [exceptMalformed, Returns]

theorem returns_exceptOSError_iff {α : Type} {default : α} {result : Except PyError α} :
    Returns (exceptOSError default result) ↔ Returns result ∨ result = .error .osError := by
  cases result with
  | ok value => simp [exceptOSError, Returns]
  | error raised => cases raised <;> simp [exceptOSError, Returns]

theorem decode_cases (bytes : Bytes) :
    (∃ text, decode bytes = .ok text) ∨ decode bytes = .error .unicodeDecodeError := by
  unfold decode
  split
  · exact .inl ⟨_, rfl⟩
  · exact .inr rfl

theorem returns_loadSidecar_iff {bytes : Bytes} {displayName : Text} {default : Text × PbGender} :
    Returns (exceptMalformed default (loadSidecar lib displayName bytes)) ↔ TomlHarmless lib bytes := by
  rw [returns_exceptMalformed_iff, TomlHarmless]
  rcases decode_cases bytes with ⟨text, decoded⟩ | garbled
  · have load : loadSidecar lib displayName bytes = match lib.loads text with
        | .decodeError => .error .tomlDecodeError
        | .raised => .error .other
        | .table get => entryMeta lib get displayName := by
      rw [loadSidecar, decoded]
      rfl
    rw [load, decoded]
    simp only [Except.ok.injEq, exists_eq_left']
    cases lib.loads text with
    | decodeError => simp
    | raised => simp
    | table get =>
      simp only [← returns_entryMeta_iff displayName]
      cases outcome : entryMeta lib get displayName with
      | ok value => simp [Returns]
      | error raised => simp [Returns, entryMeta_raises outcome]
  · rw [loadSidecar, garbled]
    constructor
    · rintro ⟨caught, -⟩
      exact absurd rfl caught
    · rintro ⟨_, decoded, -⟩
      cases decoded

theorem returns_whenThere_iff {α : Type} {name : Text} {absent : α} {there : Except PyError α} :
    Returns (d.whenThere name absent there) ↔
      d.node name ≠ .barred ∧ (d.node name ≠ .missing → Returns there) := by
  unfold Directory.whenThere Directory.exists?
  cases d.node name with
  | missing => simp [Returns, bind, Except.bind, pure, Except.pure]
  | barred => simp [Returns, bind, Except.bind]
  | unreadable => simp [bind, Except.bind]
  | file bytes => simp [bind, Except.bind]

theorem returns_sidecar_iff {toml displayName : Text} :
    Returns (sidecar lib d toml displayName) ↔ FileHarmless d toml (TomlHarmless lib) := by
  rw [sidecar, returns_whenThere_iff, FileHarmless, Directory.readBytes]
  cases node : d.node toml with
  | missing => simp
  | barred => simp
  | unreadable => simp [Returns, bind, Except.bind, exceptMalformed]
  | file bytes =>
    simp only [ne_eq, reduceCtorEq, not_false_eq_true, true_and, Node.file.injEq, forall_eq',
      forall_const]
    exact returns_loadSidecar_iff

theorem readText_file {txt : Text} {bytes : Bytes} (contents : d.node txt = .file bytes) :
    d.readText txt = (decode bytes).map universalNewlines := by
  have read : d.readBytes txt = .ok bytes := by rw [Directory.readBytes, contents]
  rw [Directory.readText, read]
  change (decode bytes >>= fun text => pure (universalNewlines text)) = _
  cases decode bytes <;> rfl

theorem readText_noFile {txt : Text} (unread : ∀ bytes, d.node txt ≠ .file bytes) :
    d.readText txt = .error .osError := by
  unfold Directory.readText Directory.readBytes
  cases node : d.node txt with
  | file bytes => exact absurd node (unread bytes)
  | missing => rfl
  | barred => rfl
  | unreadable => rfl

theorem returns_strippedText_iff {txt : Text} :
    Returns (exceptOSError none (strippedText d txt)) ↔
      ∀ bytes, d.node txt = .file bytes → ∃ text, decode bytes = .ok text := by
  rw [returns_exceptOSError_iff, strippedText]
  by_cases unread : ∀ bytes, d.node txt ≠ .file bytes
  · rw [readText_noFile unread]
    constructor
    · intro _ bytes contents
      exact absurd contents (unread bytes)
    · intro _
      exact .inr rfl
  · obtain ⟨bytes, contents⟩ : ∃ bytes, d.node txt = .file bytes := by simpa using unread
    rw [readText_file contents, contents]
    rcases decode_cases bytes with ⟨text, decoded⟩ | garbled
    · simp [decoded, Except.map, Returns, bind, Except.bind, pure, Except.pure]
    · simp [garbled, Except.map, Returns, bind, Except.bind]

theorem returns_promptText_iff {txt : Text} :
    Returns (promptText rules d txt) ↔ (rules.transcript ≠ .unused →
      FileHarmless d txt fun bytes => ∃ text, decode bytes = .ok text) := by
  have looked : (d.node txt ≠ .barred ∧ (d.node txt ≠ .missing →
        Returns (exceptOSError none (strippedText d txt)))) ↔
      FileHarmless d txt fun bytes => ∃ text, decode bytes = .ok text := by
    rw [FileHarmless, returns_strippedText_iff]
    cases d.node txt <;> simp
  unfold promptText
  cases rules.transcript with
  | unused => simp [returns_ok]
  | required => simp [returns_whenThere_iff, returns_map_iff, looked]
  | optional => simp [returns_whenThere_iff, returns_map_iff, looked]

theorem whenThere_eq_ok {α : Type} {name : Text} {absent value : α} {there : Except PyError α} :
    d.whenThere name absent there = .ok value ↔
      d.node name = .missing ∧ absent = value ∨
        d.node name ≠ .missing ∧ d.node name ≠ .barred ∧ there = .ok value := by
  unfold Directory.whenThere Directory.exists?
  cases d.node name with
  | missing => simp [bind, Except.bind, pure, Except.pure]
  | barred => simp [bind, Except.bind]
  | unreadable => simp [bind, Except.bind]
  | file bytes => simp [bind, Except.bind]

theorem strippedText_eq_some_iff {txt prompt : Text} :
    exceptOSError none (strippedText d txt) = .ok (some prompt) ↔
      ∃ text, d.readText txt = .ok text ∧ strip text ≠ [] ∧ strip text = prompt := by
  unfold strippedText
  cases d.readText txt with
  | error raised => cases raised <;> simp [exceptOSError, bind, Except.bind]
  | ok text =>
    by_cases blank : strip text = []
    · simp [exceptOSError, bind, Except.bind, pure, Except.pure, blank]
    · simp [exceptOSError, bind, Except.bind, pure, Except.pure, blank]

theorem promptText_kept_iff {txt : Text} (returned : Returns (promptText rules d txt)) :
    (∃ prompt, promptText rules d txt = .ok (some prompt)) ↔ (rules.transcript = .required →
      ∃ text, d.readText txt = .ok text ∧ strip text ≠ []) := by
  obtain ⟨value, result⟩ := returned
  rw [result]
  unfold promptText at result
  cases rule : rules.transcript with
  | unused =>
    rw [rule] at result
    cases result
    simp
  | optional =>
    rw [rule] at result
    have kept : ∃ prompt, value = some prompt := by
      rcases whenThere_eq_ok.mp result with ⟨-, rfl⟩ | ⟨-, -, there⟩
      · exact ⟨none, rfl⟩
      · obtain ⟨text, -, rfl⟩ := map_eq_ok.mp there
        exact ⟨text, rfl⟩
    simpa using kept
  | required =>
    rw [rule] at result
    simp only [Except.ok.injEq, forall_const]
    constructor
    · rintro ⟨prompt, rfl⟩
      rcases whenThere_eq_ok.mp result with ⟨-, skipped⟩ | ⟨-, -, there⟩
      · cases skipped
      · obtain ⟨text, stripped, shown⟩ := map_eq_ok.mp there
        obtain ⟨text, rfl, -⟩ := Option.map_eq_some_iff.mp shown
        obtain ⟨whole, read, filled, -⟩ := strippedText_eq_some_iff.mp stripped
        exact ⟨whole, read, filled⟩
    · rintro ⟨text, read, filled⟩
      have contents : ∃ bytes, d.node txt = .file bytes := by
        by_contra unread
        rw [readText_noFile (by simpa using unread)] at read
        cases read
      obtain ⟨bytes, contents⟩ := contents
      have stripped := strippedText_eq_some_iff.mpr ⟨text, read, filled, rfl⟩
      rcases whenThere_eq_ok.mp result with ⟨missing, -⟩ | ⟨-, -, there⟩
      · rw [contents] at missing
        cases missing
      · rw [stripped] at there
        cases there
        exact ⟨_, rfl⟩

theorem returns_scanClip_iff :
    Returns (scanClip lib rules d wav) ↔
      ((parseName rules wav).isSome → Harmless lib rules d wav) := by
  unfold scanClip
  cases parsed : parseName rules wav with
  | none => simp [returns_ok]
  | some parts =>
    obtain ⟨voiceId, lang⟩ := parts
    simp only [Option.isSome_some, forall_const]
    rw [returns_bind_iff]
    constructor
    · rintro ⟨kept, read, rest⟩
      have returned : Returns (promptText rules d (withSuffix wav ".txt".toList)) := ⟨kept, read⟩
      refine ⟨returns_promptText_iff.mp returned, ?_⟩
      intro transcribed
      obtain ⟨prompt, same⟩ := (promptText_kept_iff returned).mpr transcribed
      rw [read] at same
      cases same
      obtain ⟨shown, sidecarRead, -⟩ := returns_bind_iff.mp rest
      exact returns_sidecar_iff.mp ⟨shown, sidecarRead⟩
    · intro harmless
      have returned := returns_promptText_iff.mpr harmless.transcript
      obtain ⟨kept, read⟩ := id returned
      refine ⟨kept, read, ?_⟩
      cases kept with
      | none => exact returns_ok none
      | some prompt =>
        have transcribed := (promptText_kept_iff returned).mp ⟨prompt, read⟩
        obtain ⟨shown, sidecarRead⟩ := returns_sidecar_iff.mpr (harmless.sidecar transcribed)
        exact returns_bind_iff.mpr ⟨shown, sidecarRead, returns_ok _⟩

theorem scanClip_kept {entry : VoiceEntry} (kept : scanClip lib rules d wav = .ok (some entry)) :
    ∃ lang, parseName rules wav = some (entry.voiceId, lang) ∧ entry.lang = rules.entryLang lang ∧
      entry.wavPath = some wav := by
  unfold scanClip at kept
  cases parsed : parseName rules wav with
  | none =>
    rw [parsed] at kept
    cases kept
  | some parts =>
    obtain ⟨voiceId, lang⟩ := parts
    rw [parsed] at kept
    obtain ⟨prompt, -, rest⟩ := bind_eq_ok.mp kept
    cases prompt with
    | none => cases rest
    | some prompt =>
      obtain ⟨shown, -, made⟩ := bind_eq_ok.mp rest
      cases made
      exact ⟨lang, rfl, rfl, rfl⟩

theorem scanClip_congr (agree : ∀ parts, parseName rules wav = some parts →
      ∀ suffix ∈ [".txt", ".toml"], d'.node (withSuffix wav suffix.toList) =
        d.node (withSuffix wav suffix.toList)) :
    scanClip lib rules d' wav = scanClip lib rules d wav := by
  unfold scanClip
  cases parsed : parseName rules wav with
  | none => rfl
  | some parts =>
    have both := agree parts parsed
    have txt := both ".txt" (by simp)
    have toml := both ".toml" (by simp)
    simp only [promptText, sidecar, Directory.whenThere, Directory.exists?, strippedText,
      Directory.readText, Directory.readBytes, txt, toml]

theorem mem_clips : wav ∈ d.clips ↔ wav ∈ d.names ∧ ".wav".toList <:+ wav := by
  rw [Directory.clips, (List.perm_insertionSort _ _).mem_iff, List.mem_filter, List.isSuffixOf_iff_suffix]

end

theorem append_clipFile {base base' : Text} {suffix suffix' : String} (mine : suffix ∈ clipFiles)
    (theirs : suffix' ∈ clipFiles) (same : base ++ suffix.toList = base' ++ suffix'.toList) :
    suffix = suffix' ∧ base = base' := by
  have last := congrArg List.getLast? same
  have agree : suffix = suffix' := by
    simp only [clipFiles, List.mem_cons, List.not_mem_nil, or_false] at mine theirs
    rcases mine with rfl | rfl | rfl <;> rcases theirs with rfl | rfl | rfl <;> simp at last ⊢
  subst agree
  exact ⟨rfl, List.append_cancel_right same⟩

section

variable {d d' : Directory} {voiceId lang : Text} (added : Adds d d' voiceId lang)

include added

theorem Adds.other {wav : Text} (clip : ".wav".toList <:+ wav)
    (different : wav ≠ voiceId ++ '.' :: lang ++ ".wav".toList) :
    (wav ∈ d'.names ↔ wav ∈ d.names) ∧ ∀ rules parts, parseName rules wav = some parts →
      ∀ suffix ∈ [".txt", ".toml"], d'.node (withSuffix wav suffix.toList) =
        d.node (withSuffix wav suffix.toList) := by
  obtain ⟨base, rfl⟩ := clip
  have apart : ∀ suffix ∈ clipFiles, ∀ other ∈ clipFiles,
      base ++ suffix.toList ≠ voiceId ++ '.' :: lang ++ other.toList := by
    intro suffix mine other theirs same
    obtain ⟨-, rfl⟩ := append_clipFile mine theirs same
    exact different rfl
  refine ⟨(added.others _ (apart ".wav" (by simp [clipFiles]))).1, ?_⟩
  rintro rules ⟨id', lang'⟩ parsed suffix mine
  obtain ⟨named, -⟩ := (parseName_eq_some_iff ⟨base, rfl⟩).mp parsed
  obtain rfl := List.append_cancel_right named
  rw [withSuffix_clip]
  exact (added.others _ (apart suffix (List.mem_cons_of_mem _ mine))).2

theorem Adds.clips :
    d'.clips.filter (· ≠ voiceId ++ '.' :: lang ++ ".wav".toList) = d.clips := by
  rw [Directory.clips, filter_insertionSort]
  apply insertionSort_congr
  rw [List.perm_ext_iff_of_nodup ((d'.distinct.filter _).filter _) (d.distinct.filter _)]
  intro wav
  simp only [List.mem_filter, List.isSuffixOf_iff_suffix, decide_eq_true_eq]
  constructor
  · rintro ⟨⟨member, clip⟩, different⟩
    exact ⟨(added.other clip different).1.mp member, clip⟩
  · rintro ⟨member, clip⟩
    have different : wav ≠ voiceId ++ '.' :: lang ++ ".wav".toList := by
      rintro rfl
      exact added.fresh member
    exact ⟨⟨(added.other clip different).1.mpr member, clip⟩, different⟩

end

/-- For every provider, every directory and every clip more, whatever its sidecar files hold: the scan
is not disturbed exactly when every clip with an accepted name is harmless. -/
theorem scanVoices_isolates_iff (p : Provider) (lib : PyLibrary) {d d' : Directory}
    {voiceId lang : Text} (added : Adds d d' voiceId lang) :
    Isolates p lib d d' (voiceId ++ '.' :: lang ++ ".wav".toList) ↔
      ∀ wav ∈ d'.clips, (parseName (p.rules lib) wav).isSome → Harmless lib (p.rules lib) d' wav := by
  have agree : ∀ wav ∈ d'.clips, wav ≠ voiceId ++ '.' :: lang ++ ".wav".toList →
      scanClip lib (p.rules lib) d' wav = scanClip lib (p.rules lib) d wav := by
    intro wav member different
    exact scanClip_congr ((added.other (mem_clips.mp member).2 different).2 _)
  constructor
  · rintro ⟨_, entries', -, scanned, -⟩ wav member
    exact returns_scanClip_iff.mp (returns_of_filterMapM scanned wav member)
  · intro harmless
    have each : ∀ wav ∈ d'.clips, Returns (scanClip lib (p.rules lib) d' wav) :=
      fun wav member => returns_scanClip_iff.mpr (harmless wav member)
    have before : ∀ wav ∈ d.clips, Returns (scanClip lib (p.rules lib) d wav) := by
      intro wav member
      rw [← added.clips] at member
      obtain ⟨inside, different⟩ := List.mem_filter.mp member
      rw [← agree wav inside (by simpa using different)]
      exact each wav inside
    refine ⟨_, _, filterMapM_of_returns before, filterMapM_of_returns each, ?_⟩
    rw [← added.clips]
    apply filter_filterMap_keeps
    · intro wav member different
      exact agree wav member (by simpa using different)
    · intro wav _ entry kept
      obtain ⟨_, -, -, path⟩ := scanClip_kept (eq_ok_of_mem_keeps kept)
      simp [path]

def Directory.ofFiles (files : List (String × Bytes))
    (distinct : (files.map fun file => file.1.toList).Nodup) : Directory where
  names := files.map fun file => file.1.toList
  distinct := distinct
  node name := ((files.find? fun file => file.1.toList = name).map fun file => .file file.2).getD .missing

def bobsClip : Directory :=
  .ofFiles [("bob.en.wav", []), ("bob.en.txt", [0x48, 0x69])] (by decide)

def alicesClipToo : Directory :=
  .ofFiles [("bob.en.wav", []), ("bob.en.txt", [0x48, 0x69]), ("alice.en.wav", []),
    ("alice.en.txt", [0xff])] (by decide)

def noTables : PyLibrary where
  Value := Unit
  loads _ := .decodeError
  truthy _ := true
  str _ := none
  title := id

theorem adds_alicesClip : Adds bobsClip alicesClipToo "alice".toList "en".toList where
  some_id := by decide
  primary := by decide
  fresh := by decide
  present := by decide
  others := by
    intro name apart
    have wav : name ≠ "alice.en.wav".toList := apart ".wav" (by decide)
    have txt : name ≠ "alice.en.txt".toList := apart ".txt" (by decide)
    simp only [alicesClipToo, bobsClip, Directory.ofFiles, List.map_cons, List.map_nil, List.mem_cons,
      List.find?_cons, List.find?_nil, wav, txt, wav.symm, txt.symm, decide_false]
    simp

theorem alicesClip_isolates_iff :
    Adds bobsClip alicesClipToo "alice".toList "en".toList ∧
      (Isolates .qwen3Tts noTables bobsClip alicesClipToo "alice.en.wav".toList ↔
        ∀ wav ∈ alicesClipToo.clips, (parseName Qwen3Tts.rules wav).isSome →
          Harmless noTables Qwen3Tts.rules alicesClipToo wav) :=
  ⟨adds_alicesClip, scanVoices_isolates_iff .qwen3Tts noTables adds_alicesClip⟩

theorem undecodable_transcript_disturbs :
    Adds bobsClip alicesClipToo "alice".toList "en".toList ∧
      ¬ Isolates .omnivoice noTables bobsClip alicesClipToo "alice.en.wav".toList := by
  refine ⟨adds_alicesClip, ?_⟩
  rintro ⟨_, _, -, scanned, -⟩
  have raised : Provider.omnivoice.scanVoices noTables (some alicesClipToo) =
      .error .unicodeDecodeError := by rfl
  rw [raised] at scanned
  cases scanned

end Cloning

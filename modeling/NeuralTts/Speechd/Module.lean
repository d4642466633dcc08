import NeuralTts.Daemon.Voices
import NeuralTts.Library.Dict

/-! The output module `sd-neural-tts`: the settings that speechd makes, and how the voices of the
daemon are listed to it. -/

namespace Speechd

open Daemon Library

/-- What the module takes from Python's strings and from langcodes. -/
structure Text where
  strip : String → String
  split : String → List String
  lower : String → String
  upper : String → String
  /-- `int(val)`; `none` is a `ValueError`. -/
  int : String → Option Int
  /-- `langcodes.Language.get(lang).simplify_script().to_tag()`; `none` is an exception. -/
  simplifyScript : String → Option String

structure ModuleState where
  voiceName : String := "af_heart"
  slotRequest : Option String := none
  explicitVoiceName : Bool := false
  rate : Int := 0
  pitch : Int := 0
  volume : Int := 0
  language : String := "en-us"
  ssmlMode : Bool := false
  voiceNameToId : Dict String String := ∅

/-- A line `200-name\tlang\tvariant` of LIST VOICES, with the voice that it was written for. -/
structure Row where
  name : String
  lang : String
  variant : String
  voiceId : String
deriving DecidableEq

structure Request where
  lang : Option String
  variant : Option String
deriving DecidableEq

/-- The variables of `cmd_list_voices` that its closures share, with the lines written so far. -/
structure Listing where
  written : List (String × String)
  usedNames : Dict String (List String)
  nameToId : Dict String String
  rows : List Row

section

variable (t : Text)

def normalizeLang (lang : String) : String :=
  if lang = "" ∨ lang = "none" then lang else (t.simplifyScript lang).getD lang

def stripScript (lang : String) : String :=
  if lang = "" then lang
  else
    match t.simplifyScript lang with
    | some tag => t.lower tag
    | none => t.lower lang

/-- `speechd` sends these when no voice override is set. -/
def Reserved (val : String) : Prop := val = "" ∨ t.lower val ∈ ["none", "null", ""]

instance (val : String) : Decidable (Reserved t val) := inferInstanceAs (Decidable (_ ∨ _))

def applySetting (var val : String) (s : ModuleState) : ModuleState :=
  if var = "rate" then { s with rate := (t.int val).getD s.rate }
  else if var = "pitch" then { s with pitch := (t.int val).getD s.pitch }
  else if var = "volume" then { s with volume := (t.int val).getD s.volume }
  else if var = "language" then
    { s with language := if stripScript t val = "" then "en-us" else stripScript t val }
  else if var = "synthesis_voice" then
    if Reserved t val then { s with explicitVoiceName := false }
    else { s with voiceName := (s.voiceNameToId.lookup val).getD val, explicitVoiceName := true }
  else if var = "voice" then { s with slotRequest := if val = "" then none else some (t.upper val) }
  else if var = "ssml_mode" then { s with ssmlMode := t.lower val ∈ ["on", "true", "1", "yes"] }
  else s

/-- `lang.split("-", 1)[0]` -/
def shortTag (lang : String) : String := String.ofList (lang.toList.takeWhile (· ≠ '-'))

def parseRequest (line : String) : Request :=
  let parts := t.split (t.strip line)
  ⟨parts[2]?, parts[3]?⟩

/-- Whether `_emit` lets a row through; a variant counts only where a language is asked for. -/
def admits (request : Request) (lang variant : String) : Bool :=
  match request.lang with
  | none => true
  | some requested =>
    requested = "" ||
      ((t.lower requested = t.lower lang || shortTag (t.lower requested) = shortTag (t.lower lang)) &&
        request.variant.all fun asked => asked = "" || t.lower asked = t.lower variant)

def emit (request : Request) (st : Listing) (name voiceId lang variant : String) : Listing :=
  if (name, lang) ∈ st.written then st
  else
    let st := { st with written := (name, lang) :: st.written }
    if admits t request lang variant then
      { st with nameToId := st.nameToId.set name voiceId, rows := st.rows ++ [⟨name, lang, variant, voiceId⟩] }
    else st

/-- `(voice.get("display_name") or voice["id"]).strip() or voice["id"]` -/
def baseName (v : Voice) : String :=
  let shown := if v.displayName.getD "" = "" then v.id else v.displayName.getD ""
  if t.strip shown = "" then v.id else t.strip shown

def pickDisplayName (st : Listing) (v : Voice) (lang : String) : String × Listing :=
  let used := (st.usedNames.lookup lang).getD []
  let candidate := if baseName t v ∈ used then v.id else baseName t v
  (candidate, { st with usedNames := st.usedNames.set lang (candidate :: used) })

def usLang : String := "en-US"

/-- The rows of a voice under one language, and under en-US where it is another kind of English. -/
def listLang (request : Request) (v : Voice) (st : Listing) (lang : String) : Listing :=
  let picked := pickDisplayName t st v lang
  let st := emit t request picked.2 picked.1 v.id lang "none"
  if "en-".toList.isPrefixOf (t.lower lang).toList && lang ≠ usLang then
    let us := pickDisplayName t st v usLang
    emit t request us.2 us.1 v.id usLang "none"
  else st

def langsOf (v : Voice) : List String :=
  let primary := if v.language = "" then "none" else normalizeLang t v.language
  let extras := (v.extraLanguages.filter (· ≠ "")).map (normalizeLang t)
  ((primary :: extras).filter (· ≠ "")).foldl (fun seen lang => if lang ∈ seen then seen else seen ++ [lang]) []

def listVoice (request : Request) (st : Listing) (v : Voice) : Listing :=
  (langsOf t v).foldl (listLang t request v) st

def listVoices (request : Request) (voices : List Voice) : Listing :=
  voices.foldl (listVoice t request) ⟨[], ∅, ∅, []⟩

/-- `cmd_list_voices`, with the list that the daemon answers: the state that it leaves, and the
rows that it writes. -/
def cmdListVoices (voices : List Voice) (line : String) (s : ModuleState) : ModuleState × List Row :=
  if voices = [] then (s, [])
  else
    let listed := listVoices t (parseRequest t line) voices
    ({ s with voiceNameToId := listed.nameToId }, listed.rows)

end

end Speechd

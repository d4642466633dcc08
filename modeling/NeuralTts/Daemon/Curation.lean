import NeuralTts.Library.Dict
import NeuralTts.Daemon.Voices

/-! What `enumerate_all_voices` does to a provider's list before it enters the index: the voice
allowlist, and the locale overrides with their shell patterns. -/

namespace Daemon

open Library

/-- A part of a pattern of `fnmatch`. -/
inductive Glob
  | star
  | one
  | set (negated : Bool) (items : List Char)
  | char (c : Char)
deriving DecidableEq

namespace Glob

def closeSet : List Char → Option (List Char × List Char)
  | [] => none
  | ']' :: rest => some ([], rest)
  | c :: rest => (closeSet rest).map fun (items, after) => (c :: items, after)

/-- A set after its opening bracket; a closing bracket that comes first stands for itself. -/
def readSet : List Char → Option (Glob × List Char)
  | '!' :: ']' :: rest => (closeSet rest).map fun (items, after) => (.set true (']' :: items), after)
  | '!' :: rest => (closeSet rest).map fun (items, after) => (.set true items, after)
  | ']' :: rest => (closeSet rest).map fun (items, after) => (.set false (']' :: items), after)
  | rest => (closeSet rest).map fun (items, after) => (.set false items, after)

def parse : Nat → List Char → List Glob
  | 0, _ | _, [] => []
  | fuel + 1, '*' :: rest => .star :: parse fuel rest
  | fuel + 1, '?' :: rest => .one :: parse fuel rest
  | fuel + 1, '[' :: rest =>
    match readSet rest with
    | some (items, after) => items :: parse fuel after
    | none => .char '[' :: parse fuel rest
  | fuel + 1, c :: rest => .char c :: parse fuel rest

def inSet (c : Char) : List Char → Bool
  | low :: '-' :: high :: rest => (low ≤ c && c ≤ high) || inSet c rest
  | item :: rest => item == c || inSet c rest
  | [] => false

def accepts : List Glob → List Char → Bool
  | [], name => name.isEmpty
  | .star :: rest, name => name.tails.any fun suffix => accepts rest suffix
  | .one :: rest, _ :: name => accepts rest name
  | .set negated items :: rest, c :: name => (negated != inSet c items) && accepts rest name
  | .char d :: rest, c :: name => d == c && accepts rest name
  | _ :: _, [] => false

end Glob

def fnmatchcase (name pattern : String) : Bool :=
  Glob.accepts (Glob.parse pattern.length pattern.toList) name.toList

example : fnmatchcase "af_sky.v2" "[!b-z]f_*.v?" = true := by decide

/-- The tag list of the first pattern that matches. -/
def matchLocaleOverride (voiceId : String) (entries : List (String × List String)) :
    Option (List String) :=
  (entries.find? fun entry => fnmatchcase voiceId entry.1).map Prod.snd

/-- The tables of the configuration, as `Supervisor.__init__` gets them. -/
structure Curation where
  voiceAllowlists : Dict String (List String)
  voiceLocaleOverrides : Dict String (List (String × List String))

namespace Curation

/-- Empty tags are dropped, and then the patterns that have none left. -/
def overridesFor (c : Curation) (provider : String) : List (String × List String) :=
  (((c.voiceLocaleOverrides.lookup provider).getD []).map fun (pattern, tags) =>
    (pattern, tags.filter (· ≠ ""))).filter fun entry => entry.2 ≠ []

/-- An empty allowlist filters nothing. -/
def allowed (c : Curation) (provider : String) (voices : List Voice) : List Voice :=
  match (c.voiceAllowlists.lookup provider).getD [] with
  | [] => voices
  | allow => voices.filter fun v => v.id ∈ allow

def relocate (overrides : List (String × List String)) (v : Voice) : Voice :=
  match matchLocaleOverride v.id overrides with
  | some (tag :: others) => { v with language := tag, extraLanguages := others }
  | some [] | none => v

def apply (c : Curation) (provider : String) (voices : List Voice) : List Voice :=
  (c.allowed provider voices).map (relocate (c.overridesFor provider))

end Curation

end Daemon

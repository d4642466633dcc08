import Mathlib.Data.String.Basic

/-! The daemon's voice record (`voices.py`) and its reading of the wire's `Voice` message. -/

namespace Daemon

inductive Gender
  | male
  | female
  | neutral
deriving DecidableEq, Repr

structure Voice where
  id : String
  language : String
  gender : Gender
  displayName : Option String := none
  extraLanguages : List String := []
deriving DecidableEq, Repr

/-- The wire's `Gender` enumeration; proto3 keeps a number it does not know. -/
inductive PbGender
  | unspecified
  | male
  | female
  | neutral
  | unrecognized (number : Nat)
deriving DecidableEq, Repr

structure PbVoice where
  id : String
  language : String
  gender : PbGender
  displayName : String
deriving DecidableEq, Repr

def genderFromPb : PbGender → Gender
  | .male => .male
  | .female => .female
  | .unspecified | .neutral | .unrecognized _ => .neutral

def voiceFromPb (v : PbVoice) : Voice where
  id := v.id
  language := v.language
  gender := genderFromPb v.gender
  displayName := if v.displayName = "" then none else some v.displayName

end Daemon

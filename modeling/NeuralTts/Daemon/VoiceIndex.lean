import Mathlib.Data.List.Sort
import NeuralTts.Library.Dict
import NeuralTts.Daemon.Voices

/-! The in-memory voice index (`voice_index.py`). -/

namespace Daemon

open Library

structure VoiceIndex where
  byProviderRaw : Dict String (List Voice)
  byProviderPublic : Dict String (List Voice)
  byPublicId : Dict String (String × String)

namespace VoiceIndex

def new : VoiceIndex := ⟨∅, ∅, ∅⟩

def sortedKeys {ν : Type} (d : Dict String ν) : List String := d.keys.insertionSort (· ≤ ·)

def countVoice (counts : String → Nat) (v : Voice) : String → Nat :=
  Function.update counts v.id (counts v.id + 1)

def idCounts (raw : Dict String (List Voice)) : String → Nat :=
  raw.values.foldl (fun counts voices => voices.foldl countVoice counts) fun _ => 0

def suffixed (id provider : String) : String := id ++ "." ++ provider

def publicVoice (counts : String → Nat) (provider : String) (v : Voice) : Voice :=
  if counts v.id > 1 then { v with id := suffixed v.id provider } else v

/-- The body of the inner loop: a public id that is already claimed is skipped. -/
def addVoice (counts : String → Nat) (provider : String)
    (acc : List Voice × Dict String (String × String)) (v : Voice) :
    List Voice × Dict String (String × String) :=
  if (publicVoice counts provider v).id ∈ acc.2 then acc
  else (acc.1 ++ [publicVoice counts provider v],
    acc.2.set (publicVoice counts provider v).id (provider, v.id))

def rawList (raw : Dict String (List Voice)) (provider : String) : List Voice :=
  (raw.lookup provider).getD []

def addProvider (raw : Dict String (List Voice)) (counts : String → Nat)
    (acc : Dict String (List Voice) × Dict String (String × String)) (provider : String) :
    Dict String (List Voice) × Dict String (String × String) :=
  let inner := (rawList raw provider).foldl (addVoice counts provider) ([], acc.2)
  (acc.1.set provider inner.1, inner.2)

def rebuild (raw : Dict String (List Voice)) : VoiceIndex :=
  let built := (sortedKeys raw).foldl (addProvider raw (idCounts raw)) (∅, ∅)
  ⟨raw, built.1, built.2⟩

def setProviderVoices (idx : VoiceIndex) (provider : String) (voices : List Voice) : VoiceIndex :=
  rebuild (idx.byProviderRaw.set provider voices)

def clear (_ : VoiceIndex) : VoiceIndex := ⟨∅, ∅, ∅⟩

def isEmpty (idx : VoiceIndex) : Bool := idx.byPublicId.entries.isEmpty

def voicesFor (idx : VoiceIndex) (provider : String) : List Voice :=
  (idx.byProviderPublic.lookup provider).getD []

def allVoices (idx : VoiceIndex) : List Voice :=
  (sortedKeys idx.byProviderPublic).flatMap idx.voicesFor

def providerFor (idx : VoiceIndex) (publicId : String) : Option String :=
  (idx.byPublicId.lookup publicId).map Prod.fst

/-- `local_id_for`: an id that is not in the index is returned unchanged. -/
def localIdFor (idx : VoiceIndex) (publicId : String) : String :=
  ((idx.byPublicId.lookup publicId).map Prod.snd).getD publicId

def knownProviders (idx : VoiceIndex) : List String := sortedKeys idx.byProviderRaw

end VoiceIndex

end Daemon

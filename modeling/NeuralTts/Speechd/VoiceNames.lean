import Mathlib.Data.List.DropRight
import Mathlib.Data.List.Induction
import NeuralTts.Speechd.Module

/-! Picking a voice by a name of LIST VOICES. -/

namespace Speechd

open Daemon Library

def everything : Request := ⟨none, none⟩

def nameMap (rows : List Row) : Dict String String :=
  rows.foldl (fun d row => d.set row.name row.voiceId) ∅

variable {t : Text} {request : Request} {st all : Listing} {voices : List Voice} {s : ModuleState}

structure Follows (t : Text) (request : Request) (st all : Listing) : Prop where
  written : st.written = all.written
  usedNames : st.usedNames = all.usedNames
  rows : st.rows = all.rows.filter fun row => admits t request row.lang row.variant
  nameToId : st.nameToId = nameMap st.rows

theorem Follows.emit (follows : Follows t request st all) (name voiceId lang variant : String) :
    Follows t request (emit t request st name voiceId lang variant)
      (emit t everything all name voiceId lang variant) := by
  obtain ⟨written, usedNames, rows, nameToId⟩ := follows
  have passes : admits t everything lang variant = true := rfl
  by_cases known : (name, lang) ∈ all.written
  · have also : (name, lang) ∈ st.written := written ▸ known
    simp only [Speechd.emit, if_pos known, if_pos also]
    exact ⟨written, usedNames, rows, nameToId⟩
  · have also : (name, lang) ∉ st.written := written ▸ known
    simp only [Speechd.emit, if_neg known, if_neg also, passes, if_true]
    by_cases admitted : admits t request lang variant = true
    · rw [if_pos admitted]
      refine ⟨by rw [written], usedNames, ?_, ?_⟩
      · simp [List.filter_append, rows, admitted]
      · rw [nameMap, List.foldl_append, ← nameMap, ← nameToId]
        rfl
    · rw [if_neg admitted]
      refine ⟨by rw [written], usedNames, ?_, nameToId⟩
      simp [List.filter_append, rows, admitted]

theorem Follows.pickDisplayName (follows : Follows t request st all) (v : Voice) (lang : String) :
    (pickDisplayName t st v lang).1 = (pickDisplayName t all v lang).1 ∧
      Follows t request (pickDisplayName t st v lang).2 (pickDisplayName t all v lang).2 := by
  obtain ⟨written, usedNames, rows, nameToId⟩ := follows
  unfold Speechd.pickDisplayName
  rw [usedNames]
  exact ⟨rfl, written, rfl, rows, nameToId⟩

theorem Follows.listLang (follows : Follows t request st all) (v : Voice) (lang : String) :
    Follows t request (listLang t request v st lang) (listLang t everything v all lang) := by
  obtain ⟨name, picked⟩ := follows.pickDisplayName v lang
  have emitted := picked.emit (Speechd.pickDisplayName t all v lang).1 v.id lang "none"
  unfold Speechd.listLang
  dsimp only
  rw [name]
  split
  · obtain ⟨usName, usPicked⟩ := emitted.pickDisplayName v usLang
    rw [usName]
    exact usPicked.emit _ v.id usLang "none"
  · exact emitted

theorem Follows.listVoice (follows : Follows t request st all) (v : Voice) :
    Follows t request (listVoice t request st v) (listVoice t everything all v) :=
  List.foldl_rel follows fun lang _ _ _ followed => followed.listLang v lang

/-- A filter only leaves rows out: which names the voices get does not depend on it. -/
theorem follows_listVoices (t : Text) (request : Request) (voices : List Voice) :
    Follows t request (listVoices t request voices) (listVoices t everything voices) := by
  have start : Follows t request ⟨[], ∅, ∅, []⟩ ⟨[], ∅, ∅, []⟩ := ⟨rfl, rfl, rfl, rfl⟩
  exact List.foldl_rel start fun v _ _ _ followed => followed.listVoice v

theorem mem_rows_listVoices {row : Row} :
    row ∈ (listVoices t request voices).rows ↔
      row ∈ (listVoices t everything voices).rows ∧ admits t request row.lang row.variant = true := by
  rw [(follows_listVoices t request voices).rows, List.mem_filter]

theorem lookup_nameToId (t : Text) (request : Request) (voices : List Voice) (name : String) :
    (listVoices t request voices).nameToId.lookup name =
      ((listVoices t request voices).rows.reverse.find? fun row => row.name = name).map Row.voiceId := by
  rw [(follows_listVoices t request voices).nameToId, nameMap, Dict.lookup_foldl_set]
  exact Option.or_none

theorem lookup_of_unambiguous {row : Row} (listed : row ∈ (listVoices t request voices).rows)
    (unambiguous : ∀ other ∈ (listVoices t request voices).rows,
      other.name = row.name → other.voiceId = row.voiceId) :
    (listVoices t request voices).nameToId.lookup row.name = some row.voiceId := by
  rw [lookup_nameToId]
  cases found : (listVoices t request voices).rows.reverse.find? fun other => other.name = row.name with
  | none =>
    have absent := List.find?_eq_none.mp found row (List.mem_reverse.mpr listed)
    exact absurd (decide_eq_true rfl) absent
  | some other =>
    have same : other.name = row.name := by simpa using List.find?_some found
    have member := List.mem_reverse.mp (List.mem_of_find?_eq_some found)
    rw [Option.map_some, unambiguous other member same]

theorem lookup_of_unlisted {name : String}
    (unlisted : ∀ other ∈ (listVoices t request voices).rows, other.name ≠ name) :
    (listVoices t request voices).nameToId.lookup name = none := by
  rw [lookup_nameToId, Option.map_eq_none_iff, List.find?_eq_none]
  intro other member
  simpa using unlisted other (List.mem_reverse.mp member)

def listAll (t : Text) (voices : List Voice) (s : ModuleState) (lines : List String) : ModuleState × List Row :=
  lines.foldl (fun acc line =>
    let listed := cmdListVoices t voices line acc.1
    (listed.1, acc.2 ++ listed.2)) (s, [])

/-- SET synthesis_voice by the name of any row picks the voice of that row. -/
def Selects (t : Text) (voices : List Voice) (s : ModuleState) (lines : List String) : Prop :=
  ∀ row ∈ (listAll t voices s lines).2,
    let chosen := applySetting t "synthesis_voice" row.name (listAll t voices s lines).1
    chosen.voiceName = row.voiceId ∧ chosen.explicitVoiceName = true

theorem cmdListVoices_rows {line : String} (some_voice : voices ≠ []) :
    (cmdListVoices t voices line s).2 = (listVoices t (parseRequest t line) voices).rows := by
  rw [cmdListVoices, if_neg some_voice]

theorem mem_of_mem_listAll {lines : List String} {row : Row} (some_voice : voices ≠ [])
    (written : row ∈ (listAll t voices s lines).2) : row ∈ (listVoices t everything voices).rows := by
  induction lines using List.reverseRecOn with
  | nil => cases written
  | append_singleton lines line ih =>
    rw [listAll, List.foldl_append] at written
    rcases List.mem_append.mp written with before | last
    · exact ih before
    · rw [cmdListVoices_rows some_voice] at last
      exact (mem_rows_listVoices.mp last).1

theorem applySetting_synthesisVoice (val : String) (s : ModuleState) :
    applySetting t "synthesis_voice" val s =
      if Reserved t val then { s with explicitVoiceName := false }
      else { s with voiceName := (s.voiceNameToId.lookup val).getD val, explicitVoiceName := true } := by
  simp [applySetting]

theorem listAll_concat (lines : List String) (last : String) (some_voice : voices ≠ []) :
    (listAll t voices s (lines ++ [last])).1.voiceNameToId =
      (listVoices t (parseRequest t last) voices).nameToId := by
  rw [listAll, List.foldl_append, List.foldl_cons, List.foldl_nil]
  simp only [cmdListVoices, if_neg some_voice]

theorem listAll_nil (lines : List String) : (listAll t [] s lines).2 = [] := by
  induction lines using List.reverseRecOn with
  | nil => rfl
  | append_singleton lines line ih =>
    rw [listAll, List.foldl_append] at *
    simp [cmdListVoices]

/-- After a session, a name of any of its rows that the last listing lets through, and that it
writes for no other voice, picks the voice of the row; `none`, `null` and the empty name undo a
choice; and a name that the last listing does not write is taken for an id. -/
theorem set_after_listings (t : Text) (voices : List Voice) (s : ModuleState) (lines : List String)
    (last : String) :
    (∀ row ∈ (listAll t voices s (lines ++ [last])).2,
      admits t (parseRequest t last) row.lang row.variant = true → ¬Reserved t row.name →
      (∀ other ∈ (cmdListVoices t voices last (listAll t voices s lines).1).2,
        other.name = row.name → other.voiceId = row.voiceId) →
      let chosen := applySetting t "synthesis_voice" row.name (listAll t voices s (lines ++ [last])).1
      chosen.voiceName = row.voiceId ∧ chosen.explicitVoiceName = true) ∧
    (∀ name, Reserved t name →
      let before := (listAll t voices s (lines ++ [last])).1
      let chosen := applySetting t "synthesis_voice" name before
      chosen.voiceName = before.voiceName ∧ chosen.explicitVoiceName = false) ∧
    ∀ name, voices ≠ [] → ¬Reserved t name →
      (∀ other ∈ (cmdListVoices t voices last (listAll t voices s lines).1).2, other.name ≠ name) →
      let chosen := applySetting t "synthesis_voice" name (listAll t voices s (lines ++ [last])).1
      chosen.voiceName = name ∧ chosen.explicitVoiceName = true := by
  refine ⟨?_, ?_, ?_⟩
  · intro row written passes free unambiguous
    have some_voice : voices ≠ [] := by
      rintro rfl
      rw [listAll_nil] at written
      cases written
    have listed := mem_rows_listVoices.mpr ⟨mem_of_mem_listAll some_voice written, passes⟩
    rw [cmdListVoices_rows some_voice] at unambiguous
    have found := lookup_of_unambiguous listed unambiguous
    simp [applySetting_synthesisVoice, free, listAll_concat lines last some_voice, found]
  · intro name reserved
    simp [applySetting_synthesisVoice, reserved]
  · intro name some_voice free unlisted
    rw [cmdListVoices_rows some_voice] at unlisted
    have missing := lookup_of_unlisted unlisted
    simp [applySetting_synthesisVoice, free, listAll_concat lines last some_voice, missing]

def ascii : Text where
  strip text := String.ofList ((text.toList.dropWhile Char.isWhitespace).rdropWhile Char.isWhitespace)
  split text := ((text.toList.splitOnP Char.isWhitespace).filter (· ≠ [])).map String.ofList
  lower text := String.ofList (text.toList.map Char.toLower)
  upper text := String.ofList (text.toList.map Char.toUpper)
  int := String.toInt?
  simplifyScript := some

def amyAndNone : List Voice :=
  [⟨"amy.piper", "en-GB", .female, some "Amy", []⟩, ⟨"silent", "fr-FR", .neutral, some "None", []⟩]

def twoAmys : List Voice :=
  [⟨"amy.piper", "en-GB", .female, some "Amy", []⟩, ⟨"amy.coqui", "fr-FR", .female, some "Amy", []⟩]

/-- A listing of the French voices forgets Amy; the name of the silent voice is reserved; and of
two voices called Amy the one listed last is picked. -/
theorem listings_miss_choices :
    ((amyAndNone.map Voice.id).Nodup ∧ (twoAmys.map Voice.id).Nodup) ∧
      ¬Selects ascii amyAndNone {} ["LIST VOICES\n", "LIST VOICES fr\n"] ∧
      ¬Selects ascii amyAndNone {} ["LIST VOICES\n"] ∧ ¬Selects ascii twoAmys {} ["LIST VOICES\n"] := by
  refine ⟨by decide, ?_, ?_, ?_⟩
  · intro selects
    exact absurd (selects ⟨"Amy", "en-GB", "none", "amy.piper"⟩ (by decide)) (by decide)
  · intro selects
    exact absurd (selects ⟨"None", "fr-FR", "none", "silent"⟩ (by decide)) (by decide)
  · intro selects
    exact absurd (selects ⟨"Amy", "en-GB", "none", "amy.piper"⟩ (by decide)) (by decide)

theorem session_sets_amy :
    let after := (listAll ascii amyAndNone {} ["LIST VOICES fr\n", "LIST VOICES\n"]).1
    (applySetting ascii "synthesis_voice" "Amy" after).voiceName = "amy.piper" ∧
      (applySetting ascii "synthesis_voice" "None" after).explicitVoiceName = false ∧
      (applySetting ascii "synthesis_voice" "amy.piper" after).voiceName = "amy.piper" := by
  obtain ⟨picks, undoes, takes⟩ :=
    set_after_listings ascii amyAndNone {} ["LIST VOICES fr\n"] "LIST VOICES\n"
  have amy := picks ⟨"Amy", "en-GB", "none", "amy.piper"⟩ (by decide) (by decide) (by decide) (by decide)
  have undone := undoes "None" (by decide)
  have taken := takes "amy.piper" (by decide) (by decide) (by decide)
  exact ⟨amy.1, undone.2, taken.1⟩

end Speechd

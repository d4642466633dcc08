import NeuralTts.Library.PyLines
import Mathlib.Data.List.Infix

/-! How the installer patches the user's `speechd.conf` (`patch_speechd_conf`). -/

namespace Scripts

open Library PyText

abbrev Text := List Char

def beforeBinary : Text := "AddModule \"neural-tts\" \"".toList

def afterBinary : Text := "\" \"neural-tts.conf\"".toList

def addModuleLine (binary : Text) : Text := beforeBinary ++ binary ++ afterBinary

def legacyAddModuleLine : Text :=
  "AddModule \"neural-tts-generic\" \"sd_generic\" \"neural-tts-generic.conf\"".toList

def marker : Text := "# Added by neural-tts-daemon installer".toList

/-- The loop that drops the legacy line; `skipNextBlank` is that the last line was dropped. -/
def dropLegacy (skipNextBlank : Bool) : List Text → List Text
  | [] => []
  | line :: rest =>
    if strip line = legacyAddModuleLine then dropLegacy true rest
    else if strip line = marker then dropLegacy true rest
    else if skipNextBlank ∧ strip line = [] then dropLegacy false rest
    else line :: dropLegacy false rest

def cleaned (text : Text) : Text := rstrip (joinLines (dropLegacy false (splitlines text))) ++ ['\n']

def addition (binary : Text) : Text := '\n' :: (marker ++ '\n' :: (addModuleLine binary ++ ['\n']))

/-- `patch_speechd_conf` from the first `read_text` on: the characters in the file before and
after, and the answer to the prompt. -/
def patched (binary : Text) (confirmed : Bool) (file : Text) : Text :=
  let text := newlines file
  let legacy := legacyAddModuleLine <:+: text
  let file := if legacy then cleaned text else file
  let text := if legacy then cleaned text else text
  if addModuleLine binary <:+: text then file
  else if confirmed then file ++ addition binary
  else file

structure SpeechdConfs where
  user : Option Text
  system : Option Text
deriving DecidableEq

/-- `patch_speechd_conf`; `none` is that it dies, when there is no file to start from. -/
def patchSpeechdConf (binary : Text) (confirmed : Bool) (confs : SpeechdConfs) : Option SpeechdConfs :=
  match confs.user, confs.system with
  | some file, _ => some { confs with user := some (patched binary confirmed file) }
  | none, some system => some { confs with user := some (patched binary confirmed (newlines system)) }
  | none, none => none

def addModule : Text := "AddModule".toList

def moduleName : Text := "\"neural-tts\"".toList

/-- A line of the file that adds a module of this name: it is not a comment. -/
def Active (line : Text) : Bool := (split line).take 2 = [addModule, moduleName]

/-- A line that is neither blank nor one that the installer writes, now or as it once did. -/
def Other (line : Text) : Bool :=
  strip line ≠ [] ∧ Active line = false ∧ strip line ≠ legacyAddModuleLine ∧ strip line ≠ marker

/-- What the installer promises of the file that it leaves. -/
structure Converged (binary before after : Text) : Prop where
  one : ∃ line, (splitlines after).filter Active = [line] ∧ strip line = addModuleLine binary
  kept : (splitlines after).filter Other = (splitlines before).filter Other
  again : patched binary true after = after

example : patched "/x".toList true "a\n".toList =
    "a\n\n# Added by neural-tts-daemon installer\nAddModule \"neural-tts\" \"/x\" \"neural-tts.conf\"\n".toList := by
  decide +kernel

theorem texts :
    (∀ text ∈ [legacyAddModuleLine, marker, beforeBinary, afterBinary], text.any isLineBreak = false) ∧
      (∀ text ∈ [legacyAddModuleLine, marker, addModule], text ≠ [] ∧ lstrip text = text) ∧
      (∀ text ∈ [legacyAddModuleLine, marker, afterBinary], text ≠ [] ∧ rstrip text = text) ∧
      (¬legacyAddModuleLine <:+: marker ∧ ¬beforeBinary <:+: legacyAddModuleLine ∧ ¬beforeBinary <:+: marker) ∧
      (Active legacyAddModuleLine = false ∧ Active marker = false) ∧
      (beforeBinary = addModule ++ ' ' :: (moduleName ++ ' ' :: ['"']) ∧
        split addModule = [addModule] ∧ split moduleName = [moduleName]) := by
  decide +kernel

theorem texts_unbroken :
    ∀ text ∈ [legacyAddModuleLine, marker, beforeBinary, afterBinary], text.any isLineBreak = false := texts.1

theorem texts_lstrip : ∀ text ∈ [legacyAddModuleLine, marker, addModule], text ≠ [] ∧ lstrip text = text :=
  texts.2.1

theorem texts_rstrip : ∀ text ∈ [legacyAddModuleLine, marker, afterBinary], text ≠ [] ∧ rstrip text = text :=
  texts.2.2.1

theorem legacy_infix_marker : ¬legacyAddModuleLine <:+: marker := texts.2.2.2.1.1

theorem beforeBinary_infix_legacy : ¬beforeBinary <:+: legacyAddModuleLine := texts.2.2.2.1.2.1

theorem beforeBinary_infix_marker : ¬beforeBinary <:+: marker := texts.2.2.2.1.2.2

theorem texts_inactive : Active legacyAddModuleLine = false ∧ Active marker = false := texts.2.2.2.2.1

theorem beforeBinary_words : beforeBinary = addModule ++ ' ' :: (moduleName ++ ' ' :: ['"']) := texts.2.2.2.2.2.1

theorem words_split : split addModule = [addModule] ∧ split moduleName = [moduleName] := texts.2.2.2.2.2.2

theorem unbroken_text : ∀ text ∈ [legacyAddModuleLine, marker, beforeBinary, afterBinary], Unbroken text := by
  intro text member c inside
  simpa using List.any_eq_false.mp (texts_unbroken text member) c inside

theorem legacy_unbroken : Unbroken legacyAddModuleLine := unbroken_text _ (by simp)

theorem marker_unbroken : Unbroken marker := unbroken_text _ (by simp)

theorem legacy_filled : legacyAddModuleLine ≠ [] := (texts_lstrip _ List.mem_cons_self).1

theorem marker_filled : marker ≠ [] := (texts_lstrip marker (by simp)).1

theorem strip_marker : strip marker = marker := by
  rw [strip_eq, (texts_lstrip marker (by simp)).2, (texts_rstrip marker (by simp)).2]

theorem legacy_lstrip : lstrip legacyAddModuleLine = legacyAddModuleLine := (texts_lstrip _ List.mem_cons_self).2

theorem legacy_rstrip : rstrip legacyAddModuleLine = legacyAddModuleLine := (texts_rstrip _ List.mem_cons_self).2

section

variable {binary file text line : Text} {lines : List Text} {skipNextBlank : Bool}

theorem addModuleLine_words (binary : Text) :
    addModuleLine binary = addModule ++ ' ' :: (moduleName ++ ' ' :: ('"' :: (binary ++ afterBinary))) := by
  rw [addModuleLine, beforeBinary_words]
  simp only [List.append_assoc, List.cons_append, List.nil_append]

theorem addModuleLine_filled : addModuleLine binary ≠ [] := by
  rw [addModuleLine_words]
  exact List.append_ne_nil_of_right_ne_nil _ (List.cons_ne_nil _ _)

theorem addModuleLine_lstrip : lstrip (addModuleLine binary) = addModuleLine binary := by
  obtain ⟨filled, solid⟩ := texts_lstrip addModule (by simp)
  rw [addModuleLine_words, lstrip_append, solid, if_neg filled]

theorem addModuleLine_rstrip : rstrip (addModuleLine binary) = addModuleLine binary := by
  obtain ⟨filled, solid⟩ := texts_rstrip afterBinary (by simp)
  rw [addModuleLine, rstrip_append, solid, if_neg filled]

theorem addModuleLine_strip : strip (addModuleLine binary) = addModuleLine binary := by
  rw [strip_eq, addModuleLine_lstrip, addModuleLine_rstrip]

theorem addModuleLine_unbroken : Unbroken (addModuleLine binary) ↔ Unbroken binary := by
  have start := unbroken_text beforeBinary (by simp)
  have last := unbroken_text afterBinary (by simp)
  rw [Unbroken, addModuleLine, List.forall_mem_append, List.forall_mem_append]
  exact ⟨fun whole => whole.1.2, fun whole => ⟨⟨start, whole⟩, last⟩⟩

theorem active_addModuleLine : Active (addModuleLine binary) = true := by
  obtain ⟨first, second⟩ := words_split
  rw [Active, addModuleLine_words, split_append_space isSpace_space, split_append_space isSpace_space, first, second]
  exact decide_eq_true rfl

theorem beforeBinary_isInfix : beforeBinary <:+: addModuleLine binary := by
  rw [addModuleLine, List.append_assoc]
  exact ⟨[], _, rfl⟩

theorem addModuleLine_infix_legacy : ¬addModuleLine binary <:+: legacyAddModuleLine :=
  fun inside => beforeBinary_infix_legacy (beforeBinary_isInfix.trans inside)

theorem addModuleLine_infix_marker : ¬addModuleLine binary <:+: marker :=
  fun inside => beforeBinary_infix_marker (beforeBinary_isInfix.trans inside)

theorem active_rstrip (line : Text) : Active (rstrip line) = Active line := by
  rw [Active, Active, split_rstrip]

theorem other_rstrip (line : Text) : Other (rstrip line) = Other line := by
  rw [Other, Other, strip_rstrip, active_rstrip]

theorem active_blank (blank : rstrip line = []) : Active line = false := by
  rw [← active_rstrip, blank, Active, split_nil]
  rfl

theorem other_blank (blank : rstrip line = []) : Other line = false :=
  decide_eq_false fun other => other.1 (strip_eq_nil_iff.mpr blank)

/-- The lines that the loop may drop. -/
def Dropped (line : Text) : Prop := strip line = legacyAddModuleLine ∨ strip line = marker

theorem not_dropped_nil : ¬Dropped [] := by
  rintro (same | same)
  · exact legacy_filled same.symm
  · exact marker_filled same.symm

theorem active_dropped (dropped : Dropped line) : Active line = false := by
  have shown : Active line = Active (strip line) := by rw [Active, Active, split_strip]
  rw [shown]
  rcases dropped with same | same
  · rw [same]
    exact texts_inactive.1
  · rw [same]
    exact texts_inactive.2

theorem other_dropped (dropped : Dropped line) : Other line = false := by
  refine decide_eq_false fun other => ?_
  rcases dropped with same | same
  · exact other.2.2.1 same
  · exact other.2.2.2 same

theorem filter_dropLegacy (skipNextBlank : Bool) (lines : List Text) {keep : Text → Bool} (blank : ∀ line, rstrip line = [] → keep line = false)
    (dropped : ∀ line, Dropped line → keep line = false) :
    (dropLegacy skipNextBlank lines).filter keep = lines.filter keep := by
  induction lines generalizing skipNextBlank with
  | nil => rfl
  | cons line rest ih =>
    rw [dropLegacy]
    split
    · rename_i legacy
      rw [ih, List.filter_cons, dropped line (.inl legacy)]
      rfl
    · split
      · rename_i marked
        rw [ih, List.filter_cons, dropped line (.inr marked)]
        rfl
      · split
        · rename_i skips
          rw [ih, List.filter_cons, blank line (strip_eq_nil_iff.mp skips.2)]
          rfl
        · rw [List.filter_cons, List.filter_cons, ih]

theorem not_dropped_of_mem_dropLegacy (member : line ∈ dropLegacy skipNextBlank lines) :
    ¬Dropped line ∧ line ∈ lines := by
  induction lines generalizing skipNextBlank with
  | nil => cases member
  | cons first rest ih =>
    rw [dropLegacy] at member
    split at member
    · exact ⟨(ih member).1, List.mem_cons_of_mem _ (ih member).2⟩
    · split at member
      · exact ⟨(ih member).1, List.mem_cons_of_mem _ (ih member).2⟩
      · split at member
        · exact ⟨(ih member).1, List.mem_cons_of_mem _ (ih member).2⟩
        · rename_i plain unmarked _
          rcases List.mem_cons.mp member with rfl | later
          · exact ⟨fun dropped => dropped.elim plain unmarked, List.mem_cons_self⟩
          · exact ⟨(ih later).1, List.mem_cons_of_mem _ (ih later).2⟩

theorem dropLegacy_append (none : ∀ line ∈ lines, ¬Dropped line) (more : List Text) :
    dropLegacy false (lines ++ more) = lines ++ dropLegacy false more := by
  induction lines with
  | nil => rfl
  | cons line rest ih =>
    have plain := none line List.mem_cons_self
    rw [List.cons_append, dropLegacy, if_neg fun legacy => plain (.inl legacy),
      if_neg fun marked => plain (.inr marked), if_neg (by simp),
      ih fun line member => none line (List.mem_cons_of_mem _ member), List.cons_append]

theorem dropLegacy_of_not_dropped (none : ∀ line ∈ lines, ¬Dropped line) : dropLegacy false lines = lines := by
  have whole := dropLegacy_append none []
  rwa [dropLegacy, List.append_nil] at whole

theorem unbroken_dropLegacy : ∀ line ∈ dropLegacy skipNextBlank (splitlines text), Unbroken line :=
  fun _ member => unbroken_of_mem_splitlines (not_dropped_of_mem_dropLegacy member).2

theorem splitlines_cleaned (text : Text) :
    splitlines (cleaned text) = settled (dropLegacy false (splitlines text)) :=
  splitlines_rstrip_joinLines unbroken_dropLegacy

theorem cleaned_cleaned (text : Text) : cleaned (cleaned text) = cleaned text := by
  have kept : dropLegacy false (settled (dropLegacy false (splitlines text))) =
      settled (dropLegacy false (splitlines text)) := by
    refine dropLegacy_of_not_dropped fun line member dropped => ?_
    rcases mem_settled member with rfl | ⟨longer, there, same⟩
    · exact not_dropped_nil dropped
    · refine (not_dropped_of_mem_dropLegacy there).1 ?_
      rcases same with rfl | rfl
      · exact dropped
      · rwa [Dropped, strip_rstrip] at dropped
  rw [cleaned, splitlines_cleaned, kept, rstrip_joinLines_settled, cleaned]

theorem newlines_cleaned (text : Text) : newlines (cleaned text) = cleaned text := by
  refine newlines_of_notMem fun member => ?_
  rw [cleaned, List.mem_append] at member
  rcases member with inside | last
  · rcases mem_joinLines ((rstrip_isPrefix _).subset inside) with newline | ⟨line, there, within⟩
    · cases newline
    · cases unbroken_dropLegacy line there '\r' within
  · cases List.mem_singleton.mp last

/-- The file once the legacy line is dropped from it, where that is done. -/
def withoutLegacy (file : Text) : Text :=
  if legacyAddModuleLine <:+: newlines file then cleaned (newlines file) else file

theorem patched_eq (binary file : Text) : patched binary true file =
    if addModuleLine binary <:+: newlines (withoutLegacy file) then withoutLegacy file
    else withoutLegacy file ++ addition binary := by
  rw [patched, withoutLegacy]
  split
  · rw [newlines_cleaned]
    rfl
  · rfl

theorem withoutLegacy_withoutLegacy (file : Text) : withoutLegacy (withoutLegacy file) = withoutLegacy file := by
  by_cases legacy : legacyAddModuleLine <:+: newlines file
  · have first : withoutLegacy file = cleaned (newlines file) := if_pos legacy
    rw [first, withoutLegacy, newlines_cleaned, cleaned_cleaned, ite_self]
  · have first : withoutLegacy file = file := if_neg legacy
    rw [first, first]

theorem infix_newlines {needle : Text} (filled : needle ≠ []) (unbroken : Unbroken needle) :
    needle <:+: newlines file ↔ ∃ line ∈ splitlines file, needle <:+: line := by
  rw [infix_iff_splitlines filled unbroken, splitlines_newlines]

theorem map_filter_withoutLegacy (file : Text) {keep : Text → Bool}
    (blank : ∀ line, rstrip line = [] → keep line = false) (ends : ∀ line, keep (rstrip line) = keep line)
    (dropped : ∀ line, Dropped line → keep line = false) :
    ((splitlines (withoutLegacy file)).filter keep).map strip = ((splitlines file).filter keep).map strip := by
  rw [withoutLegacy]
  split
  · rw [splitlines_cleaned, filter_settled (blank [] rfl), map_filter_trimmed blank ends strip_rstrip,
      filter_dropLegacy false _ blank dropped, splitlines_newlines]
  · rfl

/-- What a line holds that is not dropped is in the file after exactly when it was before. -/
theorem exists_line_withoutLegacy (file : Text) {holds : Text → Prop} [DecidablePred holds]
    (blank : ∀ line, rstrip line = [] → ¬holds line) (ends : ∀ line, holds (rstrip line) ↔ holds line)
    (dropped : ∀ line, Dropped line → ¬holds line) :
    (∃ line ∈ splitlines (withoutLegacy file), holds line) ↔ ∃ line ∈ splitlines file, holds line := by
  have same := congrArg List.length (map_filter_withoutLegacy file
    (fun line empty => decide_eq_false (blank line empty)) (fun line => decide_eq_decide.mpr (ends line))
    (fun line gone => decide_eq_false (dropped line gone)))
  have counts (lines : List Text) : (∃ line ∈ lines, holds line) ↔ 0 < (lines.filter fun line => holds line).length := by
    simp [List.length_filter_pos_iff]
  rw [counts, counts, ← List.length_map strip, same, List.length_map]

theorem addModuleLine_withoutLegacy :
    (∃ line ∈ splitlines (withoutLegacy file), addModuleLine binary <:+: line) ↔
      ∃ line ∈ splitlines file, addModuleLine binary <:+: line := by
  have within (line : Text) : addModuleLine binary <:+: strip line ↔ addModuleLine binary <:+: line :=
    infix_strip addModuleLine_filled addModuleLine_lstrip addModuleLine_rstrip
  refine exists_line_withoutLegacy file ?_ ?_ ?_
  · intro line blank inside
    rw [← within, strip_eq_nil_iff.mpr blank, List.infix_nil] at inside
    exact addModuleLine_filled inside
  · exact fun line => infix_rstrip addModuleLine_filled addModuleLine_rstrip
  · intro line dropped inside
    rw [← within] at inside
    rcases dropped with same | same
    · exact addModuleLine_infix_legacy (same ▸ inside)
    · exact addModuleLine_infix_marker (same ▸ inside)

theorem not_dropped_withoutLegacy (legacy : legacyAddModuleLine <:+: newlines file)
    (member : line ∈ splitlines (withoutLegacy file)) : ¬Dropped line := by
  rw [withoutLegacy, if_pos legacy, splitlines_cleaned] at member
  rcases mem_settled member with rfl | ⟨longer, there, rfl | rfl⟩
  · exact not_dropped_nil
  · exact (not_dropped_of_mem_dropLegacy there).1
  · rw [Dropped, strip_rstrip]
    exact (not_dropped_of_mem_dropLegacy there).1

theorem strip_ne_legacy (member : line ∈ splitlines (withoutLegacy file)) : strip line ≠ legacyAddModuleLine := by
  by_cases legacy : legacyAddModuleLine <:+: newlines file
  · exact fun same => not_dropped_withoutLegacy legacy member (.inl same)
  · intro same
    rw [withoutLegacy, if_neg legacy] at member
    rw [infix_newlines legacy_filled legacy_unbroken] at legacy
    have inside : legacyAddModuleLine <:+: strip line := by simp only [same, List.infix_rfl]
    exact legacy ⟨line, member, (infix_strip legacy_filled legacy_lstrip legacy_rstrip).mp inside⟩

theorem legacy_withoutLegacy (file : Text) :
    (∃ line ∈ splitlines (withoutLegacy file), legacyAddModuleLine <:+: line) ↔
      ∃ line ∈ splitlines file, legacyAddModuleLine <:+: line ∧ strip line ≠ legacyAddModuleLine := by
  have within (line : Text) : legacyAddModuleLine <:+: strip line ↔ legacyAddModuleLine <:+: line :=
    infix_strip legacy_filled legacy_lstrip legacy_rstrip
  have kept : (∃ line ∈ splitlines (withoutLegacy file),
      legacyAddModuleLine <:+: line ∧ strip line ≠ legacyAddModuleLine) ↔ ∃ line ∈ splitlines file,
      legacyAddModuleLine <:+: line ∧ strip line ≠ legacyAddModuleLine := by
    refine exists_line_withoutLegacy file ?_ ?_ ?_
    · rintro line blank ⟨inside, -⟩
      rw [← within, strip_eq_nil_iff.mpr blank, List.infix_nil] at inside
      exact legacy_filled inside
    · intro line
      rw [infix_rstrip legacy_filled legacy_rstrip, strip_rstrip]
    · rintro line (same | same) ⟨inside, other⟩
      · exact other same
      · rw [← within, same] at inside
        exact legacy_infix_marker inside
  rw [← kept]
  constructor
  · rintro ⟨line, member, inside⟩
    exact ⟨line, member, inside, strip_ne_legacy member⟩
  · rintro ⟨line, member, inside, -⟩
    exact ⟨line, member, inside⟩

theorem splitlines_addition (unbroken : Unbroken binary) (file : Text) :
    ∃ blank : List Text, (∀ line ∈ blank, line = []) ∧
      splitlines (file ++ addition binary) = splitlines file ++ blank ++ [marker, addModuleLine binary] := by
  obtain ⟨blank, empty, same⟩ :=
    splitlines_append_newline file (marker ++ '\n' :: (addModuleLine binary ++ ['\n']))
  refine ⟨blank, empty, ?_⟩
  rw [addition, same, splitlines_line marker_unbroken, splitlines_line (addModuleLine_unbroken.mpr unbroken), splitlines]

theorem filter_addition (unbroken : Unbroken binary) (file : Text) {keep : Text → Bool} (blank : keep [] = false)
    (marked : keep marker = false) : (splitlines (file ++ addition binary)).filter keep =
      (splitlines file).filter keep ++ [addModuleLine binary].filter keep := by
  obtain ⟨empty, nothing, same⟩ := splitlines_addition unbroken file
  have none : empty.filter keep = [] := by
    rw [List.filter_eq_nil_iff]
    intro line member
    rw [nothing line member, blank]
    exact Bool.false_ne_true
  rw [same, List.filter_append, List.filter_append, none, List.append_nil, List.filter_cons, marked,
    if_neg Bool.false_ne_true]

theorem one_iff {lines : List Text} {add : Text} :
    (∃ line, lines.filter Active = [line] ∧ strip line = add) ↔ (lines.filter Active).map strip = [add] :=
  List.map_eq_singleton_iff.symm

def Kept (line : Text) : Bool := strip line ≠ [] ∧ ¬(strip line = legacyAddModuleLine ∨ strip line = marker)

structure Convergent (binary file : Text) : Prop where
  unbroken : Unbroken binary
  one : (∃ line, (splitlines file).filter Active = [line] ∧ strip line = addModuleLine binary) ∨
    (splitlines file).filter Active = [] ∧ (∀ line ∈ splitlines file, ¬addModuleLine binary <:+: line) ∧
      ¬legacyAddModuleLine <:+: addModuleLine binary ∧
      ∀ line ∈ splitlines file, legacyAddModuleLine <:+: line → strip line = legacyAddModuleLine
  ends : (∃ line ∈ splitlines file, legacyAddModuleLine <:+: line) →
    ∀ last ∈ ((splitlines file).filter Kept).getLast?, Other last → rstrip last = last

theorem kept_blank (blank : rstrip line = []) : Kept line = false :=
  decide_eq_false fun kept => kept.1 (strip_eq_nil_iff.mpr blank)

theorem kept_dropped (dropped : Dropped line) : Kept line = false := decide_eq_false fun kept => kept.2 dropped

theorem kept_iff (plain : ¬Dropped line) : Kept line = decide (rstrip line ≠ []) := by
  refine decide_eq_decide.mpr ?_
  rw [Ne, strip_eq_nil_iff]
  exact and_iff_left plain

/-- The lines that are not the installer's stay as they are unless the last loses its end. -/
theorem others_withoutLegacy_iff :
    (splitlines (withoutLegacy file)).filter Other = (splitlines file).filter Other ↔
      ((∃ line ∈ splitlines file, legacyAddModuleLine <:+: line) →
        ∀ last ∈ ((splitlines file).filter Kept).getLast?, Other last → rstrip last = last) := by
  rw [← infix_newlines legacy_filled legacy_unbroken, withoutLegacy]
  split
  · rename_i legacy
    have visible : (dropLegacy false (splitlines file)).filter (rstrip · ≠ []) = (splitlines file).filter Kept := by
      rw [← filter_dropLegacy false _ (fun _ => kept_blank) fun _ => kept_dropped]
      exact List.filter_congr fun line member => (kept_iff (not_dropped_of_mem_dropLegacy member).1).symm
    have others := filter_dropLegacy false (splitlines file) (fun _ => other_blank) fun _ => other_dropped
    rw [splitlines_cleaned, filter_settled (other_blank rfl), splitlines_newlines, ← others,
      filter_trimmed_iff (fun _ => other_blank) other_rstrip, visible]
    exact ⟨fun ends _ => ends, fun ends => ends legacy⟩
  · rename_i absent
    exact ⟨fun _ there => absurd there absent, fun _ => rfl⟩

theorem again_of_present (present : addModuleLine binary <:+: newlines (withoutLegacy file)) :
    patched binary true (withoutLegacy file) = withoutLegacy file := by
  rw [patched_eq, withoutLegacy_withoutLegacy, if_pos present]

/-- The second run finds the line, and rewrites the file if there is still a legacy line in it. -/
theorem again_addition_iff (unbroken : Unbroken binary) (file : Text) :
    patched binary true (file ++ addition binary) = file ++ addition binary ↔
      (∀ line ∈ splitlines file, ¬legacyAddModuleLine <:+: line) ∧ ¬legacyAddModuleLine <:+: addModuleLine binary := by
  obtain ⟨blank, empty, same⟩ := splitlines_addition unbroken file
  have legacyLine : (∃ line ∈ splitlines (file ++ addition binary), legacyAddModuleLine <:+: line) ↔
      (∃ line ∈ splitlines file, legacyAddModuleLine <:+: line) ∨ legacyAddModuleLine <:+: addModuleLine binary := by
    rw [same]
    constructor
    · rintro ⟨line, member, inside⟩
      rw [List.mem_append, List.mem_append, List.mem_cons, List.mem_singleton] at member
      rcases member with (earlier | nothing) | rfl | rfl
      · exact .inl ⟨line, earlier, inside⟩
      · rw [empty line nothing, List.infix_nil] at inside
        exact absurd inside legacy_filled
      · exact absurd inside legacy_infix_marker
      · exact .inr inside
    · rintro (⟨line, member, inside⟩ | inside)
      · exact ⟨line, by simp [member], inside⟩
      · exact ⟨addModuleLine binary, by simp, inside⟩
  have present : addModuleLine binary <:+: newlines (withoutLegacy (file ++ addition binary)) := by
    rw [infix_newlines addModuleLine_filled (addModuleLine_unbroken.mpr unbroken), addModuleLine_withoutLegacy, same]
    exact ⟨addModuleLine binary, by simp, List.infix_rfl⟩
  rw [patched_eq, if_pos present]
  constructor
  · intro unchanged
    have plain : ¬legacyAddModuleLine <:+: newlines (file ++ addition binary) := by
      intro legacy
      have member : marker ∈ splitlines (withoutLegacy (file ++ addition binary)) := by
        rw [unchanged, same]
        simp
      exact not_dropped_withoutLegacy legacy member (.inr strip_marker)
    rw [infix_newlines legacy_filled legacy_unbroken, legacyLine, not_or] at plain
    exact ⟨fun line member inside => plain.1 ⟨line, member, inside⟩, plain.2⟩
  · rintro ⟨plain, apart⟩
    refine if_neg fun legacy => ?_
    rw [infix_newlines legacy_filled legacy_unbroken, legacyLine] at legacy
    rcases legacy with ⟨line, member, inside⟩ | inside
    · exact plain line member inside
    · exact apart inside

theorem unbroken_of_one {after : Text}
    (one : ∃ line, (splitlines after).filter Active = [line] ∧ strip line = addModuleLine binary) :
    Unbroken binary := by
  obtain ⟨line, only, same⟩ := one
  have member : line ∈ (splitlines after).filter Active := by rw [only]; exact List.mem_cons_self
  have whole := unbroken_of_mem_splitlines (List.mem_of_mem_filter member)
  rw [← addModuleLine_unbroken, ← same]
  exact fun c inside => whole c (strip_isInfix line |>.subset inside)

theorem actives_withoutLegacy (file : Text) :
    ((splitlines (withoutLegacy file)).filter Active).map strip = ((splitlines file).filter Active).map strip :=
  map_filter_withoutLegacy file (fun _ => active_blank) active_rstrip fun _ => active_dropped

theorem one_addition_iff (unbroken : Unbroken binary) (file : Text) :
    (∃ line, (splitlines (withoutLegacy file ++ addition binary)).filter Active = [line] ∧
      strip line = addModuleLine binary) ↔ (splitlines file).filter Active = [] := by
  have added : [addModuleLine binary].filter Active = [addModuleLine binary] :=
    List.filter_eq_self.mpr fun line member => by rw [List.mem_singleton.mp member, active_addModuleLine]
  rw [one_iff, filter_addition unbroken _ (active_blank rfl) (active_dropped (.inr strip_marker)), added,
    List.map_append, actives_withoutLegacy, List.map_singleton, addModuleLine_strip]
  simp

theorem patched_converges_iff (binary file : Text) :
    Converged binary file (patched binary true file) ↔ Convergent binary file := by
  have actives := actives_withoutLegacy file
  rw [patched_eq]
  split
  · rename_i present
    constructor
    · rintro ⟨one, kept, -⟩
      refine ⟨unbroken_of_one one, .inl ?_, others_withoutLegacy_iff.mp kept⟩
      rwa [one_iff, ← actives, ← one_iff]
    · rintro ⟨unbroken, one | ⟨-, absent, -⟩, ends⟩
      · refine ⟨?_, others_withoutLegacy_iff.mpr ends, again_of_present present⟩
        rwa [one_iff, actives, ← one_iff]
      · rw [infix_newlines addModuleLine_filled (addModuleLine_unbroken.mpr unbroken),
          addModuleLine_withoutLegacy] at present
        obtain ⟨line, member, inside⟩ := present
        exact absurd inside (absent line member)
  · rename_i missing
    have others (unbroken : Unbroken binary) :
        (splitlines (withoutLegacy file ++ addition binary)).filter Other =
          (splitlines (withoutLegacy file)).filter Other := by
      have none : [addModuleLine binary].filter Other = [] := by
        simp [Other, active_addModuleLine]
      rw [filter_addition unbroken _ (other_blank rfl) (other_dropped (.inr strip_marker)), none, List.append_nil]
    have absent (unbroken : Unbroken binary) : ∀ line ∈ splitlines file, ¬addModuleLine binary <:+: line := by
      rw [infix_newlines addModuleLine_filled (addModuleLine_unbroken.mpr unbroken),
        addModuleLine_withoutLegacy] at missing
      exact fun line member inside => missing ⟨line, member, inside⟩
    have legacyLines : (∀ line ∈ splitlines (withoutLegacy file), ¬legacyAddModuleLine <:+: line) ↔
        ∀ line ∈ splitlines file, legacyAddModuleLine <:+: line → strip line = legacyAddModuleLine := by
      have same := not_congr (legacy_withoutLegacy file)
      simpa only [not_exists, not_and, not_not, Ne] using same
    constructor
    · rintro ⟨one, kept, again⟩
      have unbroken := unbroken_of_one one
      obtain ⟨plain, apart⟩ := (again_addition_iff unbroken _).mp again
      refine ⟨unbroken, .inr ⟨(one_addition_iff unbroken file).mp one, absent unbroken, apart, legacyLines.mp plain⟩, ?_⟩
      rw [others unbroken] at kept
      exact others_withoutLegacy_iff.mp kept
    · rintro ⟨unbroken, ⟨line, only, same⟩ | ⟨none, -, apart, plain⟩, ends⟩
      · have member : line ∈ splitlines file := by
          refine List.mem_of_mem_filter (p := Active) ?_
          rw [only]
          exact List.mem_cons_self
        refine absurd ?_ (absent unbroken line member)
        rw [← same]
        exact strip_isInfix line
      · refine ⟨(one_addition_iff unbroken file).mpr none, ?_, ?_⟩
        · rw [others unbroken]
          exact others_withoutLegacy_iff.mpr ends
        · exact (again_addition_iff unbroken _).mpr ⟨legacyLines.mpr plain, apart⟩

/-- When the installer, run on this `speechd.conf` and confirmed, leaves it as it promises. -/
theorem patchSpeechdConf_converges_iff (binary file : Text) (system : Option Text) :
    (∃ after, patchSpeechdConf binary true ⟨some file, system⟩ = some ⟨some after, system⟩ ∧
      Converged binary file after) ↔ Convergent binary file := by
  rw [← patched_converges_iff]
  constructor
  · rintro ⟨after, ran, converged⟩
    cases ran
    exact converged
  · exact fun converged => ⟨_, rfl, converged⟩

/-- After the checkout has moved, the line of the old one stays beside the new one. -/
theorem movedCheckout_twice :
    ∃ after, patchSpeechdConf "/new/sd".toList true ⟨some (addModuleLine "/old/sd".toList ++ ['\n']), none⟩ =
        some ⟨some after, none⟩ ∧
      ((splitlines after).filter Active).length = 2 ∧
      ¬Converged "/new/sd".toList (addModuleLine "/old/sd".toList ++ ['\n']) after := by
  have two : ((splitlines (patched "/new/sd".toList true (addModuleLine "/old/sd".toList ++ ['\n']))).filter
      Active).length = 2 := by decide +kernel
  refine ⟨_, rfl, two, fun converged => ?_⟩
  obtain ⟨line, only, -⟩ := converged.one
  rw [only] at two
  cases two

end

end Scripts

import NeuralTts.Scripts.Install

/-! How the uninstaller takes the module out of the user's `speechd.conf` again. -/

namespace Scripts

open Library PyText

def confName : Text := "\"neural-tts.conf\"".toList

/-- The native-module form of the line, whatever the checkout. -/
def Native (s : Text) : Bool := beforeBinary.isPrefixOf s && confName.isSuffixOf s

def candidateAddModuleLines (text : Text) : List Text :=
  legacyAddModuleLine :: ((splitlines text).map strip).filter Native

/-- The loop of `main` over the lines; `skipNextBlank` is that the last line was dropped. -/
def dropTargets (targets : List Text) (skipNextBlank : Bool) : List Text → List Text
  | [] => []
  | line :: rest =>
    if targets.contains (strip line) then dropTargets targets true rest
    else if strip line = marker then dropTargets targets true rest
    else if skipNextBlank ∧ strip line = [] then dropTargets targets false rest
    else line :: dropTargets targets false rest

/-- What `main` makes of the file, for this answer to the prompt. -/
def uninstalled (confirmed : Bool) (file : Text) : Text :=
  let text := newlines file
  let targets := candidateAddModuleLines text
  if (∃ target ∈ targets, target <:+: text) ∧ confirmed then
    rstrip (joinLines (dropTargets targets false (splitlines text))) ++ ['\n']
  else file

/-- A line that adds the module, from this checkout or another, now or as it once was. -/
def Adds (line : Text) : Bool := strip line = legacyAddModuleLine ∨ Native (strip line)

/-- A line that is neither blank nor one that the installer writes, from whatever checkout. -/
def Foreign (line : Text) : Bool := strip line ≠ [] ∧ Adds line = false ∧ strip line ≠ marker

/-- What the uninstaller owes: every line that adds the module is gone, every foreign line is kept
but for blanks at its end, and a second run finds nothing to do. -/
structure Removed (before after : Text) : Prop where
  gone : ∀ line ∈ splitlines after, Adds line = false
  kept : ((splitlines after).filter Foreign).map rstrip = ((splitlines before).filter Foreign).map rstrip
  again : uninstalled true after = after

def tidied (file : Text) : Text := rstrip (joinLines (splitlines file)) ++ ['\n']

/-- A file that holds nothing of the installer, and not the line that it is about to add. -/
structure Free (binary file : Text) : Prop where
  legacy : ¬legacyAddModuleLine <:+: newlines file
  adds : ∀ line ∈ splitlines file, Adds line = false
  marker : ∀ line ∈ splitlines file, strip line ≠ marker
  own : ¬addModuleLine binary <:+: newlines file

def installedFrom (binaries : List Text) (file : Text) : Text :=
  binaries.foldl (fun file binary => patched binary true file) file

section

variable {binary file text line : Text} {lines targets : List Text} {skipNextBlank : Bool}

theorem adds_rstrip (line : Text) : Adds (rstrip line) = Adds line := by
  rw [Adds, Adds, strip_rstrip]

theorem adds_blank (blank : rstrip line = []) : Adds line = false := by
  rw [← adds_rstrip, blank]
  decide

theorem foreign_rstrip (line : Text) : Foreign (rstrip line) = Foreign line := by
  rw [Foreign, Foreign, strip_rstrip, adds_rstrip]

theorem foreign_blank (blank : rstrip line = []) : Foreign line = false :=
  decide_eq_false fun foreign => foreign.1 (strip_eq_nil_iff.mpr blank)

theorem native_addModuleLine (binary : Text) : Native (addModuleLine binary) = true := by
  have last : afterBinary = '"' :: ' ' :: confName := by decide
  have whole : addModuleLine binary = beforeBinary ++ binary ++ ['"', ' '] ++ confName := by
    rw [addModuleLine, last]
    simp only [List.append_assoc, List.cons_append, List.nil_append]
  have starts : beforeBinary <+: addModuleLine binary := by
    rw [addModuleLine, List.append_assoc]
    exact List.prefix_append _ _
  have ends : confName <:+ addModuleLine binary := by
    rw [whole]
    exact List.suffix_append _ _
  rw [Native, List.isPrefixOf_iff_prefix.mpr starts, List.isSuffixOf_iff_suffix.mpr ends]
  rfl

theorem adds_addModuleLine (binary : Text) : Adds (addModuleLine binary) = true := by
  apply decide_eq_true
  right
  rw [addModuleLine_strip]
  exact native_addModuleLine binary

theorem mem_candidateAddModuleLines (member : line ∈ splitlines text) :
    strip line ∈ candidateAddModuleLines text ↔ Adds line = true := by
  rw [Adds, decide_eq_true_eq, candidateAddModuleLines, List.mem_cons, List.mem_filter, List.mem_map]
  apply or_congr_right
  apply and_iff_right
  exact ⟨line, member, rfl⟩

theorem exists_candidate_iff : (∃ target ∈ candidateAddModuleLines text, target <:+: text) ↔
    legacyAddModuleLine <:+: text ∨ ∃ line ∈ splitlines text, Native (strip line) = true := by
  constructor
  · rintro ⟨target, member, inside⟩
    rw [candidateAddModuleLines, List.mem_cons, List.mem_filter, List.mem_map] at member
    rcases member with rfl | ⟨⟨line, there, rfl⟩, native⟩
    · exact .inl inside
    · exact .inr ⟨line, there, native⟩
  · rintro (inside | ⟨line, member, native⟩)
    · exact ⟨legacyAddModuleLine, List.mem_cons_self, inside⟩
    · have target : Adds line = true := decide_eq_true (.inr native)
      exact ⟨strip line, (mem_candidateAddModuleLines member).mpr target,
        (strip_isInfix line).trans (infix_of_mem_splitlines member)⟩

theorem filter_dropTargets (skipNextBlank : Bool) (lines : List Text) {keep : Text → Bool}
    (blank : ∀ line ∈ lines, strip line = [] → keep line = false)
    (target : ∀ line ∈ lines, strip line ∈ targets → keep line = false)
    (marked : ∀ line ∈ lines, strip line = marker → keep line = false) :
    (dropTargets targets skipNextBlank lines).filter keep = lines.filter keep := by
  induction lines generalizing skipNextBlank with
  | nil => rfl
  | cons line rest ih =>
    rw [List.forall_mem_cons] at blank target marked
    have later (skips : Bool) := ih skips blank.2 target.2 marked.2
    rw [dropTargets, List.filter_cons]
    simp only [List.contains_iff_mem]
    split
    · rename_i hit
      rw [later, target.1 hit]
      rfl
    · split
      · rename_i hit
        rw [later, marked.1 hit]
        rfl
      · split
        · rename_i skips
          rw [later, blank.1 skips.2]
          rfl
        · rw [List.filter_cons, later]

theorem of_mem_dropTargets (member : line ∈ dropTargets targets skipNextBlank lines) :
    line ∈ lines ∧ strip line ∉ targets ∧ strip line ≠ marker := by
  induction lines generalizing skipNextBlank with
  | nil => cases member
  | cons first rest ih =>
    have later {skips : Bool} (member : line ∈ dropTargets targets skips rest) :
        line ∈ first :: rest ∧ strip line ∉ targets ∧ strip line ≠ marker :=
      (ih member).imp_left (List.mem_cons_of_mem first)
    simp only [dropTargets, List.contains_iff_mem] at member
    split at member
    · exact later member
    · split at member
      · exact later member
      · split at member
        · exact later member
        · rename_i kept unmarked _
          rcases List.mem_cons.mp member with rfl | member
          · exact ⟨List.mem_cons_self, kept, unmarked⟩
          · exact later member

theorem dropTargets_keeps (targets : List Text) (kept : ∀ line ∈ lines, strip line ∉ targets)
    (unmarked : ∀ line ∈ lines, strip line ≠ marker) (more : List Text) :
    dropTargets targets false (lines ++ more) = lines ++ dropTargets targets false more := by
  induction lines with
  | nil => rfl
  | cons line rest ih =>
    rw [List.forall_mem_cons] at kept unmarked
    rw [List.cons_append, dropTargets, if_neg (mt List.contains_iff_mem.mp kept.1), if_neg unmarked.1,
      if_neg (by simp), ih kept.2 unmarked.2, List.cons_append]

/-- Of lines that are all blank or to be dropped, blanks are all that may be left. -/
theorem blank_of_mem_dropTargets
    (all : ∀ line ∈ lines, strip line = [] ∨ strip line ∈ targets ∨ strip line = marker)
    (member : line ∈ dropTargets targets skipNextBlank lines) : strip line = [] := by
  obtain ⟨there, kept, unmarked⟩ := of_mem_dropTargets member
  rcases all line there with blank | target | marked
  · exact blank
  · exact absurd target kept
  · exact absurd marked unmarked

def swept (file : Text) : Text :=
  rstrip (joinLines (dropTargets (candidateAddModuleLines file) false (splitlines file))) ++ ['\n']

theorem uninstalled_eq (file : Text) : uninstalled true file =
    if legacyAddModuleLine <:+: newlines file ∨ ∃ line ∈ splitlines file, Native (strip line) = true then
      swept file
    else file := by
  have same : candidateAddModuleLines (newlines file) = candidateAddModuleLines file := by
    rw [candidateAddModuleLines, candidateAddModuleLines, splitlines_newlines]
  have found := @exists_candidate_iff (newlines file)
  rw [splitlines_newlines, same] at found
  simp only [uninstalled, found, and_true, same, splitlines_newlines, swept]

theorem splitlines_swept (file : Text) : splitlines (swept file) =
    settled (dropTargets (candidateAddModuleLines file) false (splitlines file)) := by
  apply splitlines_rstrip_joinLines
  exact fun line member => unbroken_of_mem_splitlines (of_mem_dropTargets member).1

theorem swept_drops (member : line ∈ splitlines (swept file)) : Adds line = false ∧ strip line ≠ marker := by
  have kept {longer : Text}
      (there : longer ∈ dropTargets (candidateAddModuleLines file) false (splitlines file)) :
      Adds longer = false ∧ strip longer ≠ marker := by
    obtain ⟨before, untargeted, unmarked⟩ := of_mem_dropTargets there
    rw [mem_candidateAddModuleLines before, Bool.not_eq_true] at untargeted
    exact ⟨untargeted, unmarked⟩
  rw [splitlines_swept] at member
  rcases mem_settled member with rfl | ⟨longer, there, rfl | rfl⟩
  · exact ⟨adds_blank rfl, fun same => marker_filled same.symm⟩
  · exact kept there
  · rw [adds_rstrip, strip_rstrip]
    exact kept there

theorem swept_swept (file : Text) : swept (swept file) = swept file := by
  have untargeted : ∀ line ∈ splitlines (swept file), strip line ∉ candidateAddModuleLines (swept file) := by
    intro line member
    rw [mem_candidateAddModuleLines member, (swept_drops member).1]
    exact Bool.false_ne_true
  have whole := dropTargets_keeps _ untargeted (fun line member => (swept_drops member).2) []
  rw [List.append_nil, dropTargets, List.append_nil] at whole
  have once : swept (swept file) = rstrip (joinLines (splitlines (swept file))) ++ ['\n'] := by
    rw [swept, whole]
  rw [once, splitlines_swept, rstrip_joinLines_settled, swept]

theorem foreign_swept (file : Text) : ((splitlines (swept file)).filter Foreign).map rstrip =
    ((splitlines file).filter Foreign).map rstrip := by
  rw [splitlines_swept, filter_settled (foreign_blank rfl),
    map_filter_trimmed (fun _ => foreign_blank) foreign_rstrip rstrip_rstrip, filter_dropTargets]
  · intro line _ blank
    exact foreign_blank (strip_eq_nil_iff.mp blank)
  · intro line member target
    rw [mem_candidateAddModuleLines member] at target
    simp [Foreign, target]
  · intro line _ marked
    simp [Foreign, marked]

/-- Whatever is in the file, the uninstaller removes what it owes and nothing else. -/
theorem uninstalled_removes (file : Text) : Removed file (uninstalled true file) := by
  by_cases found :
      legacyAddModuleLine <:+: newlines file ∨ ∃ line ∈ splitlines file, Native (strip line) = true
  · have written : uninstalled true file = swept file := by rw [uninstalled_eq, if_pos found]
    rw [written]
    refine ⟨fun line member => (swept_drops member).1, foreign_swept file, ?_⟩
    rw [uninstalled_eq, swept_swept, ite_self]
  · have left : uninstalled true file = file := by rw [uninstalled_eq, if_neg found]
    rw [left]
    refine ⟨?_, rfl, left⟩
    intro line member
    rw [not_or] at found
    apply decide_eq_false
    rintro (legacy | native)
    · apply found.1
      rw [infix_newlines legacy_filled legacy_unbroken]
      exact ⟨line, member, legacy ▸ strip_isInfix line⟩
    · exact found.2 ⟨line, member, native⟩

def Written (line : Text) : Prop := line = [] ∨ line = marker ∨ ∃ binary, line = addModuleLine binary

/-- The lines of the file come first, and then only what installers wrote, with a line for the module. -/
def Grown (file after : Text) : Prop :=
  ∃ more, splitlines after = splitlines file ++ more ∧ (∀ line ∈ more, Written line) ∧
    ∃ binary, addModuleLine binary ∈ more

theorem written_rstrip (written : Written line) : Written (rstrip line) := by
  rcases written with rfl | rfl | ⟨binary, rfl⟩
  · exact .inl rfl
  · rw [(texts_rstrip marker (by simp)).2]
    exact .inr (.inl rfl)
  · rw [addModuleLine_rstrip]
    exact .inr (.inr ⟨binary, rfl⟩)

/-- What an installer appends to a file that is as it was or that others have appended to. -/
theorem grown_addition {after : Text} {more : List Text} (unbroken : Unbroken binary)
    (lines : splitlines after = splitlines file ++ more) (written : ∀ line ∈ more, Written line) :
    Grown file (after ++ addition binary) := by
  obtain ⟨blank, empty, added⟩ := splitlines_addition unbroken after
  refine ⟨more ++ blank ++ [marker, addModuleLine binary], ?_, ?_, binary, ?_⟩
  · rw [added, lines]
    simp only [List.append_assoc]
  · simp only [List.forall_mem_append, List.forall_mem_cons]
    exact ⟨⟨written, fun line member => .inl (empty line member)⟩, .inr (.inl rfl),
      .inr (.inr ⟨binary, rfl⟩), nofun⟩
  · simp

theorem not_dropped_addModuleLine : ¬Dropped (addModuleLine binary) := by
  intro dropped
  rw [Dropped, addModuleLine_strip] at dropped
  rcases dropped with legacy | marked
  · exact addModuleLine_infix_legacy (show addModuleLine binary <:+: legacyAddModuleLine by rw [legacy])
  · exact addModuleLine_infix_marker (show addModuleLine binary <:+: marker by rw [marked])

theorem mem_dropLegacy (kept : Kept line = true) (member : line ∈ lines) : line ∈ dropLegacy skipNextBlank lines := by
  have same := filter_dropLegacy skipNextBlank lines (fun _ => kept_blank) fun _ => kept_dropped
  have there : line ∈ lines.filter Kept := List.mem_filter.mpr ⟨member, kept⟩
  rw [← same] at there
  exact List.mem_of_mem_filter there

/-- Where the path of a checkout holds the legacy line, what is dropped is none of the file's own lines. -/
theorem Grown.withoutLegacy {after : Text} (grown : Grown file after)
    (plain : ∀ line ∈ splitlines file, ¬Dropped line) : Grown file (withoutLegacy after) := by
  obtain ⟨more, lines, written, binary, member⟩ := grown
  rw [Scripts.withoutLegacy]
  split
  · have filled : strip (addModuleLine binary) ≠ [] := by
      rw [addModuleLine_strip]
      exact addModuleLine_filled
    have kept : Kept (addModuleLine binary) = true := decide_eq_true ⟨filled, not_dropped_addModuleLine⟩
    have stays : addModuleLine binary ∈ dropLegacy false more := mem_dropLegacy kept member
    have visible : trimmed (dropLegacy false more) ≠ [] :=
      fun none => filled (strip_eq_nil_iff.mpr (trimmed_eq_nil.mp none _ stays))
    have whole : splitlines (cleaned (newlines after)) = splitlines file ++ trimmed (dropLegacy false more) := by
      rw [splitlines_cleaned, splitlines_newlines, lines, dropLegacy_append plain, settled,
        trimmed_append visible, if_neg (List.append_ne_nil_of_right_ne_nil _ visible)]
    refine ⟨_, whole, ?_, binary, mem_trimmed_of_solid addModuleLine_rstrip addModuleLine_filled stays⟩
    · intro line inside
      obtain ⟨longer, there, same⟩ := mem_trimmed inside
      have before := written longer (not_dropped_of_mem_dropLegacy there).2
      rcases same with rfl | rfl
      · exact before
      · exact written_rstrip before
  · exact ⟨more, lines, written, binary, member⟩

theorem Grown.patched {after : Text} (grown : Grown file after) (unbroken : Unbroken binary)
    (plain : ∀ line ∈ splitlines file, ¬Dropped line) : Grown file (patched binary true after) := by
  rw [patched_eq]
  split
  · exact grown.withoutLegacy plain
  · obtain ⟨more, lines, written, -⟩ := grown.withoutLegacy plain
    exact grown_addition unbroken lines written

theorem Grown.uninstalled {after : Text} (grown : Grown file after)
    (adds : ∀ line ∈ splitlines file, Adds line = false)
    (unmarked : ∀ line ∈ splitlines file, strip line ≠ marker) : uninstalled true after = tidied file := by
  obtain ⟨more, lines, written, binary, member⟩ := grown
  have added : ∃ line ∈ splitlines after, Native (strip line) = true := by
    refine ⟨addModuleLine binary, ?_, ?_⟩
    · rw [lines]
      exact List.mem_append_right _ member
    · rw [addModuleLine_strip]
      exact native_addModuleLine binary
  have untargeted : ∀ line ∈ splitlines file, strip line ∉ candidateAddModuleLines after := by
    intro line member
    rw [mem_candidateAddModuleLines (by rw [lines]; exact List.mem_append_left _ member), adds line member]
    exact Bool.false_ne_true
  have dropped : ∀ line ∈ more,
      strip line = [] ∨ strip line ∈ candidateAddModuleLines after ∨ strip line = marker := by
    intro line member
    rcases written line member with rfl | rfl | ⟨binary, rfl⟩
    · exact .inl rfl
    · exact .inr (.inr strip_marker)
    · right
      left
      rw [mem_candidateAddModuleLines (by rw [lines]; exact List.mem_append_right _ member)]
      exact adds_addModuleLine binary
  rw [uninstalled_eq, if_pos (.inr added), swept, lines, dropTargets_keeps _ untargeted unmarked,
    rstrip_joinLines_append_blank, tidied]
  intro line member
  exact strip_eq_nil_iff.mp (blank_of_mem_dropTargets dropped member)

theorem grown_installedFrom {after : Text} (binaries : List Text) (unbroken : ∀ binary ∈ binaries, Unbroken binary)
    (grown : Grown file after) (plain : ∀ line ∈ splitlines file, ¬Dropped line) :
    Grown file (installedFrom binaries after) := by
  induction binaries generalizing after with
  | nil => exact grown
  | cons binary rest ih =>
    rw [List.forall_mem_cons] at unbroken
    exact ih unbroken.2 (grown.patched unbroken.1 plain)

/-- However often the installer ran and from whatever checkouts, the uninstaller leaves the file as
it was before, with its line ends made plain and the blanks at its end off. -/
theorem uninstalled_installedFrom (binary : Text) (others : List Text) (file : Text)
    (unbroken : ∀ one ∈ binary :: others, Unbroken one) (free : Free binary file) :
    uninstalled true (installedFrom (binary :: others) file) = tidied file := by
  rw [List.forall_mem_cons] at unbroken
  have none : withoutLegacy file = file := if_neg free.legacy
  have first : patched binary true file = file ++ addition binary := by
    rw [patched_eq, none, if_neg free.own]
  have grown : Grown file (patched binary true file) := by
    rw [first]
    exact grown_addition unbroken.1 (List.append_nil _).symm nofun
  have plain : ∀ line ∈ splitlines file, ¬Dropped line := by
    rintro line member (legacy | marked)
    · exact of_decide_eq_false (free.adds line member) (.inl legacy)
    · exact free.marker line member marked
  exact (grown_installedFrom others unbroken.2 grown plain).uninstalled free.adds free.marker

theorem twoCheckouts_free :
    (∀ one ∈ ["/x".toList, "/y".toList, "/x".toList], one.any isLineBreak = false) ∧
      ¬legacyAddModuleLine <:+: newlines "a\n\nb \n\n".toList ∧
      (∀ line ∈ splitlines "a\n\nb \n\n".toList, Adds line = false ∧ strip line ≠ marker) ∧
      ¬addModuleLine "/x".toList <:+: newlines "a\n\nb \n\n".toList := by
  decide +kernel

theorem twoCheckouts_removed :
    uninstalled true (installedFrom ["/x".toList, "/y".toList, "/x".toList] "a\n\nb \n\n".toList) =
      tidied "a\n\nb \n\n".toList := by
  obtain ⟨checkouts, legacy, lines, own⟩ := twoCheckouts_free
  have unbroken : ∀ one ∈ ["/x".toList, "/y".toList, "/x".toList], Unbroken one := by
    intro one member c inside
    simpa using List.any_eq_false.mp (checkouts one member) c inside
  exact uninstalled_installedFrom _ _ _ unbroken
    ⟨legacy, fun line member => (lines line member).1, fun line member => (lines line member).2, own⟩

end

end Scripts

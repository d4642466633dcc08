import NeuralTts.Library.Naming
import NeuralTts.Speechd.VoiceNames

/-! How often a voice is listed in a language. -/

namespace Speechd

open Daemon Library

variable (t : Text)

/-- English, but not that of the United States. -/
def otherEnglish (lang : String) : Bool :=
  "en-".toList.isPrefixOf (t.lower lang).toList && lang ≠ usLang

/-- The languages under which `cmd_list_voices` asks for a row of a voice, as it goes through
them. -/
def turnsOf (v : Voice) : List String :=
  (langsOf t v).flatMap fun lang => if otherEnglish t lang then [lang, usLang] else [lang]

def advertisedLangs (v : Voice) : List String :=
  langsOf t v ++ if (langsOf t v).any (otherEnglish t) then [usLang] else []

def listUnder (request : Request) (v : Voice) (st : Listing) (lang : String) : Listing :=
  let picked := pickDisplayName t st v lang
  emit t request picked.2 picked.1 v.id lang "none"

def rowsIn (lang : String) (rows : List Row) : Naming.Issued String :=
  (rows.filter (·.lang = lang)).map fun row => (row.name, row.voiceId)

def rowKey (row : Row) : String × String := (row.name, row.lang)

/-- Every voice has exactly one row in each of its languages, and no two rows have the same name
and language. -/
def AdvertisedOnce (voices : List Voice) (rows : List Row) : Prop :=
  (∀ v ∈ voices, ∀ lang ∈ advertisedLangs t v,
    (rows.filter fun row => row.voiceId = v.id ∧ row.lang = lang).length = 1) ∧
  (rows.map rowKey).Nodup

/-- At the turn of each voice in each of its languages, its display name or its id is taken by no
earlier voice, and where the voice asks more than once there, not both are free. -/
def NamesApart (voices : List Voice) : Prop :=
  ∀ before v after, voices = before ++ v :: after → ∀ lang ∈ advertisedLangs t v,
    Naming.OneFree ((turnsOf t v).count lang)
      (Naming.Taken (baseName t) Voice.id (fun v => (turnsOf t v).count lang) before.reverse)
      (baseName t v) v.id

variable {t} {request : Request} {st : Listing} {v : Voice}

theorem mem_advertisedLangs {lang : String} :
    lang ∈ advertisedLangs t v ↔ 0 < (turnsOf t v).count lang := by
  rw [List.count_pos_iff, advertisedLangs, turnsOf, List.mem_append, List.mem_flatMap]
  constructor
  · rintro (own | us)
    · refine ⟨lang, own, ?_⟩
      split <;> simp
    · split at us
      · rename_i some_other
        obtain ⟨l, member, other⟩ := List.any_eq_true.mp some_other
        rw [List.mem_singleton.mp us]
        exact ⟨l, member, by rw [if_pos other]; simp⟩
      · simp at us
  · rintro ⟨l, member, turn⟩
    split at turn
    · rename_i other
      rcases List.mem_cons.mp turn with rfl | us
      · exact .inl member
      · rw [if_pos (List.any_eq_true.mpr ⟨l, member, other⟩)]
        exact .inr us
    · rw [List.mem_singleton.mp turn]
      exact .inl member

theorem listLang_eq (lang : String) :
    listLang t request v st lang =
      (if otherEnglish t lang then [lang, usLang] else [lang]).foldl (listUnder t request v) st := by
  unfold listLang otherEnglish
  dsimp only
  split <;> rfl

theorem listVoice_eq : listVoice t request st v = (turnsOf t v).foldl (listUnder t request v) st := by
  rw [listVoice, turnsOf, List.foldl_flatMap]
  congr
  funext st lang
  exact listLang_eq lang

/-- The names of an unfiltered listing: those in use are those written, and those written are the
keys of the rows. -/
structure Listing.Agrees (st : Listing) : Prop where
  used : ∀ name lang, name ∈ (st.usedNames.lookup lang).getD [] ↔ (name, lang) ∈ st.written
  keys : st.rows.map rowKey = st.written.reverse
  nodup : st.written.Nodup

theorem Listing.Agrees.mem_written (agrees : st.Agrees) (name lang : String) :
    (name, lang) ∈ st.written ↔ name ∈ Naming.names (rowsIn lang st.rows) := by
  rw [← List.mem_reverse, ← agrees.keys]
  simp only [Naming.names, rowsIn, rowKey, List.mem_map, List.mem_filter, List.map_map,
    Prod.mk.injEq, decide_eq_true_eq, Function.comp_apply]
  constructor
  · rintro ⟨row, member, rfl, rfl⟩
    exact ⟨row, ⟨member, rfl⟩, rfl⟩
  · rintro ⟨row, ⟨member, rfl⟩, rfl⟩
    exact ⟨row, member, rfl, rfl⟩

theorem rowsIn_append (lang : String) (rows : List Row) (row : Row) :
    rowsIn lang (rows ++ [row]) =
      if row.lang = lang then rowsIn lang rows ++ [(row.name, row.voiceId)] else rowsIn lang rows := by
  by_cases same : row.lang = lang
  · simp [rowsIn, same]
  · simp [rowsIn, same]

theorem admits_unfiltered (unfiltered : request.lang = none) (lang variant : String) :
    admits t request lang variant = true := by
  rw [admits, unfiltered]

def useName (st : Listing) (name lang : String) : Listing :=
  { st with usedNames := st.usedNames.set lang (name :: (st.usedNames.lookup lang).getD []) }

theorem mem_useName (st : Listing) (name lang n l : String) :
    n ∈ ((useName st name lang).usedNames.lookup l).getD [] ↔
      (n, l) = (name, lang) ∨ n ∈ (st.usedNames.lookup l).getD [] := by
  simp only [useName, Dict.lookup_set, Prod.mk.injEq]
  by_cases same : l = lang
  · subst same
    simp
  · simp [same]

theorem Listing.Agrees.emit_known (agrees : st.Agrees) (request : Request) {name lang : String}
    (known : (name, lang) ∈ st.written) (voiceId variant : String) :
    (emit t request (useName st name lang) name voiceId lang variant).Agrees ∧
      (emit t request (useName st name lang) name voiceId lang variant).rows = st.rows := by
  have unchanged : emit t request (useName st name lang) name voiceId lang variant =
      useName st name lang := if_pos known
  rw [unchanged]
  refine ⟨⟨?_, agrees.keys, agrees.nodup⟩, rfl⟩
  intro n l
  rw [mem_useName, agrees.used]
  constructor
  · rintro (same | written)
    · exact same ▸ known
    · exact written
  · exact .inr

theorem Listing.Agrees.emit_fresh (agrees : st.Agrees) (unfiltered : request.lang = none)
    {name lang : String} (fresh : (name, lang) ∉ st.written) (voiceId variant : String) :
    (emit t request (useName st name lang) name voiceId lang variant).Agrees ∧
      (emit t request (useName st name lang) name voiceId lang variant).rows =
        st.rows ++ [⟨name, lang, variant, voiceId⟩] := by
  have written : (name, lang) ∉ (useName st name lang).written := fresh
  rw [emit, if_neg written, if_pos (admits_unfiltered unfiltered lang variant)]
  refine ⟨⟨?_, ?_, List.nodup_cons.mpr ⟨fresh, agrees.nodup⟩⟩, rfl⟩
  · intro n l
    have used := mem_useName st name lang n l
    rw [agrees.used] at used
    exact used.trans List.mem_cons.symm
  · have reversed : ((name, lang) :: st.written).reverse = st.written.reverse ++ [(name, lang)] :=
      List.reverse_cons
    refine Eq.trans ?_ reversed.symm
    rw [← agrees.keys]
    exact List.map_append

theorem Listing.Agrees.listUnder (agrees : st.Agrees) (unfiltered : request.lang = none)
    (lang : String) :
    (listUnder t request v st lang).Agrees ∧ ∀ other,
      rowsIn other (Speechd.listUnder t request v st lang).rows =
        if lang = other then Naming.turn (baseName t) Voice.id v (rowsIn other st.rows)
        else rowsIn other st.rows := by
  have asked : Speechd.listUnder t request v st lang =
      emit t request (useName st (pickDisplayName t st v lang).1 lang)
        (pickDisplayName t st v lang).1 v.id lang "none" := rfl
  have base := agrees.used (baseName t v) lang
  rw [asked, pickDisplayName]
  dsimp only
  by_cases taken : (baseName t v, lang) ∈ st.written
  · rw [if_pos (base.mpr taken)]
    rw [agrees.mem_written] at taken
    by_cases known : (v.id, lang) ∈ st.written
    · obtain ⟨still, rows⟩ := agrees.emit_known (t := t) request known v.id "none"
      refine ⟨still, fun other => ?_⟩
      rw [rows]
      rw [agrees.mem_written] at known
      split
      · rename_i same
        subst same
        rw [Naming.turn, if_neg (not_not.mpr taken), if_neg (not_not.mpr known)]
      · rfl
    · obtain ⟨still, rows⟩ := agrees.emit_fresh (t := t) unfiltered known v.id "none"
      refine ⟨still, fun other => ?_⟩
      rw [rows, rowsIn_append]
      rw [agrees.mem_written] at known
      split
      · rename_i same
        subst same
        rw [Naming.turn, if_neg (not_not.mpr taken), if_pos known]
      · rfl
  · rw [if_neg (fun used => taken (base.mp used))]
    obtain ⟨still, rows⟩ := agrees.emit_fresh (t := t) unfiltered taken v.id "none"
    refine ⟨still, fun other => ?_⟩
    rw [rows, rowsIn_append]
    rw [agrees.mem_written] at taken
    split
    · rename_i same
      subst same
      rw [Naming.turn, if_pos taken]
    · rfl

theorem Listing.Agrees.listTurns (agrees : st.Agrees) (unfiltered : request.lang = none)
    (langs : List String) :
    (langs.foldl (Speechd.listUnder t request v) st).Agrees ∧ ∀ other,
      rowsIn other (langs.foldl (Speechd.listUnder t request v) st).rows =
        (Naming.turn (baseName t) Voice.id v)^[langs.count other] (rowsIn other st.rows) := by
  induction langs generalizing st with
  | nil => exact ⟨agrees, fun other => rfl⟩
  | cons lang langs ih =>
    obtain ⟨next, rows⟩ := agrees.listUnder (t := t) (v := v) unfiltered lang
    obtain ⟨still, later⟩ := ih next
    refine ⟨still, fun other => ?_⟩
    rw [List.foldl_cons, later, rows, List.count_cons]
    by_cases same : lang = other
    · simp [same]
    · simp [same]

theorem listVoices_rowsIn (unfiltered : request.lang = none) (voices : List Voice) :
    (listVoices t request voices).Agrees ∧ ∀ lang,
      rowsIn lang (listVoices t request voices).rows =
        Naming.run (baseName t) Voice.id (fun v => (turnsOf t v).count lang) voices := by
  have start : (⟨[], ∅, ∅, []⟩ : Listing).Agrees := ⟨by simp, rfl, List.nodup_nil⟩
  have follows : ∀ (voices : List Voice) (st : Listing), st.Agrees →
      (voices.foldl (listVoice t request) st).Agrees ∧
      ∀ lang, rowsIn lang (voices.foldl (listVoice t request) st).rows =
        voices.foldl (fun issued v =>
          (Naming.turn (baseName t) Voice.id v)^[(turnsOf t v).count lang] issued)
          (rowsIn lang st.rows) := by
    intro voices
    induction voices with
    | nil => exact fun st agrees => ⟨agrees, fun lang => rfl⟩
    | cons v voices ih =>
      intro st agrees
      obtain ⟨next, rows⟩ := agrees.listTurns (t := t) (v := v) unfiltered (turnsOf t v)
      rw [← listVoice_eq] at next rows
      obtain ⟨still, later⟩ := ih _ next
      refine ⟨still, fun lang => ?_⟩
      rw [List.foldl_cons, List.foldl_cons, later, rows]
  exact follows voices _ start

theorem given_rowsIn (lang id : String) (rows : List Row) :
    Naming.given (rowsIn lang rows) id =
      (rows.filter fun row => row.voiceId = id ∧ row.lang = lang).length := by
  rw [Naming.given, rowsIn, List.countP_map, List.countP_filter, List.countP_eq_length_filter]
  simp

/-- An unfiltered listing has each voice once in each of its languages exactly when the names are
apart; the names of its rows always are, in each language. -/
theorem listVoices_once_iff (t : Text) (voices : List Voice) (line : String) (s : ModuleState)
    (distinct : (voices.map Voice.id).Nodup) (unfiltered : (parseRequest t line).lang = none) :
    (AdvertisedOnce t voices (cmdListVoices t voices line s).2 ↔ NamesApart t voices) ∧
      ((cmdListVoices t voices line s).2.map rowKey).Nodup := by
  by_cases empty : voices = []
  · subst empty
    simp [AdvertisedOnce, NamesApart, cmdListVoices]
  · rw [cmdListVoices_rows empty]
    obtain ⟨agrees, rows⟩ := listVoices_rowsIn (t := t) unfiltered voices
    have nodup : ((listVoices t (parseRequest t line) voices).rows.map rowKey).Nodup := by
      rw [agrees.keys, List.nodup_reverse]
      exact agrees.nodup
    refine ⟨?_, nodup⟩
    simp only [AdvertisedOnce, nodup, and_true, ← given_rowsIn, rows]
    constructor
    · intro once before v after split lang advertised
      have one := once v (by simp [split]) lang advertised
      exact (Naming.given_run_eq_one_iff distinct split (mem_advertisedLangs.mp advertised)).mp one
    · intro apart v member lang advertised
      obtain ⟨before, after, split⟩ := List.append_of_mem member
      exact (Naming.given_run_eq_one_iff distinct split (mem_advertisedLangs.mp advertised)).mpr
        (apart before v after split lang advertised)

def emma : Voice := ⟨"bf_emma", "en-GB", .female, some "Emma", ["en-AU", "en-NZ"]⟩

theorem british_voice_listed_twice :
    ([emma].map Voice.id).Nodup ∧ (parseRequest ascii "LIST VOICES\n").lang = none ∧
      ¬ AdvertisedOnce ascii [emma] (cmdListVoices ascii [emma] "LIST VOICES\n" {}).2 := by
  refine ⟨by decide, by decide, ?_⟩
  intro once
  exact absurd (once.1 emma (by decide) "en-US" (by decide)) (by decide)

theorem amy_and_none_once_iff :
    (AdvertisedOnce ascii amyAndNone (cmdListVoices ascii amyAndNone "LIST VOICES\n" {}).2 ↔
        NamesApart ascii amyAndNone) ∧
      ((cmdListVoices ascii amyAndNone "LIST VOICES\n" {}).2.map rowKey).Nodup :=
  listVoices_once_iff ascii amyAndNone "LIST VOICES\n" {} (by decide) (by decide)

end Speechd

import NeuralTts.Daemon.VoiceIndexViews

/-! What the index answers after any history of updates, and when disambiguation loses no
voice. -/

namespace Daemon

open Library

namespace VoiceIndex

inductive Update
  | set (provider : String) (voices : List Voice)
  | clear

def apply (idx : VoiceIndex) : Update → VoiceIndex
  | .set provider voices => idx.setProviderVoices provider voices
  | .clear => idx.clear

def after (history : List Update) : VoiceIndex := history.foldl apply new

/-- The last list set for each provider since the last clear: what the history means, without
reference to the index. -/
def latestStep (latest : String → Option (List Voice)) : Update → String → Option (List Voice)
  | .set provider voices => Function.update latest provider (some voices)
  | .clear => fun _ => none

def latest (history : List Update) : String → Option (List Voice) :=
  history.foldl latestStep fun _ => none

structure Current (idx : VoiceIndex) (expected : String → Option (List Voice)) : Prop where
  rebuilt : idx = rebuild idx.byProviderRaw
  raw : ∀ provider, idx.byProviderRaw.lookup provider = expected provider

theorem Current.apply {idx : VoiceIndex} {expected : String → Option (List Voice)}
    (current : Current idx expected) (update : Update) :
    Current (idx.apply update) (latestStep expected update) := by
  cases update with
  | set provider voices =>
    refine ⟨rfl, ?_⟩
    intro p
    change (idx.byProviderRaw.set provider voices).lookup p = _
    rw [Dict.lookup_set, current.raw, latestStep, Function.update_apply]
  | clear => exact ⟨rfl, fun _ => rfl⟩

theorem current_after (history : List Update) : Current (after history) (latest history) := by
  have general : ∀ (history : List Update) (idx : VoiceIndex) expected, Current idx expected →
      Current (history.foldl VoiceIndex.apply idx) (history.foldl latestStep expected) := by
    intro history
    induction history with
    | nil => intro idx expected current; exact current
    | cons update history ih => intro idx expected current; exact ih _ _ (current.apply update)
  exact general history new _ ⟨rfl, fun _ => rfl⟩

theorem rawList_after (history : List Update) (provider : String) :
    rawList (after history).byProviderRaw provider = (latest history provider).getD [] := by
  rw [rawList, (current_after history).raw]

/-- The listing and the lookup agree, whatever the ids look like, and both depend only on the
last list set for each provider. -/
theorem views_agree (history : List Update) :
    ((after history).allVoices.map Voice.id).Nodup ∧
    (∀ u p, u ∈ ((after history).voicesFor p).map Voice.id ↔
      (after history).providerFor u = some p) ∧
    (∀ u p, (after history).providerFor u = some p →
      ∃ v ∈ (latest history p).getD [], (after history).localIdFor u = v.id ∧
        (u = v.id ∨ u = suffixed v.id p) ∧
        ∀ shown ∈ (after history).voicesFor p, shown.id = u → shown = { v with id := u }) ∧
    (∀ other : List Update, latest other = latest history →
      (after other).byProviderPublic = (after history).byProviderPublic ∧
      (after other).byPublicId = (after history).byPublicId ∧
      (after other).knownProviders = (after history).knownProviders) := by
  have current := current_after history
  have raw := rawList_after history
  have stored := current.raw
  rw [current.rebuilt]
  generalize (after history).byProviderRaw = lists at raw stored ⊢
  refine ⟨allVoices_ids_nodup _, ?_, ?_, ?_⟩
  · intro u p
    exact mem_voicesFor_iff_providerFor lists u p
  · intro u p found
    obtain ⟨v, inside, same⟩ := (providerFor_rebuild lists u p).mp found
    refine ⟨v, raw p ▸ mem_offers.mp (mem_offers_of_listed lists inside),
      localIdFor_rebuild lists inside same, same ▸ publicId_cases _ _ _, ?_⟩
    intro shown member id
    obtain ⟨w, insideW, rfl⟩ := (mem_voicesFor_rebuild lists).mp member
    have equal := List.inj_on_of_nodup_map (listed_nodup lists) insideW inside (id.trans same.symm)
    cases equal
    rw [publicOf_eq, same]
  · intro other sameLatest
    have currentOther := current_after other
    rw [currentOther.rebuilt]
    refine rebuild_congr fun provider => ?_
    rw [currentOther.raw, sameLatest, stored]

/-- Provider `p` exposes `id`, judged by the last list set for it. -/
def Exposes (latest : String → Option (List Voice)) (p id : String) : Prop :=
  ∃ v ∈ (latest p).getD [], v.id = id

def OnlyExposer (latest : String → Option (List Voice)) (p id : String) : Prop :=
  Exposes latest p id ∧ ∀ q, Exposes latest q id → q = p

/-- The public id that the module docstring promises to provider `p`'s voice `id`. -/
def Promised (latest : String → Option (List Voice)) (p id u : String) : Prop :=
  (OnlyExposer latest p id ∧ u = id) ∨ (¬ OnlyExposer latest p id ∧ u = suffixed id p)

def Names (idx : VoiceIndex) (p id u : String) : Prop :=
  idx.providerFor u = some p ∧ idx.localIdFor u = id

/-- Every exposed pair has exactly one public id: the bare id exactly when one provider
exposes it, and otherwise the suffixed one. -/
def NothingLost (idx : VoiceIndex) (latest : String → Option (List Voice)) : Prop :=
  ∀ p id, Exposes latest p id → (∃! u, Names idx p id u) ∧
    ∀ u, Names idx p id u → (u = id ↔ OnlyExposer latest p id) ∧
      (¬ OnlyExposer latest p id → u = suffixed id p)

/-- No provider repeats an id that it alone exposes, and no two exposed pairs are promised one
public id. -/
structure Separate (latest : String → Option (List Voice)) : Prop where
  once : ∀ p id, OnlyExposer latest p id → (((latest p).getD []).map Voice.id).count id = 1
  apart : ∀ p id q id' u, Exposes latest p id → Exposes latest q id' →
    Promised latest p id u → Promised latest q id' u → p = q ∧ id = id'

theorem suffixed_ne (id p : String) : suffixed id p ≠ id := by
  intro same
  have lengths := congrArg String.length same
  simp only [suffixed, String.length_append] at lengths
  have dot : ".".length = 1 := by decide
  omega

theorem Promised.eq {latest : String → Option (List Voice)} {p id u u' : String}
    (first : Promised latest p id u) (second : Promised latest p id u') : u = u' := by
  rcases first with ⟨only, rfl⟩ | ⟨shared, rfl⟩ <;> rcases second with ⟨only', rfl⟩ | ⟨shared', rfl⟩
  · rfl
  · exact absurd only shared'
  · exact absurd only' shared
  · rfl

theorem idCounts_split (raw : Dict String (List Voice)) (p id : String) :
    ∃ rest : Nat, idCounts raw id = ((rawList raw p).map Voice.id).count id + rest ∧
      (0 < rest ↔ ∃ q, q ≠ p ∧ ∃ v ∈ rawList raw q, v.id = id) := by
  let share := fun entry : Sigma fun _ : String => List Voice => entry.2.map Voice.id
  have total : idCounts raw id = (raw.entries.flatMap share).count id := by
    rw [idCounts_eq_count, Dict.values, List.flatMap_map]
  let others := raw.entries.filter (·.1 ≠ p)
  have restPositive : 0 < (others.flatMap share).count id ↔
      ∃ q, q ≠ p ∧ ∃ v ∈ rawList raw q, v.id = id := by
    rw [List.count_pos_iff, List.mem_flatMap]
    constructor
    · rintro ⟨⟨q, voices⟩, member, inside⟩
      obtain ⟨entry, different⟩ := List.mem_filter.mp member
      obtain ⟨v, inVoices, same⟩ := List.mem_map.mp inside
      have stored : raw.lookup q = some voices := AList.mem_lookup_iff.mpr entry
      exact ⟨q, by simpa using different, v, by rw [rawList, stored]; exact inVoices, same⟩
    · rintro ⟨q, different, v, member, same⟩
      cases stored : raw.lookup q with
      | none => rw [rawList, stored] at member; cases member
      | some voices =>
        rw [rawList, stored] at member
        exact ⟨⟨q, voices⟩, List.mem_filter.mpr ⟨AList.mem_lookup_iff.mp stored, by simpa using different⟩,
          List.mem_map.mpr ⟨v, member, same⟩⟩
  refine ⟨(others.flatMap share).count id, ?_, restPositive⟩
  have parts : raw.entries.Perm (raw.entries.filter (·.1 = p) ++ others) := by
    simpa [others] using (List.filter_append_perm (fun entry => decide (entry.1 = p)) raw.entries).symm
  rw [total, (parts.flatMap_right share).count_eq, List.flatMap_append, List.count_append]
  congr 2
  rw [Dict.filter_entries_key, rawList]
  cases raw.lookup p <;> simp [share]

theorem count_gt_one_iff {raw : Dict String (List Voice)} {p : String} {v : Voice}
    (member : v ∈ rawList raw p) :
    idCounts raw v.id > 1 ↔ (∃ q, q ≠ p ∧ ∃ w ∈ rawList raw q, w.id = v.id) ∨
      ((rawList raw p).map Voice.id).count v.id > 1 := by
  obtain ⟨rest, total, shared⟩ := idCounts_split raw p v.id
  have own : 0 < ((rawList raw p).map Voice.id).count v.id :=
    List.count_pos_iff.mpr (List.mem_map_of_mem member)
  rw [total, ← shared]
  omega

theorem names_iff {raw : Dict String (List Voice)} {p id u : String} :
    Names (rebuild raw) p id u ↔
      ∃ v : Voice, (p, v) ∈ listed raw ∧ publicId (idCounts raw) (p, v) = u ∧ v.id = id := by
  constructor
  · rintro ⟨provider, localId⟩
    obtain ⟨v, inside, same⟩ := (providerFor_rebuild raw u p).mp provider
    exact ⟨v, inside, same, (localIdFor_rebuild raw inside same).symm.trans localId⟩
  · rintro ⟨v, inside, same, rfl⟩
    exact ⟨(providerFor_rebuild raw u p).mpr ⟨v, inside, same⟩, localIdFor_rebuild raw inside same⟩

section Disambiguation

variable {raw : Dict String (List Voice)} {lists : String → Option (List Voice)}
  (stored : ∀ p, rawList raw p = (lists p).getD [])

include stored

theorem onlyExposer_iff {p id : String} (exposed : Exposes lists p id) :
    OnlyExposer lists p id ↔ ¬ ∃ q, q ≠ p ∧ ∃ w ∈ rawList raw q, w.id = id := by
  simp only [stored]
  constructor
  · rintro ⟨_, only⟩ ⟨q, different, shared⟩
    exact different (only q shared)
  · intro alone
    refine ⟨exposed, ?_⟩
    intro q shared
    by_contra different
    exact alone ⟨q, different, shared⟩

theorem publicId_promised (separate : Separate lists) {p : String} {v : Voice}
    (member : v ∈ rawList raw p) : Promised lists p v.id (publicId (idCounts raw) (p, v)) := by
  have exposed : Exposes lists p v.id := ⟨v, stored p ▸ member, rfl⟩
  have counts := count_gt_one_iff member
  by_cases only : OnlyExposer lists p v.id
  · have once := separate.once p v.id only
    rw [← stored] at once
    have alone := (onlyExposer_iff stored exposed).mp only
    have single : ¬ idCounts raw v.id > 1 := by
      rw [counts, once]
      rintro (shared | repeated)
      · exact alone shared
      · omega
    exact .inl ⟨only, by simp [publicId, publicOf, publicVoice, single]⟩
  · have shared : idCounts raw v.id > 1 := by
      rw [counts]
      by_contra quiet
      exact only ((onlyExposer_iff stored exposed).mpr fun h => quiet (.inl h))
    exact .inr ⟨only, by simp [publicId, publicOf, publicVoice, shared]⟩

theorem nothingLost_of_separate (separate : Separate lists) : NothingLost (rebuild raw) lists := by
  have promised : ∀ p v, (p, v) ∈ listed raw →
      Promised lists p v.id (publicId (idCounts raw) (p, v)) := fun p v inside =>
    publicId_promised stored separate (mem_offers.mp (mem_offers_of_listed raw inside))
  have namesPromised : ∀ p id u, Names (rebuild raw) p id u → Promised lists p id u := by
    intro p id u names
    obtain ⟨v, inside, rfl, rfl⟩ := names_iff.mp names
    exact promised p v inside
  intro p id exposed
  constructor
  · obtain ⟨v, member, rfl⟩ := exposed
    rw [← stored] at member
    -- The id that the pair claims is taken by a pair, and `apart` makes it this one.
    have offered : (p, v) ∈ offers raw := mem_offers.mpr member
    obtain ⟨⟨q, w⟩, inside, same⟩ :=
      List.mem_map.mp (key_mem_claimAll (publicId (idCounts raw)) [] (offers raw) offered)
    have memberW := mem_offers.mp (mem_offers_of_listed raw inside)
    obtain ⟨rfl, sameId⟩ := separate.apart q w.id p v.id _ ⟨w, stored q ▸ memberW, rfl⟩
      ⟨v, stored p ▸ member, rfl⟩ (promised q w inside) (same ▸ publicId_promised stored separate member)
    refine ⟨_, names_iff.mpr ⟨w, inside, rfl, sameId⟩, ?_⟩
    intro u names
    exact (namesPromised _ _ _ names).eq (sameId ▸ promised q w inside)
  · intro u names
    rcases namesPromised p id u names with ⟨only, rfl⟩ | ⟨shared, rfl⟩
    · exact ⟨⟨fun _ => only, fun _ => rfl⟩, fun h => absurd only h⟩
    · exact ⟨⟨fun h => absurd h (suffixed_ne id p), fun h => absurd h shared⟩, fun _ => rfl⟩

theorem separate_of_nothingLost (kept : NothingLost (rebuild raw) lists) : Separate lists := by
  have promisedNames : ∀ p id u, Exposes lists p id → Promised lists p id u →
      Names (rebuild raw) p id u := by
    intro p id u exposed promised
    obtain ⟨⟨u', names, _⟩, shape⟩ := kept p id exposed
    obtain ⟨bare, suffix⟩ := shape u' names
    rcases promised with ⟨only, same⟩ | ⟨shared, same⟩
    · have equal : u' = u := (bare.mpr only).trans same.symm
      exact equal ▸ names
    · have equal : u' = u := (suffix shared).trans same.symm
      exact equal ▸ names
  constructor
  · intro p id only
    obtain ⟨v, inside, bare, rfl⟩ := names_iff.mp
      (promisedNames p id id only.1 (.inl ⟨only, rfl⟩))
    have member := mem_offers.mp (mem_offers_of_listed raw inside)
    have own : 0 < ((rawList raw p).map Voice.id).count v.id :=
      List.count_pos_iff.mpr (List.mem_map_of_mem member)
    have unsuffixed : ¬ idCounts raw v.id > 1 := by
      intro many
      have suffix : publicId (idCounts raw) (p, v) = suffixed v.id p := by
        simp [publicId, publicOf, publicVoice, many]
      exact suffixed_ne v.id p (suffix.symm.trans bare)
    have single : ¬ ((rawList raw p).map Voice.id).count v.id > 1 :=
      fun repeated => unsuffixed ((count_gt_one_iff member).mpr (.inr repeated))
    rw [← stored]
    omega
  · intro p id q id' u exposedP exposedQ promisedP promisedQ
    obtain ⟨providerP, localP⟩ := promisedNames p id u exposedP promisedP
    obtain ⟨providerQ, localQ⟩ := promisedNames q id' u exposedQ promisedQ
    rw [providerP] at providerQ
    exact ⟨Option.some.inj providerQ, localP.symm.trans localQ⟩

end Disambiguation

/-- Disambiguation loses no voice exactly when no provider repeats an id of its own and no two
exposed pairs are promised the same public id. -/
theorem nothingLost_iff_separate (history : List Update) :
    NothingLost (after history) (latest history) ↔ Separate (latest history) := by
  have stored := rawList_after history
  rw [(current_after history).rebuilt]
  exact ⟨separate_of_nothingLost stored, nothingLost_of_separate stored⟩

def clashHistory : List Update :=
  [.set "a" [{ id := "x.b", language := "en", gender := .neutral }],
   .set "b" [{ id := "x", language := "en", gender := .neutral }],
   .set "c" [{ id := "x", language := "en", gender := .neutral }]]

theorem clashHistory_loses_voice : ¬ NothingLost (after clashHistory) (latest clashHistory) := by
  intro kept
  have exposed : Exposes (latest clashHistory) "b" "x" :=
    ⟨{ id := "x", language := "en", gender := .neutral }, by simp [clashHistory, latest, latestStep], rfl⟩
  obtain ⟨u, ⟨provider, _⟩, _⟩ := (kept "b" "x" exposed).1
  rw [(current_after clashHistory).rebuilt, ← mem_voicesFor_iff_providerFor] at provider
  obtain ⟨shown, member, _⟩ := List.mem_map.mp provider
  have empty : (rebuild (after clashHistory).byProviderRaw).voicesFor "b" = [] := by decide
  rw [empty] at member
  cases member

end VoiceIndex

end Daemon

import Mathlib.Data.List.Perm.Subperm
import NeuralTts.Library.FirstClaim
import NeuralTts.Daemon.VoiceIndex

/-! The two derived views of the voice index agree: both are read off one list of pairs, the
pairs whose public id was free when `_rebuild` reached them. -/

namespace Daemon

open Library

namespace VoiceIndex

variable (raw : Dict String (List Voice))

theorem foldl_countVoice (counts : String → Nat) (voices : List Voice) (id : String) :
    voices.foldl countVoice counts id = counts id + (voices.map Voice.id).count id := by
  induction voices generalizing counts with
  | nil => simp
  | cons v voices ih =>
    rw [List.foldl_cons, ih, List.map_cons, List.count_cons]
    by_cases same : v.id = id
    · subst same
      simp only [countVoice, Function.update_self, beq_self_eq_true, ↓reduceIte]
      omega
    · have other : id ≠ v.id := fun h => same h.symm
      simp [countVoice, Function.update_of_ne other, same]

theorem idCounts_eq_count (id : String) :
    idCounts raw id = (raw.values.flatMap fun voices => voices.map Voice.id).count id := by
  have general : ∀ (lists : List (List Voice)) (counts : String → Nat),
      lists.foldl (fun counts voices => voices.foldl countVoice counts) counts id =
        counts id + (lists.flatMap fun voices => voices.map Voice.id).count id := by
    intro lists
    induction lists with
    | nil => simp
    | cons voices lists ih =>
      intro counts
      rw [List.foldl_cons, ih, foldl_countVoice, List.flatMap_cons, List.count_append]
      omega
  have total := general raw.values fun _ => 0
  rwa [Nat.zero_add] at total

/-- Every raw voice with its provider, in the order in which `_rebuild` visits them. -/
def offers : List (String × Voice) :=
  (sortedKeys raw).flatMap fun provider => (rawList raw provider).map (provider, ·)

def publicOf (counts : String → Nat) (offer : String × Voice) : Voice :=
  publicVoice counts offer.1 offer.2

def publicId (counts : String → Nat) (offer : String × Voice) : String := (publicOf counts offer).id

def listed : List (String × Voice) := claimAll (publicId (idCounts raw)) [] (offers raw)

def lookupEntries (counts : String → Nat) (kept : List (String × Voice)) :
    List (Sigma fun _ : String => String × String) :=
  kept.map fun offer => ⟨publicId counts offer, offer.1, offer.2.id⟩

theorem mem_iff_publicId_mem {counts : String → Nat} {ids : Dict String (String × String)}
    {kept : List (String × Voice)} (same : ids.entries = lookupEntries counts kept) (id : String) :
    id ∈ ids ↔ id ∈ kept.map (publicId counts) := by
  rw [AList.mem_keys, AList.keys, same]
  simp [List.keys, lookupEntries]

theorem foldl_addVoice (counts : String → Nat) (provider : String) (voices : List Voice)
    (shown : List Voice) (ids : Dict String (String × String)) (kept : List (String × Voice))
    (same : ids.entries = lookupEntries counts kept) :
    ∃ added : List (String × Voice),
      claimAll (publicId counts) kept (voices.map (provider, ·)) = kept ++ added ∧
      (∀ offer ∈ added, offer.1 = provider) ∧
      (voices.foldl (addVoice counts provider) (shown, ids)).1 =
        shown ++ added.map (publicOf counts) ∧
      (voices.foldl (addVoice counts provider) (shown, ids)).2.entries =
        lookupEntries counts (kept ++ added) := by
  induction voices generalizing shown ids kept with
  | nil => exact ⟨[], by simp, by simp, by simp, by simpa using same⟩
  | cons v voices ih =>
    rw [List.map_cons, claimAll_cons, List.foldl_cons]
    by_cases taken : publicId counts (provider, v) ∈ kept.map (publicId counts)
    · have member : (publicVoice counts provider v).id ∈ ids := (mem_iff_publicId_mem same _).mpr taken
      have skip : addVoice counts provider (shown, ids) v = (shown, ids) := by
        simp [addVoice, member]
      rw [claim_of_taken _ taken, skip]
      exact ih shown ids kept same
    · have fresh : (publicVoice counts provider v).id ∉ ids :=
        fun member => taken ((mem_iff_publicId_mem same _).mp member)
      have add : addVoice counts provider (shown, ids) v =
          (shown ++ [publicVoice counts provider v],
            ids.set (publicVoice counts provider v).id (provider, v.id)) := by
        simp [addVoice, fresh]
      have extended : (ids.set (publicVoice counts provider v).id (provider, v.id)).entries =
          lookupEntries counts (kept ++ [(provider, v)]) := by
        rw [Dict.entries_set_of_notMem fresh, same]
        simp [lookupEntries, publicId, publicOf]
      rw [claim_of_fresh _ taken, add]
      obtain ⟨added, claimed, owner, views⟩ := ih _ _ _ extended
      refine ⟨(provider, v) :: added, by rw [claimed]; simp, ?_, by rw [views.1]; simp [publicOf],
        by rw [views.2]; simp⟩
      intro offer member
      rcases List.mem_cons.mp member with rfl | member
      · rfl
      · exact owner offer member

/-- What the outer loop has built when it has visited `visited` and kept the pairs `kept`. -/
structure Rebuilt (counts : String → Nat) (visited : List String) (kept : List (String × Voice))
    (built : Dict String (List Voice) × Dict String (String × String)) : Prop where
  keys : built.1.keys = visited
  ids : built.2.entries = lookupEntries counts kept
  owners : ∀ offer ∈ kept, offer.1 ∈ visited
  lists : ∀ provider ∈ visited, built.1.lookup provider =
    some ((kept.filter (·.1 = provider)).map (publicOf counts))

theorem Rebuilt.addProvider {counts : String → Nat} {visited : List String}
    {kept : List (String × Voice)} {built : Dict String (List Voice) × Dict String (String × String)}
    (state : Rebuilt counts visited kept built) {provider : String} (fresh : provider ∉ visited) :
    Rebuilt counts (visited ++ [provider])
      (claimAll (publicId counts) kept ((rawList raw provider).map (provider, ·)))
      (addProvider raw counts built provider) := by
  obtain ⟨added, claimed, owner, shown, ids⟩ :=
    foldl_addVoice counts provider (rawList raw provider) [] built.2 kept state.ids
  rw [claimed]
  have newKey : provider ∉ built.1 := by rw [AList.mem_keys, state.keys]; exact fresh
  refine ⟨?_, ids, ?_, ?_⟩
  · change (built.1.set provider _).entries.keys = _
    rw [Dict.entries_set_of_notMem newKey, ← state.keys]
    simp [List.keys, AList.keys]
  · intro offer member
    rcases List.mem_append.mp member with old | new
    · exact List.mem_append_left _ (state.owners offer old)
    · simp [owner offer new]
  · intro p member
    change (built.1.set provider _).lookup p = _
    rw [Dict.lookup_set, List.filter_append, List.map_append]
    by_cases here : p = provider
    · subst here
      have none_old : kept.filter (·.1 = p) = [] := by
        rw [List.filter_eq_nil_iff]
        intro offer old
        have inside := state.owners offer old
        simp only [decide_eq_true_eq]
        rintro rfl
        exact fresh inside
      have all_new : added.filter (·.1 = p) = added := by
        rw [List.filter_eq_self]
        intro offer new
        simpa using owner offer new
      rw [none_old, all_new, shown]
      simp
    · have old : p ∈ visited := by simpa [here] using member
      have none_new : added.filter (·.1 = p) = [] := by
        rw [List.filter_eq_nil_iff]
        intro offer new
        have same := owner offer new
        simp only [decide_eq_true_eq]
        rintro rfl
        exact here same
      rw [none_new, state.lists p old]
      simp [here]

theorem sortedKeys_nodup {ν : Type} (d : Dict String ν) : (sortedKeys d).Nodup :=
  (List.perm_insertionSort _ _).nodup_iff.mpr d.keys_nodup

theorem mem_sortedKeys {ν : Type} {d : Dict String ν} {k : String} : k ∈ sortedKeys d ↔ k ∈ d := by
  rw [sortedKeys, (List.perm_insertionSort _ _).mem_iff, AList.mem_keys]

theorem rebuild_views :
    Rebuilt (idCounts raw) (sortedKeys raw) (listed raw)
      ((rebuild raw).byProviderPublic, (rebuild raw).byPublicId) := by
  have general : ∀ (rest visited : List String) (kept : List (String × Voice))
      (built : Dict String (List Voice) × Dict String (String × String)),
      (visited ++ rest).Nodup → Rebuilt (idCounts raw) visited kept built →
      Rebuilt (idCounts raw) (visited ++ rest)
        (claimAll (publicId (idCounts raw)) kept
          (rest.flatMap fun provider => (rawList raw provider).map (provider, ·)))
        (rest.foldl (addProvider raw (idCounts raw)) built) := by
    intro rest
    induction rest with
    | nil => intro visited kept built _ state; simpa using state
    | cons provider rest ih =>
      intro visited kept built distinct state
      have fresh : provider ∉ visited := by
        intro member
        exact (List.nodup_append.mp distinct).2.2 provider member provider List.mem_cons_self rfl
      have next := ih (visited ++ [provider]) _ _ (by simpa using distinct)
        (state.addProvider raw fresh)
      simpa [claimAll_append] using next
  have start : Rebuilt (idCounts raw) [] [] (∅, ∅) := ⟨rfl, rfl, by simp, by simp⟩
  exact general (sortedKeys raw) [] [] _ (by simpa using sortedKeys_nodup raw) start

theorem voicesFor_rebuild (provider : String) :
    (rebuild raw).voicesFor provider =
      ((listed raw).filter (·.1 = provider)).map (publicOf (idCounts raw)) := by
  have views := rebuild_views raw
  by_cases member : provider ∈ sortedKeys raw
  · have found : (rebuild raw).byProviderPublic.lookup provider = _ := views.lists provider member
    rw [voicesFor, found, Option.getD_some]
  · have absent : (rebuild raw).byProviderPublic.lookup provider = none := by
      rw [AList.lookup_eq_none, AList.mem_keys, views.keys]
      exact member
    have unused : (listed raw).filter (·.1 = provider) = [] := by
      rw [List.filter_eq_nil_iff]
      intro offer inside
      have owner := views.owners offer inside
      simp only [decide_eq_true_eq]
      rintro rfl
      exact member owner
    rw [voicesFor, absent, unused]
    rfl

theorem listed_nodup : ((listed raw).map (publicId (idCounts raw))).Nodup :=
  claimAll_nodup _ (by simp) _

theorem mem_offers {raw : Dict String (List Voice)} {offer : String × Voice} :
    offer ∈ offers raw ↔ offer.2 ∈ rawList raw offer.1 := by
  obtain ⟨provider, v⟩ := offer
  simp only [offers, List.mem_flatMap, List.mem_map, Prod.mk.injEq]
  constructor
  · rintro ⟨_, _, _, member, rfl, rfl⟩
    exact member
  · intro member
    refine ⟨provider, mem_sortedKeys.mpr ?_, v, member, rfl, rfl⟩
    by_contra absent
    rw [rawList, AList.lookup_eq_none.mpr absent] at member
    cases member

theorem mem_offers_of_listed {offer : String × Voice} (member : offer ∈ listed raw) :
    offer ∈ offers raw :=
  (mem_of_mem_claimAll _ member).resolve_left (by simp)

theorem lookup_rebuild (id provider localId : String) :
    (rebuild raw).byPublicId.lookup id = some (provider, localId) ↔
      ∃ v : Voice, (provider, v) ∈ listed raw ∧ publicId (idCounts raw) (provider, v) = id ∧
        v.id = localId := by
  have views := (rebuild_views raw).ids
  have member : (rebuild raw).byPublicId.lookup id = some (provider, localId) ↔
      (⟨id, provider, localId⟩ : Sigma fun _ : String => String × String) ∈
        lookupEntries (idCounts raw) (listed raw) := by
    rw [← views]
    exact AList.mem_lookup_iff
  rw [member, lookupEntries, List.mem_map]
  constructor
  · rintro ⟨⟨p, v⟩, inside, same⟩
    cases same
    exact ⟨v, inside, rfl, rfl⟩
  · rintro ⟨v, inside, rfl, rfl⟩
    exact ⟨(provider, v), inside, rfl⟩

theorem providerFor_rebuild (id provider : String) :
    (rebuild raw).providerFor id = some provider ↔
      ∃ v : Voice, (provider, v) ∈ listed raw ∧ publicId (idCounts raw) (provider, v) = id := by
  constructor
  · intro found
    obtain ⟨⟨p, localId⟩, entry, rfl⟩ := Option.map_eq_some_iff.mp found
    obtain ⟨v, inside, same, _⟩ := (lookup_rebuild raw id p localId).mp entry
    exact ⟨v, inside, same⟩
  · rintro ⟨v, inside, same⟩
    have entry := (lookup_rebuild raw id provider v.id).mpr ⟨v, inside, same, rfl⟩
    rw [providerFor, entry]
    rfl

theorem localIdFor_rebuild {id provider : String} {v : Voice} (inside : (provider, v) ∈ listed raw)
    (same : publicId (idCounts raw) (provider, v) = id) : (rebuild raw).localIdFor id = v.id := by
  have entry := (lookup_rebuild raw id provider v.id).mpr ⟨v, inside, same, rfl⟩
  rw [localIdFor, entry]
  rfl

theorem publicOf_eq (counts : String → Nat) (offer : String × Voice) :
    publicOf counts offer = { offer.2 with id := publicId counts offer } := by
  unfold publicId publicOf publicVoice
  split <;> rfl

theorem publicId_cases (counts : String → Nat) (provider : String) (v : Voice) :
    publicId counts (provider, v) = v.id ∨ publicId counts (provider, v) = suffixed v.id provider := by
  unfold publicId publicOf publicVoice
  split
  · exact .inr rfl
  · exact .inl rfl

theorem mem_voicesFor_rebuild {provider : String} {shown : Voice} :
    shown ∈ (rebuild raw).voicesFor provider ↔
      ∃ v : Voice, (provider, v) ∈ listed raw ∧ publicOf (idCounts raw) (provider, v) = shown := by
  rw [voicesFor_rebuild, List.mem_map]
  constructor
  · rintro ⟨⟨p, v⟩, member, rfl⟩
    obtain ⟨inside, owner⟩ := List.mem_filter.mp member
    obtain rfl : p = provider := by simpa using owner
    exact ⟨v, inside, rfl⟩
  · rintro ⟨v, inside, rfl⟩
    exact ⟨(provider, v), List.mem_filter.mpr ⟨inside, by simp⟩, rfl⟩

theorem mem_voicesFor_iff_providerFor (u provider : String) :
    u ∈ ((rebuild raw).voicesFor provider).map Voice.id ↔
      (rebuild raw).providerFor u = some provider := by
  rw [providerFor_rebuild, List.mem_map]
  constructor
  · rintro ⟨shown, member, rfl⟩
    obtain ⟨v, inside, rfl⟩ := (mem_voicesFor_rebuild raw).mp member
    exact ⟨v, inside, rfl⟩
  · rintro ⟨v, inside, rfl⟩
    exact ⟨_, (mem_voicesFor_rebuild raw).mpr ⟨v, inside, rfl⟩, rfl⟩

theorem allVoices_ids_nodup : ((rebuild raw).allVoices.map Voice.id).Nodup := by
  rw [allVoices, List.map_flatMap, List.nodup_flatMap]
  have ids : ∀ provider, ((rebuild raw).voicesFor provider).map Voice.id =
      ((listed raw).filter (·.1 = provider)).map (publicId (idCounts raw)) := by
    intro provider
    rw [voicesFor_rebuild, List.map_map]
    rfl
  constructor
  · intro provider _
    rw [ids]
    exact (listed_nodup raw).sublist (List.filter_sublist.map _)
  · refine (sortedKeys_nodup _).imp ?_
    intro p q different id inP inQ
    simp only [ids, List.mem_map] at inP inQ
    obtain ⟨x, memberP, rfl⟩ := inP
    obtain ⟨y, memberQ, same⟩ := inQ
    obtain ⟨listedP, ownerP⟩ := List.mem_filter.mp memberP
    obtain ⟨listedQ, ownerQ⟩ := List.mem_filter.mp memberQ
    have equal := List.inj_on_of_nodup_map (listed_nodup raw) listedQ listedP same
    subst equal
    exact different ((of_decide_eq_true ownerP).symm.trans (of_decide_eq_true ownerQ))

theorem sortedKeys_congr {ν : Type} {d e : Dict String ν} (same : ∀ k, d.lookup k = e.lookup k) :
    sortedKeys d = sortedKeys e := by
  have keys : d.keys.Perm e.keys := (Dict.entries_perm_of_lookup same).map _
  exact (((List.perm_insertionSort _ _).trans keys).trans
    (List.perm_insertionSort _ _).symm).eq_of_pairwise'
      (List.pairwise_insertionSort _ _) (List.pairwise_insertionSort _ _)

theorem rebuild_congr {raw other : Dict String (List Voice)}
    (same : ∀ provider, raw.lookup provider = other.lookup provider) :
    (rebuild raw).byProviderPublic = (rebuild other).byProviderPublic ∧
      (rebuild raw).byPublicId = (rebuild other).byPublicId ∧
      (rebuild raw).knownProviders = (rebuild other).knownProviders := by
  have values : raw.values.Perm other.values := (Dict.entries_perm_of_lookup same).map _
  have counts : idCounts raw = idCounts other := by
    funext id
    rw [idCounts_eq_count, idCounts_eq_count]
    exact (values.flatMap_right _).count_eq id
  have step : addProvider raw (idCounts raw) = addProvider other (idCounts other) := by
    funext built provider
    simp only [addProvider, rawList, same, counts]
  have keys := sortedKeys_congr same
  refine ⟨?_, ?_, keys⟩ <;> simp only [rebuild, step, keys]

end VoiceIndex

end Daemon

import Mathlib.Data.List.AList

/-! Insertion-ordered dictionaries: an assignment to a present key keeps its place, an
assignment to a fresh key appends. -/

namespace Library

universe u v

abbrev Dict (κ : Type u) (ν : Type v) := AList (fun _ : κ => ν)

namespace Dict

variable {κ : Type u} {ν : Type v} [DecidableEq κ]

def set (d : Dict κ ν) (k : κ) (value : ν) : Dict κ ν :=
  if member : k ∈ d then AList.replace k value d
  else ⟨d.entries ++ [⟨k, value⟩], by
    rw [List.NodupKeys, List.keys, List.map_append, List.nodup_append]
    refine ⟨d.nodupKeys, by simp, ?_⟩
    intro a inside b last
    simp only [List.map_cons, List.map_nil, List.mem_singleton] at last
    rintro rfl
    exact member (AList.mem_keys.mpr (last ▸ inside))⟩

def values (d : Dict κ ν) : List ν := d.entries.map Sigma.snd

theorem dlookup_kreplace (k k' : κ) (value : ν) (entries : List (Sigma fun _ : κ => ν))
    (present : k ∈ entries.keys) :
    (List.kreplace k value entries).dlookup k' =
      if k' = k then some value else entries.dlookup k' := by
  induction entries with
  | nil => cases present
  | cons entry rest ih =>
    obtain ⟨key, old⟩ := entry
    by_cases same : k = key
    · subst same
      simp only [List.kreplace]
      by_cases here : k' = k
      · subst here; simp
      · simp [here]
    · have later : k ∈ rest.keys := by simpa [same] using present
      have skip : List.kreplace k value (⟨key, old⟩ :: rest) =
          ⟨key, old⟩ :: List.kreplace k value rest := by
        simp [List.kreplace, List.lookmap_cons_none, same]
      rw [skip]
      by_cases here : k' = key
      · subst here
        have other : ¬ k' = k := fun h => same h.symm
        simp [other]
      · rw [List.dlookup_cons_ne _ _ here, List.dlookup_cons_ne _ _ here, ih later]

@[simp] theorem lookup_set (d : Dict κ ν) (k k' : κ) (value : ν) :
    (d.set k value).lookup k' = if k' = k then some value else d.lookup k' := by
  unfold set
  split
  · rename_i member
    exact dlookup_kreplace k k' value d.entries (AList.mem_keys.mp member)
  · rename_i fresh
    have missing : k ∉ d.entries.keys := fun h => fresh (AList.mem_keys.mpr h)
    simp only [AList.lookup, List.dlookup_append]
    by_cases here : k' = k
    · subst here
      simp [List.dlookup_eq_none.mpr missing]
    · simp [here]

theorem mem_set (d : Dict κ ν) (k k' : κ) (value : ν) : k' ∈ d.set k value ↔ k' = k ∨ k' ∈ d := by
  rw [← AList.lookup_isSome, ← AList.lookup_isSome, lookup_set]
  by_cases here : k' = k <;> simp [here]

theorem entries_set_of_notMem {d : Dict κ ν} {k : κ} (fresh : k ∉ d) (value : ν) :
    (d.set k value).entries = d.entries ++ [⟨k, value⟩] := by
  simp [set, fresh]

theorem filter_entries_key (d : Dict κ ν) (k : κ) :
    d.entries.filter (·.1 = k) = ((d.lookup k).map fun value => ⟨k, value⟩).toList := by
  have general : ∀ entries : List (Sigma fun _ : κ => ν), entries.NodupKeys →
      entries.filter (·.1 = k) = ((entries.dlookup k).map fun value => ⟨k, value⟩).toList := by
    intro entries
    induction entries with
    | nil => intro _; rfl
    | cons entry rest ih =>
      obtain ⟨key, value⟩ := entry
      intro distinct
      obtain ⟨fresh, distinctRest⟩ := List.nodupKeys_cons.mp distinct
      by_cases same : key = k
      · subst same
        have absent : rest.filter (·.1 = key) = [] := by
          rw [ih distinctRest, List.dlookup_eq_none.mpr fresh]
          rfl
        simp [absent]
      · have other : ¬ k = key := fun h => same h.symm
        rw [List.dlookup_cons_ne _ _ other, ← ih distinctRest]
        simp [same]
  exact general d.entries d.nodupKeys

theorem entries_perm_of_lookup {d e : Dict κ ν} (same : ∀ k, d.lookup k = e.lookup k) :
    d.entries.Perm e.entries := by
  refine List.lookup_ext d.nodupKeys e.nodupKeys ?_
  intro k value
  have equal : d.entries.dlookup k = e.entries.dlookup k := same k
  rw [equal]

theorem lookup_foldl_set {α : Type*} (key : α → κ) (value : α → ν) (writes : List α) (d : Dict κ ν) (k : κ) :
    (writes.foldl (fun d write => d.set (key write) (value write)) d).lookup k =
      ((writes.reverse.find? fun write => key write = k).map value).or (d.lookup k) := by
  induction writes generalizing d with
  | nil => rfl
  | cons write rest ih =>
    rw [List.foldl_cons, ih, List.reverse_cons, List.find?_append]
    cases rest.reverse.find? fun write => key write = k with
    | some later => rfl
    | none =>
      rw [lookup_set]
      by_cases same : k = key write
      · subst same
        simp
      · have other : ¬ key write = k := fun h => same h.symm
        simp [same, other]

theorem values_foldl_set {α : Type*} {key : α → κ} {value : α → ν} {writes : List α} {d : Dict κ ν}
    (distinct : (writes.map key).Nodup) (fresh : ∀ write ∈ writes, key write ∉ d) :
    (writes.foldl (fun d write => d.set (key write) (value write)) d).values =
      d.values ++ writes.map value := by
  induction writes generalizing d with
  | nil => simp
  | cons write rest ih =>
    obtain ⟨apart, distinctRest⟩ := List.nodup_cons.mp distinct
    have here := fresh write (by simp)
    have appended : (d.set (key write) (value write)).values = d.values ++ [value write] := by
      rw [values, entries_set_of_notMem here, List.map_append]
      rfl
    rw [List.foldl_cons, ih distinctRest, appended, List.append_assoc]
    · rfl
    · intro later member inside
      rcases (mem_set _ _ _ _).mp inside with same | old
      · exact apart (List.mem_map.mpr ⟨later, member, same⟩)
      · exact fresh later (List.mem_cons_of_mem _ member) old

theorem lookup_foldl_set_of_mem {α : Type*} {key : α → κ} {value : α → ν} {writes : List α}
    (distinct : (writes.map key).Nodup) {write : α} (member : write ∈ writes) (d : Dict κ ν) :
    (writes.foldl (fun d write => d.set (key write) (value write)) d).lookup (key write) =
      some (value write) := by
  rw [lookup_foldl_set]
  have found : writes.reverse.find? (fun other => key other = key write) = some write := by
    cases search : writes.reverse.find? fun other => key other = key write with
    | none =>
      have missed := List.find?_eq_none.mp search write (List.mem_reverse.mpr member)
      simp at missed
    | some other =>
      have same : key other = key write := by simpa using List.find?_some search
      have inside := List.mem_reverse.mp (List.mem_of_find?_eq_some search)
      rw [List.inj_on_of_nodup_map distinct inside member same]
  rw [found]
  rfl

end Dict

end Library

import NeuralTts.Daemon.Enumeration
import NeuralTts.Library.PyText

/-! The configuration: what `config.py` reads from `config.toml`, what `Supervisor.__init__` makes of it,
and what it comes to in the voice index. -/

namespace Daemon

open Library

/-- A value that `tomllib` returns; `other` is a float, a date or a time. -/
inductive Toml
  | text (s : String)
  | integer (n : Int)
  | boolean (value : Bool)
  | other (shown : String) (truth : Bool)
  | array (items : List Toml)
  | table (entries : List (String × Toml))

namespace Toml

def truthy : Toml → Bool
  | .text s => s ≠ ""
  | .integer n => n ≠ 0
  | .boolean value => value
  | .other _ truth => truth
  | .array items => !items.isEmpty
  | .table entries => !entries.isEmpty

/-- `str(v)`, where `repr` writes lists and tables. -/
def str (repr : Toml → String) : Toml → String
  | .text s => s
  | .integer n => String.ofList (PyText.showInt n)
  | .boolean value => if value then "True" else "False"
  | .other shown _ => shown
  | v => repr v

def asText : Toml → Option String
  | .text s => some s
  | _ => none

/-- A Boolean of Python is an integer too. -/
def asInt : Toml → Option Int
  | .integer n => some n
  | .boolean value => some (if value then 1 else 0)
  | _ => none

def asBool : Toml → Option Bool
  | .boolean value => some value
  | _ => none

def iterate : Toml → Option (List Toml)
  | .text s => some (s.toList.map fun c => .text (String.singleton c))
  | .array items => some items
  | .table entries => some (entries.map fun entry => .text entry.1)
  | _ => none

end Toml

/-- The value of a key in a table, which has each key once. -/
def latest {α : Type} (key : String) (rows : List (String × α)) : Option α :=
  (rows.reverse.find? fun row => row.1 = key).map Prod.snd

/-- The entries of `raw.get(key) or {}`. -/
def entriesOr (v : Option Toml) : Option (List (String × Toml)) :=
  match v.filter Toml.truthy with
  | some (.table entries) => some entries
  | some _ => none
  | none => some []

/-- The strings of `raw.get(key) or []`. -/
def textsOr (v : Option Toml) : Option (List String) :=
  match v.filter Toml.truthy with
  | some v => v.iterate.bind fun items => items.mapM Toml.asText
  | none => some []

/-- The keyword arguments `**raw.get(key, {})` for a class with these fields. -/
def keywords (fields : List String) : Option Toml → Option (List (String × Toml))
  | some (.table entries) => if entries.all fun entry => entry.1 ∈ fields then some entries else none
  | some _ => none
  | none => some []

def tagsOf (repr : Toml → String) (v : Toml) : Option (List String) :=
  let items := match v with
    | .text s => some [Toml.text s]
    | v => v.iterate
  items.map fun items => (items.map (Toml.str repr)).filter fun tag => PyText.strip tag.toList ≠ []

structure ProviderSettings where
  voices : List String
  env : Dict String String
  locales : List (String × List String)

/-- One round of the loop of `DaemonConfig.load`. -/
def ProviderSettings.load (repr : Toml → String) : Toml → Option ProviderSettings
  | .table settings => do
    let env ← entriesOr (latest "env" settings)
    let patterns ← entriesOr (latest "locales" settings)
    let locales ← patterns.mapM fun row => (tagsOf repr row.2).map fun tags => (row.1, tags)
    let voices ← textsOr (latest "voices" settings)
    return ⟨voices, env.foldl (fun d row => d.set row.1 (row.2.str repr)) ∅, locales⟩
  | _ => none

structure DaemonConfig where
  defaultProvider : String
  enabled : List String
  idleTimeoutSeconds : Int
  eagerStartup : Bool
  providers : Dict String ProviderSettings

/-- `DaemonConfig.load`; `none` is what raises there or in `Supervisor.__init__`, and a value of another type
than its field is declared with. -/
def DaemonConfig.load (repr : Toml → String) : Option (List (String × Toml)) → Option DaemonConfig
  | none => some ⟨"kokoro-onnx", [], 600, false, ∅⟩
  | some raw => do
    let tables ← entriesOr (latest "providers" raw)
    let providers ← tables.mapM fun row => (ProviderSettings.load repr row.2).map fun settings => (row.1, settings)
    let provider ← keywords ["default", "enabled"] (latest "provider" raw)
    let supervisor ← keywords ["idle_timeout_seconds", "eager_startup"] (latest "supervisor" raw)
    let defaultProvider ← ((latest "default" provider).getD (.text "kokoro-onnx")).asText
    let enabled ← textsOr (latest "enabled" provider)
    let idleTimeoutSeconds ← ((latest "idle_timeout_seconds" supervisor).getD (.integer 600)).asInt
    let eagerStartup ← ((latest "eager_startup" supervisor).getD (.boolean false)).asBool
    return ⟨defaultProvider, enabled, idleTimeoutSeconds, eagerStartup,
      providers.foldl (fun d row => d.set row.1 row.2) ∅⟩

/-- `registry.toml`, and which providers of it have been installed. -/
structure Repository where
  providers : List String
  distinct : providers.Nodup
  named : "" ∉ providers
  installed : String → Bool

namespace DaemonConfig

variable (config : DaemonConfig) (repo : Repository)

/-- What `run` gives to `Supervisor.__init__`. -/
def curation : Curation where
  voiceAllowlists := config.providers.entries.foldl (fun d row => d.set row.1 row.2.voices) ∅
  voiceLocaleOverrides :=
    (config.providers.entries.filter fun row => row.2.locales ≠ []).foldl (fun d row => d.set row.1 row.2.locales) ∅

def settings : Settings where
  toCuration := config.curation
  registry := repo.providers.filter (· ∈ config.enabled)
  distinct := repo.distinct.filter _
  named := fun member => repo.named (List.mem_of_mem_filter member)
  installed := repo.installed
  idleTimeoutSeconds := config.idleTimeoutSeconds
  eagerStartup := config.eagerStartup

/-- The default provider that `Supervisor.__init__` settles for. -/
def fallback : String :=
  match (config.settings repo).registry with
  | [] => config.defaultProvider
  | first :: rest => if config.defaultProvider ∈ first :: rest then config.defaultProvider else first

/-- The environment that `_spawn_locked` makes for the child. -/
def childEnv (environ : Dict String String) (childFd name : String) : Dict String String :=
  let env := ((config.providers.lookup name).map ProviderSettings.env).getD ∅
  let merged := env.entries.foldl (fun d row => d.set row.1 row.2) environ
  let told := (merged.set "NEURAL_TTS_PROVIDER_FD" childFd).set "PYTHONUNBUFFERED" "1"
  ((told.erase "LISTEN_FDS").erase "LISTEN_PID").erase "LISTEN_FDNAMES"

end DaemonConfig

/-! What the file says, as its reader understands it. -/

def tableOf : Option Toml → List (String × Toml)
  | some (.table entries) => entries
  | _ => []

def providerTable (raw : List (String × Toml)) (name : String) : List (String × Toml) :=
  tableOf (latest name (tableOf (latest "providers" raw)))

/-- Whether the list that is the value has the string; no value, or an empty one, has none. -/
def hasText (v : Option Toml) (s : String) : Bool :=
  match v.filter Toml.truthy with
  | some v => (v.iterate.getD []).any fun item => item.asText = some s
  | none => false

def Enables (raw : List (String × Toml)) (name : String) : Prop :=
  hasText (latest "enabled" (tableOf (latest "provider" raw))) name = true

def listed (table : List (String × Toml)) (id : String) : Bool :=
  ((latest "voices" table).filter Toml.truthy).isNone || hasText (latest "voices" table) id

/-- The first pattern that matches and has a tag to give decides the languages of the voice. -/
inductive Relocated (repr : Toml → String) (patterns : List (String × Toml)) (v : Voice) : Voice → Prop
  | moved {before after : List (String × Toml)} {pattern : String} {given : Toml} {tag : String} {others : List String}
      (first : patterns = before ++ (pattern, given) :: after)
      (passed : ∀ row ∈ before, fnmatchcase v.id row.1 = true → tagsOf repr row.2 = some [])
      (matched : fnmatchcase v.id pattern = true) (tags : tagsOf repr given = some (tag :: others)) :
      Relocated repr patterns v { v with language := tag, extraLanguages := others }
  | kept (passed : ∀ row ∈ patterns, fnmatchcase v.id row.1 = true → tagsOf repr row.2 = some []) :
      Relocated repr patterns v v

section

variable {repr : Toml → String} {α β : Type} {key name : String} {v w : Voice}

theorem latest_cons (row : String × α) (rest : List (String × α)) :
    latest key (row :: rest) = (latest key rest).or (if row.1 = key then some row.2 else none) := by
  rw [latest, List.reverse_cons, List.find?_append, latest]
  cases rest.reverse.find? fun row => row.1 = key with
  | some later => rfl
  | none =>
    by_cases same : row.1 = key
    · simp [same]
    · simp [same]

theorem latest_mapM {g : α → Option β} {rows : List (String × α)} {loaded : List (String × β)}
    (loads : (rows.mapM fun row => (g row.2).map fun w => (row.1, w)) = some loaded) :
    Option.Rel (fun v w => g v = some w) (latest key rows) (latest key loaded) := by
  induction rows generalizing loaded with
  | nil =>
    cases loads
    exact .none
  | cons row rest ih =>
    rw [List.mapM_cons] at loads
    obtain ⟨first, given, loads⟩ := Option.bind_eq_some_iff.mp loads
    obtain ⟨others, more, loads⟩ := Option.bind_eq_some_iff.mp loads
    cases loads
    obtain ⟨w, read, rfl⟩ := Option.map_eq_some_iff.mp given
    rw [latest_cons, latest_cons]
    have later := ih more
    generalize latest key rest = found at later ⊢
    generalize latest key others = found' at later ⊢
    cases later with
    | some same => exact .some same
    | none =>
      by_cases same : row.1 = key
      · simpa [same] using Option.Rel.some read
      · simp [same]

theorem lookup_rows (rows : List (String × α)) (d : Dict String α) :
    (rows.foldl (fun d row => d.set row.1 row.2) d).lookup key = (latest key rows).or (d.lookup key) :=
  Dict.lookup_foldl_set Prod.fst Prod.snd rows d key

/-- `{**e, **{k: f(v) for k, v in d.items() if keep(v)}}` -/
theorem lookup_items (d : Dict String α) (keep : α → Bool) (f : α → β) (e : Dict String β) :
    ((d.entries.filter fun row => keep row.2).foldl (fun (e : Dict String β) row => e.set row.1 (f row.2))
      e).lookup key = (((d.lookup key).filter keep).map f).or (e.lookup key) := by
  have written := Dict.lookup_foldl_set (fun row : Sigma fun _ : String => α => row.1) (fun row => f row.2)
    (d.entries.filter fun row => keep row.2) e key
  have chosen : ((d.entries.filter fun row => keep row.2).reverse.find? fun row => row.1 = key) =
      ((d.lookup key).filter keep).map fun value => ⟨key, value⟩ := by
    rw [← List.head?_filter, List.filter_reverse, List.filter_filter]
    simp only [Bool.and_comm]
    rw [← List.filter_filter, Dict.filter_entries_key]
    cases d.lookup key with
    | none => rfl
    | some value => cases kept : keep value <;> simp [kept]
  rw [written, chosen]
  cases (d.lookup key).filter keep <;> rfl

theorem lookup_update (d e : Dict String α) :
    (d.entries.foldl (fun (e : Dict String α) row => e.set row.1 row.2) e).lookup key =
      (d.lookup key).or (e.lookup key) := by
  have every := @lookup_items _ _ key d (fun _ => true) id e
  rw [List.filter_true] at every
  apply every.trans
  cases d.lookup key <;> rfl

def DaemonConfig.settingsOf (config : DaemonConfig) (name : String) : ProviderSettings :=
  (config.providers.lookup name).getD ⟨[], ∅, []⟩

theorem lookup_allowlists (config : DaemonConfig) :
    (config.curation.voiceAllowlists.lookup name).getD [] = (config.settingsOf name).voices := by
  have every := @lookup_items _ _ name config.providers (fun _ => true) ProviderSettings.voices ∅
  rw [List.filter_true] at every
  rw [DaemonConfig.curation, every, DaemonConfig.settingsOf]
  cases config.providers.lookup name <;> rfl

theorem lookup_overrides (config : DaemonConfig) :
    (config.curation.voiceLocaleOverrides.lookup name).getD [] = (config.settingsOf name).locales := by
  have every := @lookup_items _ _ name config.providers (fun s => s.locales ≠ []) ProviderSettings.locales ∅
  rw [DaemonConfig.curation, every, DaemonConfig.settingsOf]
  cases config.providers.lookup name with
  | none => rfl
  | some s =>
    by_cases empty : s.locales = []
    · rw [Option.filter_some_neg (by simpa using empty), Option.getD_some, empty]
      rfl
    · rw [Option.filter_some_pos (by simpa using empty)]
      rfl

theorem entriesOr_eq {v : Option Toml} {rows : List (String × Toml)} (read : entriesOr v = some rows) :
    rows = tableOf v := by
  cases v with
  | none =>
    cases read
    rfl
  | some v =>
    by_cases truthy : v.truthy = true
    · rw [entriesOr, Option.filter_some_pos truthy] at read
      cases v with
      | table entries =>
        cases read
        rfl
      | _ => cases read
    · rw [entriesOr, Option.filter_some_neg (Bool.eq_false_of_not_eq_true truthy)] at read
      cases read
      cases v with
      | table entries =>
        cases entries with
        | nil => rfl
        | cons _ _ => exact absurd rfl truthy
      | _ => rfl

theorem keywords_eq {fields : List String} {v : Option Toml} {rows : List (String × Toml)}
    (read : keywords fields v = some rows) : rows = tableOf v := by
  unfold keywords at read
  split at read
  · split at read
    · cases read
      rfl
    · cases read
  · cases read
  · cases read
    rfl

theorem mapM_asText {items : List Toml} {texts : List String} (read : items.mapM Toml.asText = some texts) :
    items = texts.map Toml.text := by
  induction items generalizing texts with
  | nil =>
    cases read
    rfl
  | cons item rest ih =>
    rw [List.mapM_cons] at read
    obtain ⟨s, first, read⟩ := Option.bind_eq_some_iff.mp read
    obtain ⟨others, more, read⟩ := Option.bind_eq_some_iff.mp read
    cases read
    cases item with
    | text =>
      cases first
      rw [ih more, List.map_cons]
    | _ => cases first

theorem iterate_ne_nil {v : Toml} {items : List Toml} (truthy : v.truthy = true) (read : v.iterate = some items) :
    items ≠ [] := by
  rintro rfl
  cases v with
  | text s => simp_all [Toml.truthy, Toml.iterate]
  | array => simp_all [Toml.truthy, Toml.iterate]
  | table => simp_all [Toml.truthy, Toml.iterate]
  | _ => cases read

theorem textsOr_cases {v : Option Toml} {texts : List String} (read : textsOr v = some texts) :
    (∀ s, s ∈ texts ↔ hasText v s = true) ∧ (texts = [] ↔ (v.filter Toml.truthy).isNone = true) := by
  unfold textsOr at read
  unfold hasText
  split at read
  · rename_i v found
    obtain ⟨items, iterated, read⟩ := Option.bind_eq_some_iff.mp read
    have some_item := iterate_ne_nil (Option.filter_eq_some_iff.mp found).2 iterated
    cases mapM_asText read
    simp only [found, iterated, Option.getD_some, Option.isNone_some]
    constructor
    · intro s
      simp [Toml.asText]
    · simpa using some_item
  · rename_i missing
    cases read
    simp [missing]

theorem load_some {raw : List (String × Toml)} {config : DaemonConfig}
    (loaded : DaemonConfig.load repr (some raw) = some config) :
    (∀ name, Option.Rel (fun v s => ProviderSettings.load repr v = some s)
      (latest name (tableOf (latest "providers" raw))) (config.providers.lookup name)) ∧
      ∀ name, name ∈ config.enabled ↔ Enables raw name := by
  unfold DaemonConfig.load at loaded
  obtain ⟨tables, read, loaded⟩ := Option.bind_eq_some_iff.mp loaded
  obtain ⟨providers, each, loaded⟩ := Option.bind_eq_some_iff.mp loaded
  obtain ⟨provider, given, loaded⟩ := Option.bind_eq_some_iff.mp loaded
  obtain ⟨supervisor, -, loaded⟩ := Option.bind_eq_some_iff.mp loaded
  obtain ⟨defaultProvider, -, loaded⟩ := Option.bind_eq_some_iff.mp loaded
  obtain ⟨enabled, names, loaded⟩ := Option.bind_eq_some_iff.mp loaded
  obtain ⟨idleTimeoutSeconds, -, loaded⟩ := Option.bind_eq_some_iff.mp loaded
  obtain ⟨eagerStartup, -, loaded⟩ := Option.bind_eq_some_iff.mp loaded
  cases loaded
  constructor
  · intro name
    have row := @latest_mapM _ _ name _ _ _ each
    rw [entriesOr_eq read] at row
    rw [lookup_rows, show (∅ : Dict String ProviderSettings).lookup name = none from rfl, Option.or_none]
    exact row
  · intro name
    rw [Enables, ← keywords_eq given]
    exact (textsOr_cases names).1 name

theorem Relocated.cons {row : String × Toml} {patterns : List (String × Toml)}
    (passes : fnmatchcase v.id row.1 = true → tagsOf repr row.2 = some []) (moves : Relocated repr patterns v w) :
    Relocated repr (row :: patterns) v w := by
  cases moves with
  | @moved before after pattern given tag others first passed matched tags =>
    rw [first]
    exact @Relocated.moved _ _ _ (row :: before) _ _ _ _ _ rfl (List.forall_mem_cons.mpr ⟨passes, passed⟩) matched tags
  | kept passed => exact .kept (List.forall_mem_cons.mpr ⟨passes, passed⟩)

theorem tagsOf_filled {given : Toml} {tags : List String} (read : tagsOf repr given = some tags) :
    tags.filter (· ≠ "") = tags := by
  obtain ⟨items, -, rfl⟩ := Option.map_eq_some_iff.mp read
  rw [List.filter_filter]
  apply List.filter_congr
  intro tag _
  by_cases empty : tag = ""
  · subst empty
    rfl
  · simp [empty]

theorem relocated_overrides {patterns : List (String × Toml)} {locales : List (String × List String)}
    (loads : (patterns.mapM fun row => (tagsOf repr row.2).map fun tags => (row.1, tags)) = some locales) (v : Voice) :
    Relocated repr patterns v (Curation.relocate ((locales.map fun (pattern, tags) =>
      (pattern, tags.filter (· ≠ ""))).filter fun entry => entry.2 ≠ []) v) := by
  induction patterns generalizing locales with
  | nil =>
    cases loads
    exact .kept nofun
  | cons row rest ih =>
    rw [List.mapM_cons] at loads
    obtain ⟨first, given, loads⟩ := Option.bind_eq_some_iff.mp loads
    obtain ⟨others, more, loads⟩ := Option.bind_eq_some_iff.mp loads
    cases loads
    obtain ⟨tags, read, rfl⟩ := Option.map_eq_some_iff.mp given
    have later := ih more
    rw [List.map_cons]
    change Relocated repr (row :: rest) v (Curation.relocate (((row.1, tags.filter (· ≠ "")) :: _).filter _) v)
    rw [tagsOf_filled read]
    cases tags with
    | nil => exact later.cons fun _ => read
    | cons tag tags =>
      rw [List.filter_cons_of_pos rfl]
      by_cases matched : fnmatchcase v.id row.1 = true
      · have taken := @Relocated.moved _ _ v [] rest _ _ _ _ rfl nofun matched read
        simpa [Curation.relocate, matchLocaleOverride, matched] using taken
      · have passed := later.cons fun found => absurd found matched
        simpa [Curation.relocate, matchLocaleOverride, matched] using passed

theorem allowed_listed {table : List (String × Toml)} {texts : List String}
    (read : textsOr (latest "voices" table) = some texts) (c : Curation)
    (allowlist : (c.voiceAllowlists.lookup name).getD [] = texts) (reported : List Voice) :
    c.allowed name reported = reported.filter fun v => listed table v.id := by
  obtain ⟨members, empty⟩ := textsOr_cases read
  rw [Curation.allowed, allowlist]
  cases texts with
  | nil => simp [listed, empty.mp rfl]
  | cons first rest =>
    have present : ((latest "voices" table).filter Toml.truthy).isNone = false := by
      rw [Bool.eq_false_iff]
      exact fun missing => List.cons_ne_nil _ _ (empty.mpr missing)
    apply List.filter_congr
    intro v _
    rw [listed, present, Bool.false_or, Bool.eq_iff_iff, decide_eq_true_iff]
    exact members v.id

theorem load_settingsOf {raw : List (String × Toml)} {config : DaemonConfig}
    (loaded : DaemonConfig.load repr (some raw) = some config) (name : String) :
    let table := providerTable raw name
    let settings := config.settingsOf name
    textsOr (latest "voices" table) = some settings.voices ∧
      settings.env = (tableOf (latest "env" table)).foldl (fun d row => d.set row.1 (row.2.str repr)) ∅ ∧
      ((tableOf (latest "locales" table)).mapM fun row => (tagsOf repr row.2).map fun tags => (row.1, tags)) =
        some settings.locales := by
  have row := (load_some loaded).1 name
  simp only [providerTable, DaemonConfig.settingsOf]
  generalize latest name (tableOf (latest "providers" raw)) = given at row ⊢
  generalize config.providers.lookup name = settings at row ⊢
  cases row with
  | none => exact ⟨rfl, rfl, rfl⟩
  | @some v settings same =>
    cases v with
    | table entries =>
      obtain ⟨env, own, same⟩ := Option.bind_eq_some_iff.mp same
      obtain ⟨patterns, given, same⟩ := Option.bind_eq_some_iff.mp same
      obtain ⟨locales, loads, same⟩ := Option.bind_eq_some_iff.mp same
      obtain ⟨voices, read, same⟩ := Option.bind_eq_some_iff.mp same
      cases same
      rw [entriesOr_eq given] at loads
      rw [entriesOr_eq own]
      exact ⟨read, rfl, loads⟩
    | _ => cases same

theorem curated {raw : List (String × Toml)} {config : DaemonConfig}
    (loaded : DaemonConfig.load repr (some raw) = some config) (name : String) (reported : List Voice) :
    List.Forall₂ (Relocated repr (tableOf (latest "locales" (providerTable raw name))))
      (reported.filter fun v => listed (providerTable raw name) v.id) (config.curation.apply name reported) := by
  obtain ⟨read, -, loads⟩ := load_settingsOf loaded name
  rw [Curation.apply, allowed_listed read _ (lookup_allowlists config), Curation.overridesFor, lookup_overrides]
  apply List.forall₂_map_right_iff.mpr
  apply List.forall₂_same.mpr
  intro v _
  exact relocated_overrides loads v

theorem lookup_childEnv {raw : List (String × Toml)} {config : DaemonConfig}
    (loaded : DaemonConfig.load repr (some raw) = some config) (environ : Dict String String)
    (childFd name key : String) :
    (config.childEnv environ childFd name).lookup key =
      if key ∈ ["LISTEN_FDS", "LISTEN_PID", "LISTEN_FDNAMES"] then none
      else if key = "PYTHONUNBUFFERED" then some "1"
      else if key = "NEURAL_TTS_PROVIDER_FD" then some childFd
      else ((latest key (tableOf (latest "env" (providerTable raw name)))).map (Toml.str repr)).or
        (environ.lookup key) := by
  obtain ⟨-, own, -⟩ := load_settingsOf loaded name
  have env : ((config.providers.lookup name).map ProviderSettings.env).getD ∅ = (config.settingsOf name).env := by
    rw [DaemonConfig.settingsOf]
    cases config.providers.lookup name <;> rfl
  have found : (config.settingsOf name).env.lookup key =
      (latest key (tableOf (latest "env" (providerTable raw name)))).map (Toml.str repr) := by
    rw [own]
    generalize tableOf (latest "env" (providerTable raw name)) = table
    rw [Dict.lookup_foldl_set Prod.fst fun row : String × Toml => row.2.str repr, latest, Option.map_map]
    exact Option.or_none
  simp only [DaemonConfig.childEnv, env]
  split
  · rename_i activation
    simp only [List.mem_cons, List.not_mem_nil, or_false] at activation
    rcases activation with rfl | rfl | rfl
    · rw [AList.lookup_erase_ne (by decide), AList.lookup_erase_ne (by decide), AList.lookup_erase]
    · rw [AList.lookup_erase_ne (by decide), AList.lookup_erase]
    · rw [AList.lookup_erase]
  · rename_i other
    simp only [List.mem_cons, List.not_mem_nil, or_false, not_or] at other
    rw [AList.lookup_erase_ne other.2.2, AList.lookup_erase_ne other.2.1, AList.lookup_erase_ne other.1,
      Dict.lookup_set, Dict.lookup_set, lookup_update, found]

theorem fallback_registered (config : DaemonConfig) (repo : Repository)
    (some_provider : (config.settings repo).registry ≠ []) :
    config.fallback repo ∈ (config.settings repo).registry := by
  unfold DaemonConfig.fallback
  split
  · rename_i none_enabled
    exact absurd none_enabled some_provider
  · rename_i first rest enabled
    rw [enabled]
    split
    · assumption
    · exact List.mem_cons_self

structure Configured (repr : Toml → String) (raw : List (String × Toml)) (config : DaemonConfig) (repo : Repository) (h : Host)
    (idx : VoiceIndex) (active : Option ActiveProvider) : Prop where
  /-- A provider that the file enables, that the registry knows, that is installed and that starts has in the
  index what it reports, less what its allowlist leaves out, in the languages that its locale patterns say. -/
  indexed : ∀ name ∈ repo.providers, Enables raw name → repo.installed name = true →
    Option.Rel (fun reported voices =>
      List.Forall₂ (Relocated repr (tableOf (latest "locales" (providerTable raw name))))
        (reported.filter fun v => listed (providerTable raw name) v.id) voices)
      (h.listing name) ((h.enumerateAllVoices (config.settings repo) idx active).2.byProviderRaw.lookup name)
  others : ∀ name, ¬(name ∈ repo.providers ∧ Enables raw name ∧ repo.installed name = true) →
    (h.enumerateAllVoices (config.settings repo) idx active).2.byProviderRaw.lookup name = none
  /-- A variable of its `env` table takes the place of the daemon's own, except for those of the channel, and
  the child hears nothing of socket activation. -/
  environment : ∀ environ childFd name key, (config.childEnv environ childFd name).lookup key =
    if key ∈ ["LISTEN_FDS", "LISTEN_PID", "LISTEN_FDNAMES"] then none
    else if key = "PYTHONUNBUFFERED" then some "1"
    else if key = "NEURAL_TTS_PROVIDER_FD" then some childFd
    else ((latest key (tableOf (latest "env" (providerTable raw name)))).map (Toml.str repr)).or (environ.lookup key)
  default : (config.settings repo).registry ≠ [] → config.fallback repo ∈ (config.settings repo).registry

/-- The process that is active at the enumeration remembers the list that it would report, or is torn down
quietly for another; the first enumeration finds none. -/
theorem enumerated_configured (repr : Toml → String) (file : Option (List (String × Toml))) (config : DaemonConfig)
    (loaded : DaemonConfig.load repr file = some config) (repo : Repository) (h : Host) (idx : VoiceIndex)
    (active : Option ActiveProvider)
    (unbiased : ∀ a, active = some a → h.Unbiased (config.settings repo) (config.settings repo).names a) :
    Configured repr (file.getD []) config repo h idx active := by
  have same : DaemonConfig.load repr (some (file.getD [])) = some config := by
    cases file with
    | none => exact loaded
    | some raw => exact loaded
  have registered (name : String) :
      name ∈ (config.settings repo).registry ↔ name ∈ repo.providers ∧ Enables (file.getD []) name := by
    rw [DaemonConfig.settings, List.mem_filter, decide_eq_true_iff, (load_some same).2 name]
  have swept (name : String) :
      (h.enumerateAllVoices (config.settings repo) idx active).2.byProviderRaw.lookup name =
        (((config.settings repo).names.foldl (h.enumerateProvider (config.settings repo)) (active, ∅)).2.lookup name).map
          ((config.settings repo).apply name) := Host.lookup_populate _ _ _ _
  constructor
  · intro name inRegistry enables installed
    have inside := Host.mem_names.mpr ((registered name).mpr ⟨inRegistry, enables⟩)
    rw [swept, (Host.lookup_sweep_iff _ h active).mpr unbiased name inside installed]
    cases h.listing name with
    | none => exact .none
    | some reported => exact .some (curated same name reported)
  · intro name unknown
    rw [swept, Host.lookup_sweep_other active fun known =>
      unknown ⟨((registered name).mp known.1).1, ((registered name).mp known.1).2, known.2⟩]
    rfl
  · exact lookup_childEnv same
  · exact fallback_registered config repo

def australianLocales : List (String × Toml) :=
  [("af_*", .array [.text " "]), ("*_sky", .array [.text "en-AU", .text "en-NZ"])]

def australian : List (String × Toml) :=
  [("provider", .table [("enabled", .array [.text "kokoro-onnx"])]),
    ("providers", .table [("kokoro-onnx", .table [("voices", .array [.text "af_sky", .text "bm_lewis"]),
      ("locales", .table australianLocales)])])]

def freshCheckout : Repository :=
  ⟨["kokoro-onnx", "pocket-tts"], by decide, by decide, fun name => name = "kokoro-onnx"⟩

def kokoroHost : Host where
  reports := fun _ => some [⟨"af_sky", "en-US", .female, ""⟩, ⟨"bf_emma", "en-GB", .female, ""⟩]
  teardownRaises := fun _ => false

def eagerlyStarted : ActiveProvider :=
  ⟨"kokoro-onnx", .ready, [⟨"af_sky", "en-US", .female, none, []⟩, ⟨"bf_emma", "en-GB", .female, none, []⟩]⟩

theorem australian_enumerated : ∃ config, DaemonConfig.load (fun _ => "") (some australian) = some config ∧
    ∃ voices,
      (kokoroHost.enumerateAllVoices (config.settings freshCheckout) .new (some eagerlyStarted)).2.byProviderRaw.lookup
        "kokoro-onnx" = some voices ∧
      List.Forall₂ (Relocated (fun _ => "") australianLocales) [⟨"af_sky", "en-US", .female, none, []⟩] voices := by
  have loads : (DaemonConfig.load (fun _ => "") (some australian)).isSome = true := rfl
  obtain ⟨config, loaded⟩ := Option.isSome_iff_exists.mp loads
  refine ⟨config, loaded, ?_⟩
  have unbiased : ∀ a, some eagerlyStarted = some a →
      kokoroHost.Unbiased (config.settings freshCheckout) (config.settings freshCheckout).names a := by
    rintro a ⟨⟩
    exact ⟨fun _ _ => rfl, fun _ _ raises => nomatch raises⟩
  have enables : Enables australian "kokoro-onnx" := by
    unfold Enables
    decide +kernel
  have configured := enumerated_configured (fun _ => "") (some australian) config loaded freshCheckout kokoroHost .new
    (some eagerlyStarted) unbiased
  have indexed := configured.indexed "kokoro-onnx" (by decide) enables rfl
  have listing : kokoroHost.listing "kokoro-onnx" =
      some [⟨"af_sky", "en-US", .female, none, []⟩, ⟨"bf_emma", "en-GB", .female, none, []⟩] := rfl
  rw [listing] at indexed
  generalize AList.lookup "kokoro-onnx" _ = found at indexed ⊢
  cases indexed with
  | @some _ voices moved => exact ⟨voices, rfl, moved⟩

end

end Daemon

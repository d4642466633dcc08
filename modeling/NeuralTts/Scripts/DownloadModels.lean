import NeuralTts.Daemon.Protocol
import NeuralTts.Library.Cache
import NeuralTts.Library.Transition
import Mathlib.Data.List.Infix

/-! How the model files of a provider are fetched (`download_models.py`), over any sequence of runs, each
of which may fail or be killed between any two of its steps. -/

namespace Scripts

open Daemon Library

/-- A row of the tables: the name, the URL and `approx_size_bytes`. -/
structure ModelFile where
  name : String
  url : String
  expected : Nat
deriving DecidableEq

def kokoroFiles : List ModelFile := [
  ⟨"kokoro-v1.0.fp16-gpu.onnx",
    "https://github.com/thewh1teagle/kokoro-onnx/releases/download/model-files-v1.0/kokoro-v1.0.fp16-gpu.onnx",
    169 * 1024 * 1024⟩,
  ⟨"voices-v1.0.bin",
    "https://github.com/thewh1teagle/kokoro-onnx/releases/download/model-files-v1.0/voices-v1.0.bin",
    27 * 1024 * 1024⟩]

def kokoroInt8Files : List ModelFile := [
  ⟨"kokoro-v1.0.int8.onnx",
    "https://github.com/thewh1teagle/kokoro-onnx/releases/download/model-files-v1.0/kokoro-v1.0.int8.onnx",
    88 * 1024 * 1024⟩]

/-- What `main` fetches for `kokoro-onnx`, with one call of `_fetch_set` after the other. -/
def kokoroSet (withInt8 : Bool) : List ModelFile := kokoroFiles ++ if withInt8 then kokoroInt8Files else []

/-- `_size_ok` of a file that exists: within five percent or one MiB. The product of floats there is
near enough to the fraction that no whole number lies between the two. -/
def sizeOk (actual expected : Nat) : Bool :=
  20 * ((actual : Int) - expected).natAbs ≤ max expected (20 * (1024 * 1024))

/-- `dest.with_suffix(dest.suffix + ".partial")` -/
def partialPath (name : String) : String := name ++ ".partial"

/-- Where a run of `_fetch_set` stands: at the top of its loop, or in `_download` for one file. -/
inductive FetchPoint
  | idle
  | checking (todo : List ModelFile)
  | requesting (file : ModelFile) (todo : List ModelFile)
  | writing (file : ModelFile) (written : Bytes) (todo : List ModelFile)
  | renaming (file : ModelFile) (todo : List ModelFile)
  | returned

structure Fetching where
  modelsDir : Cache String Bytes
  /-- What the run that was started last is to fetch. -/
  files : List ModelFile
  point : FetchPoint
  /-- All that was read of a response until `read` gave nothing more, by URL; a record that the script does
  not keep. A connection that is closed early gives nothing more either. -/
  bodies : List (String × Bytes)

inductive FetchAct
  | start (files : List ModelFile)
  | check
  | openUrl
  | read (chunk : Bytes)
  | eof
  | rename
  /-- An exception, a signal or a crash ends the run; of what was written so far `kept` bytes are in
  the file. -/
  | stop (kept : Nat)

namespace Fetching

variable (s : Fetching)

def Enabled : FetchAct → Prop
  | .start _ => s.point = .idle ∨ s.point = .returned
  | .check => ∃ todo, s.point = .checking todo
  | .openUrl => ∃ file todo, s.point = .requesting file todo
  | .read chunk => (∃ file written todo, s.point = .writing file written todo) ∧ chunk ≠ [] ∧
      chunk.length ≤ 2 ^ 20
  | .eof => ∃ file written todo, s.point = .writing file written todo
  | .rename => ∃ file todo, s.point = .renaming file todo
  | .stop _ => s.point ≠ .idle ∧ s.point ≠ .returned

/-- The top of the loop of `_fetch_set`. -/
def check : List ModelFile → Fetching
  | [] => { s with point := .returned }
  | file :: todo =>
    match s.modelsDir file.name with
    | none => { s with point := .requesting file todo }
    | some content =>
      if sizeOk content.length file.expected then { s with point := .checking todo }
      else { s with modelsDir := Function.update s.modelsDir file.name none, point := .requesting file todo }

/-- `partial.rename(dest)` -/
def rename (file : ModelFile) (todo : List ModelFile) : Fetching :=
  let dest := Function.update s.modelsDir file.name (s.modelsDir (partialPath file.name))
  { s with modelsDir := Function.update dest (partialPath file.name) none, point := .checking todo }

def write (file : ModelFile) (written : Bytes) (todo : List ModelFile) : Fetching :=
  { s with
    modelsDir := s.modelsDir.put (partialPath file.name) written
    point := .writing file written todo }

def stop (kept : Nat) : Fetching :=
  match s.point with
  | .writing file written todo => { s.write file (written.take kept) todo with point := .idle }
  | _ => { s with point := .idle }

/-- `_fetch_set` and `_download`, one effect after another. -/
def next (act : FetchAct) : Fetching :=
  match act, s.point with
  | .start files, _ => { s with files := files, point := .checking files }
  | .check, .checking todo => s.check todo
  | .openUrl, .requesting file todo => s.write file [] todo
  | .read chunk, .writing file written todo => s.write file (written ++ chunk) todo
  | .eof, .writing file written todo =>
    { s with point := .renaming file todo, bodies := (file.url, written) :: s.bodies }
  | .rename, .renaming file todo => s.rename file todo
  | .stop kept, _ => s.stop kept
  | _, _ => s

def system : System Fetching FetchAct where
  enabled := Enabled
  next := next

def before (modelsDir : Cache String Bytes) : Fetching := ⟨modelsDir, [], .idle, []⟩

end Fetching

def FetchAct.Within (files : List ModelFile) : FetchAct → Prop
  | .start chosen => ∀ file ∈ chosen, file ∈ files
  | _ => True

/-- The names of the files and of their unfinished downloads are all different. -/
structure Separate (files : List ModelFile) : Prop where
  names : ∀ a ∈ files, ∀ b ∈ files, a.name = b.name → a = b
  partials : ∀ a ∈ files, ∀ b ∈ files, partialPath a.name ≠ b.name

theorem kokoro_separate (withInt8 : Bool) : Separate (kokoroSet withInt8) := by
  cases withInt8 <;> constructor <;> decide

def FetchPoint.current : FetchPoint → Option ModelFile
  | .requesting file _ | .writing file _ _ | .renaming file _ => some file
  | .idle | .checking _ | .returned => none

def FetchPoint.pending : FetchPoint → List ModelFile
  | .requesting file todo | .writing file _ todo | .renaming file todo => file :: todo
  | .checking todo => todo
  | .idle | .returned => []

namespace Fetching

def Fetched (s : Fetching) (file : ModelFile) : Prop :=
  ∃ body, s.modelsDir file.name = some body ∧
    (sizeOk body.length file.expected = true ∨ (file.url, body) ∈ s.bodies)

/-- What stands under the two names of a file, given what was there at first. -/
structure Whole (initial : Cache String Bytes) (s : Fetching) (file : ModelFile) : Prop where
  origin : ∀ body, s.modelsDir file.name = some body →
    initial file.name = some body ∨ (file.url, body) ∈ s.bodies
  unfinished : s.modelsDir (partialPath file.name) = initial (partialPath file.name) ∨
    s.modelsDir (partialPath file.name) = none ∨ s.modelsDir file.name = none

def Held (s : Fetching) : Prop :=
  match s.point with
  | .writing file written _ => s.modelsDir (partialPath file.name) = some written
  | .renaming file _ => ∃ body, s.modelsDir (partialPath file.name) = some body ∧ (file.url, body) ∈ s.bodies
  | _ => True

def Untouched (files : List ModelFile) (initial : Cache String Bytes) (s : Fetching) : Prop :=
  ∀ name, (∀ file ∈ files, name ≠ file.name ∧ name ≠ partialPath file.name) →
    s.modelsDir name = initial name

structure Kept (files : List ModelFile) (initial : Cache String Bytes) (s : Fetching) : Prop where
  tables : ∀ file ∈ s.files, file ∈ files
  listed : ∀ file ∈ s.point.pending, file ∈ files
  absent : ∀ file, s.point.current = some file → s.modelsDir file.name = none
  held : s.Held
  whole : ∀ file ∈ files, Whole initial s file
  fetched : s.point ≠ .idle → ∀ file ∈ s.files, file ∈ s.point.pending ∨ s.Fetched file
  untouched : Untouched files initial s

/-- A step that only the two names of `file` may notice. -/
structure Leaves (file : ModelFile) (s t : Fetching) : Prop where
  elsewhere : ∀ name, name ≠ file.name → name ≠ partialPath file.name → t.modelsDir name = s.modelsDir name
  bodies : s.bodies ⊆ t.bodies
  files : t.files = s.files

section

variable {files todo : List ModelFile} {initial : Cache String Bytes} {s t : Fetching}
  {file other : ModelFile} {written : Bytes} {act : FetchAct}

theorem next_check (checks : s.point = .checking todo) : s.next .check = s.check todo := by
  simp only [next, checks]

theorem next_openUrl (requests : s.point = .requesting file todo) :
    s.next .openUrl = s.write file [] todo := by
  simp only [next, requests]

theorem next_read (writes : s.point = .writing file written todo) (chunk : Bytes) :
    s.next (.read chunk) = s.write file (written ++ chunk) todo := by
  simp only [next, writes]

theorem next_eof (writes : s.point = .writing file written todo) :
    s.next .eof = { s with point := .renaming file todo, bodies := (file.url, written) :: s.bodies } := by
  simp only [next, writes]

theorem next_rename (renames : s.point = .renaming file todo) :
    s.next .rename = s.rename file todo := by
  simp only [next, renames]

theorem partialPath_injective {a b : String} (same : partialPath a = partialPath b) : a = b := by
  have chars : a.toList ++ ".partial".toList = b.toList ++ ".partial".toList := by
    rw [← String.toList_append, ← String.toList_append]
    exact congrArg String.toList same
  exact String.toList_inj.mp (List.append_cancel_right chars)

theorem partialPath_ne_self (name : String) : partialPath name ≠ name := by
  intro same
  have longer := congrArg String.length same
  rw [partialPath, String.length_append] at longer
  have eight : ".partial".length = 8 := by decide
  omega

theorem Whole.congr (whole : Whole initial s file) (same : t.modelsDir = s.modelsDir)
    (bodies : s.bodies ⊆ t.bodies) : Whole initial t file := by
  constructor
  · intro body found
    rw [same] at found
    exact (whole.origin body found).imp_right fun received => bodies received
  · rw [same]
    exact whole.unfinished

theorem Leaves.refl (same : t.modelsDir = s.modelsDir) (bodies : s.bodies ⊆ t.bodies) (files : t.files = s.files) :
    Leaves file s t where
  elsewhere name _ _ := congrFun same name
  bodies := bodies
  files := files

theorem Leaves.name (leaves : Leaves file s t) (separate : Separate files) (member : file ∈ files)
    (there : other ∈ files) (different : other ≠ file) : t.modelsDir other.name = s.modelsDir other.name := by
  apply leaves.elsewhere
  · exact fun same => different (separate.names other there file member same)
  · exact fun same => separate.partials file member other there same.symm

theorem Leaves.unfinished (leaves : Leaves file s t) (separate : Separate files) (member : file ∈ files)
    (there : other ∈ files) (different : other ≠ file) :
    t.modelsDir (partialPath other.name) = s.modelsDir (partialPath other.name) := by
  apply leaves.elsewhere
  · exact separate.partials other there file member
  · exact fun same => different (separate.names other there file member (partialPath_injective same))

theorem Leaves.whole (leaves : Leaves file s t) (separate : Separate files) (member : file ∈ files)
    (there : other ∈ files) (different : other ≠ file) (whole : Whole initial s other) :
    Whole initial t other := by
  constructor
  · intro body found
    rw [leaves.name separate member there different] at found
    exact (whole.origin body found).imp_right fun received => leaves.bodies received
  · rw [leaves.name separate member there different, leaves.unfinished separate member there different]
    exact whole.unfinished

theorem Leaves.fetched (leaves : Leaves file s t) (separate : Separate files) (member : file ∈ files)
    (there : other ∈ files) (different : other ≠ file) (fetched : s.Fetched other) : t.Fetched other := by
  obtain ⟨body, found, right⟩ := fetched
  refine ⟨body, ?_, right.imp_right fun received => leaves.bodies received⟩
  rw [leaves.name separate member there different, found]

/-- What is to be shown of a step that works on one file. -/
theorem Kept.work (kept : Kept files initial s) (separate : Separate files) (member : file ∈ files)
    (leaves : Leaves file s t) (whole : Whole initial t file) (held : t.Held)
    (absent : ∀ other, t.point.current = some other → t.modelsDir other.name = none)
    (pending : ∀ other ∈ t.point.pending, other ∈ s.point.pending)
    (covers : t.point ≠ .idle → s.point ≠ .idle ∧ (file ∈ t.point.pending ∨ t.Fetched file) ∧
      ∀ other ∈ s.point.pending, other ≠ file → other ∈ t.point.pending) : Kept files initial t where
  tables := leaves.files ▸ kept.tables
  listed other inside := kept.listed other (pending other inside)
  absent := absent
  held := held
  whole other there := by
    by_cases same : other = file
    · rw [same]
      exact whole
    · exact leaves.whole separate member there same (kept.whole other there)
  fetched running other there := by
    obtain ⟨before, own, others⟩ := covers running
    rw [leaves.files] at there
    by_cases same : other = file
    · rw [same]
      exact own
    · rcases kept.fetched before other there with inside | fetched
      · exact .inl (others other inside same)
      · exact .inr (leaves.fetched separate member (kept.tables other there) same fetched)
  untouched name apart := by
    rw [leaves.elsewhere name (apart file member).1 (apart file member).2]
    exact kept.untouched name apart

theorem write_leaves : Leaves file s (s.write file written todo) where
  elsewhere _ _ different := Cache.put_of_ne different written
  bodies := List.Subset.refl _
  files := rfl

theorem write_name : (s.write file written todo).modelsDir file.name = s.modelsDir file.name :=
  Cache.put_of_ne (partialPath_ne_self file.name).symm written

theorem write_absent (absent : s.modelsDir file.name = none) :
    Whole initial (s.write file written todo) file where
  origin body found := by
    rw [write_name, absent] at found
    cases found
  unfinished := by
    rw [write_name]
    exact .inr (.inr absent)

theorem kept_write (kept : Kept files initial s) (separate : Separate files)
    (current : s.point.current = some file) (pending : s.point.pending = file :: todo)
    (running : s.point ≠ .idle) : Kept files initial (s.write file written todo) := by
  have absent := kept.absent file current
  apply kept.work separate (kept.listed file (by simp [pending])) write_leaves (write_absent absent)
  · exact Cache.put_self _ _
  · intro other here
    cases here
    rw [write_name]
    exact absent
  · intro other inside
    rw [pending]
    exact inside
  · intro _
    refine ⟨running, .inl List.mem_cons_self, ?_⟩
    intro other inside _
    rw [pending] at inside
    exact inside

theorem kept_received (kept : Kept files initial s) (separate : Separate files)
    (writes : s.point = .writing file written todo) :
    Kept files initial { s with point := .renaming file todo, bodies := (file.url, written) :: s.bodies } := by
  have pending : s.point.pending = file :: todo := by rw [writes]; rfl
  have member : file ∈ files := kept.listed file (by simp [pending])
  have absent : s.modelsDir file.name = none := kept.absent file (by rw [writes]; rfl)
  have held := kept.held
  rw [Held, writes] at held
  have leaves : Leaves file s { s with
      point := .renaming file todo, bodies := (file.url, written) :: s.bodies } :=
    .refl rfl (List.subset_cons_self _ _) rfl
  apply kept.work separate member leaves
  · exact (kept.whole file member).congr rfl (List.subset_cons_self _ _)
  · exact ⟨written, held, List.mem_cons_self⟩
  · intro other here
    cases here
    exact absent
  · intro other inside
    rw [pending]
    exact inside
  · intro _
    refine ⟨by simp [writes], .inl List.mem_cons_self, ?_⟩
    intro other inside _
    rw [pending] at inside
    exact inside

theorem rename_leaves : Leaves file s (s.rename file todo) where
  elsewhere name different apart := by
    simp only [rename, Function.update_of_ne apart, Function.update_of_ne different]
  bodies := List.Subset.refl _
  files := rfl

theorem rename_name : (s.rename file todo).modelsDir file.name = s.modelsDir (partialPath file.name) := by
  simp only [rename, Function.update_of_ne (partialPath_ne_self file.name).symm, Function.update_self]

theorem kept_rename (kept : Kept files initial s) (separate : Separate files)
    (renames : s.point = .renaming file todo) : Kept files initial (s.rename file todo) := by
  have pending : s.point.pending = file :: todo := by rw [renames]; rfl
  have member : file ∈ files := kept.listed file (by simp [pending])
  have held := kept.held
  rw [Held, renames] at held
  obtain ⟨body, finished, received⟩ := held
  have moved : (s.rename file todo).modelsDir file.name = some body := by rw [rename_name, finished]
  apply kept.work separate member rename_leaves
  · constructor
    · intro content found
      rw [moved] at found
      cases found
      exact .inr received
    · right
      left
      exact Function.update_self ..
  · trivial
  · exact fun _ here => nomatch here
  · intro other inside
    rw [pending]
    exact List.mem_cons_of_mem file inside
  · intro _
    refine ⟨by simp [renames], .inr ⟨body, moved, .inr received⟩, ?_⟩
    intro other inside different
    rw [pending] at inside
    exact List.mem_of_ne_of_mem different inside

theorem check_leaves : Leaves file s (s.check (file :: todo)) := by
  rw [check]
  split
  · exact .refl rfl (List.Subset.refl _) rfl
  · split
    · exact .refl rfl (List.Subset.refl _) rfl
    · exact ⟨fun _ different _ => Function.update_of_ne different .., List.Subset.refl _, rfl⟩

theorem check_cases (file : ModelFile) (todo : List ModelFile) :
    (s.check (file :: todo) = { s with point := .checking todo } ∧
      ∃ body, s.modelsDir file.name = some body ∧ sizeOk body.length file.expected = true) ∨
    ((s.check (file :: todo)).point = .requesting file todo ∧
      (s.check (file :: todo)).modelsDir file.name = none) := by
  rw [check]
  split
  · rename_i missing
    exact .inr ⟨rfl, missing⟩
  · rename_i content there
    split
    · rename_i passes
      exact .inl ⟨rfl, content, there, passes⟩
    · exact .inr ⟨rfl, Function.update_self ..⟩

theorem kept_check (kept : Kept files initial s) (separate : Separate files)
    (checks : s.point = .checking todo) : Kept files initial (s.check todo) := by
  have pending : s.point.pending = todo := by rw [checks]; rfl
  have running : s.point ≠ .idle := by simp [checks]
  cases todo with
  | nil =>
    refine ⟨kept.tables, nofun, (fun _ here => nomatch here), trivial, ?_, ?_, kept.untouched⟩
    · exact fun file there => (kept.whole file there).congr rfl (List.Subset.refl _)
    intro _ other there
    have either := kept.fetched running other there
    rw [pending] at either
    exact either
  | cons file todo =>
    have member : file ∈ files := kept.listed file (by simp [pending])
    rcases check_cases file todo with ⟨same, body, there, passes⟩ | ⟨asks, absent⟩
    · rw [same]
      have leaves : Leaves file s { s with point := .checking todo } := .refl rfl (List.Subset.refl _) rfl
      have whole := (kept.whole file member).congr (t := { s with point := .checking todo }) rfl (List.Subset.refl _)
      apply kept.work separate member leaves whole trivial
      · exact fun _ here => nomatch here
      · intro other inside
        rw [pending]
        exact List.mem_cons_of_mem file inside
      · intro _
        refine ⟨running, .inr ⟨body, there, .inl passes⟩, ?_⟩
        intro other inside different
        rw [pending] at inside
        exact List.mem_of_ne_of_mem different inside
    · apply kept.work separate member check_leaves
      · constructor
        · intro body found
          rw [absent] at found
          cases found
        · exact .inr (.inr absent)
      · rw [Held, asks]
        trivial
      · intro other here
        rw [asks] at here
        cases here
        exact absent
      · intro other inside
        rw [asks] at inside
        rw [pending]
        exact inside
      · intro _
        rw [asks]
        refine ⟨running, .inl List.mem_cons_self, ?_⟩
        intro other inside _
        rw [pending] at inside
        exact inside

theorem Kept.over (kept : Kept files initial s) : Kept files initial { s with point := .idle } where
  tables := kept.tables
  listed := nofun
  absent := fun _ here => nomatch here
  held := trivial
  whole file there := (kept.whole file there).congr rfl (List.Subset.refl _)
  fetched running := absurd rfl running
  untouched := kept.untouched

theorem kept_stop (kept : Kept files initial s) (separate : Separate files) (amount : Nat) :
    Kept files initial (s.stop amount) := by
  rw [stop]
  split
  · rename_i file written todo writes
    apply Kept.over
    apply kept_write kept separate
    · rw [writes]; rfl
    · rw [writes]; rfl
    · simp [writes]
  · exact kept.over

theorem kept_start (kept : Kept files initial s) {chosen : List ModelFile} (within : ∀ file ∈ chosen, file ∈ files) :
    Kept files initial { s with files := chosen, point := .checking chosen } where
  tables := within
  listed := within
  absent := fun _ here => nomatch here
  held := trivial
  whole file there := (kept.whole file there).congr rfl (List.Subset.refl _)
  fetched _ _ there := .inl there
  untouched := kept.untouched

theorem kept_next (separate : Separate files) (kept : Kept files initial s) (allowed : s.Enabled act)
    (within : act.Within files) : Kept files initial (s.next act) := by
  cases act with
  | start chosen => exact kept_start kept within
  | check =>
    obtain ⟨todo, checks⟩ := allowed
    rw [next_check checks]
    exact kept_check kept separate checks
  | openUrl =>
    obtain ⟨file, todo, requests⟩ := allowed
    rw [next_openUrl requests]
    apply kept_write kept separate
    · rw [requests]; rfl
    · rw [requests]; rfl
    · simp [requests]
  | read chunk =>
    obtain ⟨⟨file, written, todo, writes⟩, -⟩ := allowed
    rw [next_read writes]
    apply kept_write kept separate
    · rw [writes]; rfl
    · rw [writes]; rfl
    · simp [writes]
  | eof =>
    obtain ⟨file, written, todo, writes⟩ := allowed
    rw [next_eof writes]
    exact kept_received kept separate writes
  | rename =>
    obtain ⟨file, todo, renames⟩ := allowed
    rw [next_rename renames]
    exact kept_rename kept separate renames
  | stop amount => exact kept_stop kept separate amount

theorem Kept.fetched_of_returned (kept : Kept files initial s) (returned : s.point = .returned)
    (there : file ∈ s.files) : s.Fetched file := by
  rcases kept.fetched (by simp [returned]) file there with inside | fetched
  · rw [returned] at inside
    cases inside
  · exact fetched

theorem kept_before (files : List ModelFile) (initial : Cache String Bytes) :
    Kept files initial (before initial) where
  tables := nofun
  listed := nofun
  absent := fun _ here => nomatch here
  held := trivial
  whole _ _ := ⟨fun _ found => .inl found, .inl rfl⟩
  fetched running := absurd rfl running
  untouched _ _ := rfl

theorem Kept.run {labels : List FetchAct} (kept : Kept files initial s) (separate : Separate files)
    (run : system.Run (fun _ act => act.Within files) s labels t) : Kept files initial t :=
  run.invariant (fun _ _ kept allowed within => kept_next separate kept allowed within) kept

theorem check_keeps : (s.check todo).files = s.files ∧ (s.check todo).bodies = s.bodies := by
  rw [check.eq_def]
  split
  · exact ⟨rfl, rfl⟩
  · split
    · exact ⟨rfl, rfl⟩
    · split <;> exact ⟨rfl, rfl⟩

theorem next_files (allowed : s.Enabled act) (goesOn : ∀ chosen, act ≠ .start chosen) :
    s.point ≠ .idle ∧ (s.next act).files = s.files := by
  cases act with
  | start chosen => exact absurd rfl (goesOn chosen)
  | check =>
    obtain ⟨todo, checks⟩ := allowed
    rw [next_check checks, checks]
    exact ⟨nofun, check_keeps.1⟩
  | openUrl =>
    obtain ⟨file, todo, requests⟩ := allowed
    rw [next_openUrl requests, requests]
    exact ⟨nofun, rfl⟩
  | read chunk =>
    obtain ⟨⟨file, written, todo, writes⟩, -⟩ := allowed
    rw [next_read writes, writes]
    exact ⟨nofun, rfl⟩
  | eof =>
    obtain ⟨file, written, todo, writes⟩ := allowed
    rw [next_eof writes, writes]
    exact ⟨nofun, rfl⟩
  | rename =>
    obtain ⟨file, todo, renames⟩ := allowed
    rw [next_rename renames, renames]
    exact ⟨nofun, rfl⟩
  | stop amount =>
    refine ⟨allowed.1, ?_⟩
    change (s.stop amount).files = s.files
    rw [stop]
    split <;> rfl

def Passes (s : Fetching) (file : ModelFile) (body : Bytes) : Prop :=
  s.modelsDir file.name = some body ∧ sizeOk body.length file.expected = true

theorem Leaves.passes {body : Bytes} (leaves : Leaves other s t) (separate : Separate files)
    (member : other ∈ files) (there : file ∈ files) (absent : s.modelsDir other.name = none)
    (passes : s.Passes file body) : t.Passes file body := by
  have different : file ≠ other := by
    rintro rfl
    rw [passes.1] at absent
    cases absent
  refine ⟨?_, passes.2⟩
  rw [leaves.name separate member there different]
  exact passes.1

theorem passes_check {body : Bytes} (separate : Separate files) (listed : ∀ other ∈ todo, other ∈ files)
    (there : file ∈ files) (passes : s.Passes file body) : (s.check todo).Passes file body := by
  cases todo with
  | nil => exact passes
  | cons first todo =>
    by_cases same : first = file
    · subst same
      have skipped : s.check (first :: todo) = { s with point := .checking todo } := by
        simp only [check, passes.1, passes.2, if_true]
      rw [skipped]
      exact passes
    · refine ⟨?_, passes.2⟩
      rw [check_leaves.name separate (listed first List.mem_cons_self) there (Ne.symm same)]
      exact passes.1

theorem passes_next {body : Bytes} (separate : Separate files) (kept : Kept files initial s)
    (there : file ∈ files) (passes : s.Passes file body) (allowed : s.Enabled act) :
    (s.next act).Passes file body := by
  have working {other : ModelFile} {todo : List ModelFile} {t : Fetching} (current : s.point.current = some other)
      (pending : s.point.pending = other :: todo) (leaves : Leaves other s t) : t.Passes file body :=
    leaves.passes separate (kept.listed other (by simp [pending])) there (kept.absent other current) passes
  cases act with
  | start => exact passes
  | check =>
    obtain ⟨todo, checks⟩ := allowed
    rw [next_check checks]
    apply passes_check separate _ there passes
    intro other inside
    apply kept.listed
    rw [checks]
    exact inside
  | openUrl =>
    obtain ⟨other, todo, requests⟩ := allowed
    rw [next_openUrl requests]
    exact working (by rw [requests]; rfl) (by rw [requests]; rfl) write_leaves
  | read chunk =>
    obtain ⟨⟨other, written, todo, writes⟩, -⟩ := allowed
    rw [next_read writes]
    exact working (by rw [writes]; rfl) (by rw [writes]; rfl) write_leaves
  | eof =>
    obtain ⟨other, written, todo, writes⟩ := allowed
    rw [next_eof writes]
    exact passes
  | rename =>
    obtain ⟨other, todo, renames⟩ := allowed
    rw [next_rename renames]
    exact working (by rw [renames]; rfl) (by rw [renames]; rfl) rename_leaves
  | stop amount =>
    change (s.stop amount).Passes file body
    rw [stop]
    split
    · rename_i other written todo writes
      have kept : (s.write other (written.take amount) todo).Passes file body :=
        working (by rw [writes]; rfl) (by rw [writes]; rfl) write_leaves
      exact kept
    · exact passes

structure Quiet (files : List ModelFile) (s t : Fetching) : Prop where
  current : t.point.current = none
  listed : ∀ file ∈ t.point.pending, file ∈ files
  modelsDir : t.modelsDir = s.modelsDir
  bodies : t.bodies = s.bodies

theorem quiet_next (passing : ∀ file ∈ files, ∃ body, s.Passes file body)
    (quiet : Quiet files s t) (allowed : t.Enabled act) (within : act.Within files) :
    act ≠ .openUrl ∧ Quiet files s (t.next act) := by
  obtain ⟨current, listed, same, bodies⟩ := quiet
  cases act with
  | start chosen => exact ⟨nofun, rfl, within, same, bodies⟩
  | check =>
    obtain ⟨todo, checks⟩ := allowed
    rw [next_check checks]
    refine ⟨nofun, ?_⟩
    rw [checks] at listed
    cases todo with
    | nil => exact ⟨rfl, nofun, same, bodies⟩
    | cons file todo =>
      obtain ⟨body, there, passes⟩ := passing file (listed file List.mem_cons_self)
      rw [← same] at there
      have skipped : t.check (file :: todo) = { t with point := .checking todo } := by
        simp only [check, there, passes, if_true]
      rw [skipped]
      exact ⟨rfl, fun other inside => listed other (List.mem_cons_of_mem file inside), same, bodies⟩
  | openUrl =>
    obtain ⟨file, todo, requests⟩ := allowed
    rw [requests] at current
    cases current
  | read chunk =>
    obtain ⟨⟨file, written, todo, writes⟩, -⟩ := allowed
    rw [writes] at current
    cases current
  | eof =>
    obtain ⟨file, written, todo, writes⟩ := allowed
    rw [writes] at current
    cases current
  | rename =>
    obtain ⟨file, todo, renames⟩ := allowed
    rw [renames] at current
    cases current
  | stop amount =>
    change _ ∧ Quiet files s (t.stop amount)
    refine ⟨nofun, ?_⟩
    rw [stop]
    split
    · rename_i file written todo writes
      rw [writes] at current
      cases current
    · exact ⟨rfl, nofun, same, bodies⟩

theorem Quiet.run {labels : List FetchAct} {u : Fetching} (passing : ∀ file ∈ files, ∃ body, s.Passes file body)
    (quiet : Quiet files s t) (run : system.Run (fun _ act => act.Within files) t labels u) :
    (∀ act ∈ labels, act ≠ .openUrl) ∧ Quiet files s u := by
  induction run with
  | nil => exact ⟨nofun, quiet⟩
  | cons allowed within _ ih =>
    obtain ⟨asks, quiet⟩ := quiet_next passing quiet allowed within
    obtain ⟨rest, quiet⟩ := ih quiet
    exact ⟨List.forall_mem_cons.mpr ⟨asks, rest⟩, quiet⟩

theorem passes_run {body : Bytes} {labels : List FetchAct} (separate : Separate files)
    (kept : Kept files initial s) (there : file ∈ files) (passes : s.Passes file body)
    (run : system.Run (fun _ act => act.Within files) s labels t) : t.Passes file body := by
  have step (s : Fetching) (act : FetchAct) (holds : Kept files initial s ∧ s.Passes file body)
      (allowed : s.Enabled act) (within : act.Within files) :
      Kept files initial (s.next act) ∧ (s.next act).Passes file body :=
    ⟨kept_next separate holds.1 allowed within, passes_next separate holds.1 there holds.2 allowed⟩
  have both := run.invariant step ⟨kept, passes⟩
  exact both.2

/-- Whatever the runs came to: under a name is what was there at first or all that was read of a response, a
file whose size passed is as it was, and no file of another name has changed; after a run that has returned
each file that it was to fetch is there, and no unfinished one is new. -/
theorem runs_whole {labels : List FetchAct} (separate : Separate files)
    (run : system.Run (fun _ act => act.Within files) (before initial) labels s) :
    (∀ file ∈ files, Whole initial s file) ∧
      (∀ file ∈ files, ∀ body, (before initial).Passes file body → s.Passes file body) ∧
      Untouched files initial s ∧
      (s.point = .returned → ∀ file ∈ s.files, s.Fetched file ∧
        (s.modelsDir (partialPath file.name) = initial (partialPath file.name) ∨
          s.modelsDir (partialPath file.name) = none)) := by
  have start := kept_before files initial
  have kept := start.run separate run
  refine ⟨kept.whole, ?_, kept.untouched, ?_⟩
  · intro file there body passes
    exact passes_run separate start there passes run
  · intro returned file there
    have fetched := kept.fetched_of_returned returned there
    refine ⟨fetched, ?_⟩
    obtain ⟨body, found, -⟩ := fetched
    rcases (kept.whole file (kept.tables file there)).unfinished with same | gone | absent
    · exact .inl same
    · exact .inr gone
    · rw [found] at absent
      cases absent

def killed (withInt8 : Bool) : List FetchAct := [.start (kokoroSet withInt8), .check, .openUrl, .read [1, 2], .stop 1]

theorem kokoroSet_within (withInt8 : Bool) : ∀ file ∈ kokoroSet withInt8, file ∈ kokoroSet true := by
  cases withInt8 <;> decide

theorem killed_run (withInt8 : Bool) : system.Run (fun _ act => act.Within (kokoroSet true)) (before Cache.empty)
    (killed withInt8) (system.after (before Cache.empty) (killed withInt8)) :=
  System.Admits.run ⟨⟨.inl rfl, kokoroSet_within withInt8⟩, ⟨⟨_, rfl⟩, trivial⟩, ⟨⟨_, _, rfl⟩, trivial⟩,
    ⟨⟨⟨_, _, _, rfl⟩, by decide, by decide⟩, trivial⟩, ⟨⟨nofun, nofun⟩, trivial⟩, trivial⟩

theorem killed_whole :
    (system.after (before Cache.empty) (killed true)).modelsDir "kokoro-v1.0.fp16-gpu.onnx" = none := by
  obtain ⟨whole, -⟩ := runs_whole (kokoro_separate true) (killed_run true)
  have there : kokoroFiles[0] ∈ kokoroSet true := List.mem_cons_self
  rw [Option.eq_none_iff_forall_ne_some]
  intro body found
  rcases (whole _ there).origin body found with before | received
  · cases before
  · cases received

theorem step_run (files : List ModelFile) (allowed : s.Enabled act) (within : act.Within files) :
    system.Run (fun _ act => act.Within files) s [act] (s.next act) :=
  .cons allowed within (.nil _)

theorem reads_run (files : List ModelFile) (pieces : List Bytes) (proper : ∀ piece ∈ pieces, piece ≠ [] ∧ piece.length ≤ 2 ^ 20)
    (writes : s.point = .writing file written todo) :
    ∃ t, system.Run (fun _ act => act.Within files) s (pieces.map .read) t ∧
      t.point = .writing file (written ++ pieces.flatten) todo ∧ t.files = s.files ∧ t.bodies = s.bodies := by
  induction pieces generalizing s written with
  | nil => exact ⟨s, .nil s, by simpa using writes, rfl, rfl⟩
  | cons piece pieces ih =>
    obtain ⟨own, proper⟩ := List.forall_mem_cons.mp proper
    have same := next_read writes piece
    obtain ⟨t, run, point, kept, bodies⟩ := ih proper (s := s.next (.read piece)) (by rw [same]; rfl)
    have allowed : s.Enabled (.read piece) := ⟨⟨file, written, todo, writes⟩, own⟩
    refine ⟨t, (step_run files allowed trivial).append run, ?_, ?_, ?_⟩
    · rw [point, List.flatten_cons, List.append_assoc]
    · rw [kept, same]
      rfl
    · rw [bodies, same]
      rfl

theorem download_run (files : List ModelFile) (pieces : List Bytes)
    (proper : ∀ piece ∈ pieces, piece ≠ [] ∧ piece.length ≤ 2 ^ 20) (requests : s.point = .requesting file todo) :
    ∃ labels t, system.Run (fun _ act => act.Within files) s labels t ∧ t.point = .checking todo ∧
      t.files = s.files ∧ t.bodies = (file.url, pieces.flatten) :: s.bodies := by
  have opened := next_openUrl requests
  have opens : s.Enabled .openUrl := ⟨file, todo, requests⟩
  obtain ⟨t, run, writes, kept, bodies⟩ :=
    reads_run files (s := s.next .openUrl) pieces proper (by rw [opened]; rfl)
  rw [List.nil_append] at writes
  have received := next_eof writes
  have ended : t.Enabled .eof := ⟨file, pieces.flatten, todo, writes⟩
  have renames : (t.next .eof).Enabled .rename := ⟨file, todo, by rw [received]⟩
  have moved : (t.next .eof).next .rename = (t.next .eof).rename file todo := next_rename (by rw [received])
  have first := (step_run files opens trivial).append run
  have second := (step_run files ended trivial).append (step_run files renames trivial)
  refine ⟨_, _, first.append second, ?_⟩
  rw [moved, received]
  rw [opened] at kept bodies
  exact ⟨rfl, kept, congrArg _ bodies⟩

theorem returns_run (files : List ModelFile) (sent : String → List Bytes)
    (proper : ∀ url, ∀ piece ∈ sent url, piece ≠ [] ∧ piece.length ≤ 2 ^ 20) (checks : s.point = .checking todo) :
    ∃ labels t, system.Run (fun _ act => act.Within files) s labels t ∧ t.point = .returned ∧ t.files = s.files ∧
      ∀ entry ∈ t.bodies, entry ∈ s.bodies ∨ entry.2 = (sent entry.1).flatten := by
  induction todo generalizing s with
  | nil =>
    have allowed : s.Enabled .check := ⟨[], checks⟩
    have last : s.next .check = { s with point := .returned } := next_check checks
    refine ⟨_, _, step_run files allowed trivial, ?_⟩
    rw [last]
    exact ⟨rfl, rfl, fun _ inside => .inl inside⟩
  | cons file todo ih =>
    have allowed : s.Enabled .check := ⟨file :: todo, checks⟩
    have first := next_check checks
    obtain ⟨sameFiles, sameBodies⟩ : (s.check (file :: todo)).files = s.files ∧ _ := check_keeps
    have looks := step_run files allowed trivial
    rw [first] at looks
    rcases check_cases (s := s) file todo with ⟨same, -⟩ | ⟨requests, -⟩
    · have checking : (s.check (file :: todo)).point = .checking todo := by rw [same]
      obtain ⟨labels, t, run, returned, kept, answers⟩ := ih checking
      rw [sameFiles] at kept
      rw [sameBodies] at answers
      exact ⟨_, t, looks.append run, returned, kept, answers⟩
    · obtain ⟨fetches, t, fetched, checking, kept, bodies⟩ :=
        download_run files (sent file.url) (proper file.url) requests
      obtain ⟨labels, u, run, returned, still, answers⟩ := ih checking
      refine ⟨_, u, looks.append (fetched.append run), returned, ?_, ?_⟩
      · rw [still, kept, sameFiles]
      · intro entry inside
        rcases answers entry inside with old | answered
        · rw [bodies, sameBodies] at old
          rcases List.mem_cons.mp old with rfl | old
          · exact .inr rfl
          · exact .inl old
        · exact .inr answered

def mebibytes (count : Nat) : List Bytes := List.replicate count (List.replicate (2 ^ 20) 0)

theorem mebibytes_length (count : Nat) : (mebibytes count).flatten.length = count * 2 ^ 20 := by
  rw [mebibytes, List.flatten_replicate_replicate, List.length_replicate]

def sentFor (url : String) : List Bytes := mebibytes (if url = kokoroFiles[0].url then 169 else 27)

theorem sentFor_proper (url : String) : ∀ piece ∈ sentFor url, piece ≠ [] ∧ piece.length ≤ 2 ^ 20 := by
  intro piece inside
  obtain rfl := List.eq_of_mem_replicate inside
  rw [← List.length_pos_iff, List.length_replicate]
  decide

theorem sentFor_sizeOk : ∀ file ∈ kokoroSet false, sizeOk (sentFor file.url).flatten.length file.expected = true := by
  intro file inside
  rw [sentFor, mebibytes_length]
  revert file
  decide

/-- Where what is read has about the sizes of the tables, one run that returns is enough: later ones of its
files request nothing and change nothing. -/
theorem runs_settle {first later : List FetchAct} (separate : Separate files)
    (run : system.Run (fun _ act => act.Within files) (before initial) first s) (returned : s.point = .returned)
    (honest : ∀ file ∈ s.files, ∀ body, (file.url, body) ∈ s.bodies → sizeOk body.length file.expected = true)
    (more : system.Run (fun _ act => act.Within s.files) s later t) :
    (∀ file ∈ s.files, ∃ body, s.Passes file body) ∧ t.modelsDir = s.modelsDir ∧
      ∀ act ∈ later, act ≠ .openUrl := by
  have kept := (kept_before files initial).run separate run
  have passing : ∀ file ∈ s.files, ∃ body, s.Passes file body := by
    intro file there
    obtain ⟨body, found, right⟩ := kept.fetched_of_returned returned there
    exact ⟨body, found, right.elim id (honest file there body)⟩
  have quiet : Quiet s.files s s := ⟨by rw [returned]; rfl, by rw [returned]; exact nofun, rfl, rfl⟩
  obtain ⟨asks, quiet⟩ := quiet.run passing more
  exact ⟨passing, quiet.modelsDir, asks⟩

theorem kokoro_settled : ∃ first later s t,
    system.Run (fun _ act => act.Within (kokoroSet false)) (before Cache.empty) first s ∧ s.point = .returned ∧
      system.Run (fun _ act => act.Within s.files) s later t ∧ t.point = .returned ∧
      (∀ file ∈ kokoroSet false, ∃ body, s.Passes file body) ∧ t.modelsDir = s.modelsDir ∧
      ∀ act ∈ later, act ≠ .openUrl := by
  have idle : (before Cache.empty).Enabled (.start (kokoroSet false)) := .inl rfl
  obtain ⟨first, s, run, returned, files, answers⟩ :=
    returns_run (kokoroSet false) sentFor sentFor_proper
      (s := (before Cache.empty).next (.start (kokoroSet false))) rfl
  have started := (step_run (kokoroSet false) idle fun _ inside => inside).append run
  have again : s.Enabled (.start s.files) := .inr returned
  obtain ⟨later, t, more, finished, -⟩ :=
    returns_run s.files sentFor sentFor_proper (s := s.next (.start s.files)) rfl
  have restarted := (step_run s.files again fun _ inside => inside).append more
  have honest : ∀ file ∈ s.files, ∀ body, (file.url, body) ∈ s.bodies →
      sizeOk body.length file.expected = true := by
    intro file inside body received
    rw [files] at inside
    rcases answers _ received with none | sent
    · cases none
    · rw [show body = (sentFor file.url).flatten from sent]
      exact sentFor_sizeOk file inside
  obtain ⟨passing, same, asks⟩ := runs_settle (kokoro_separate false) started returned honest restarted
  rw [files] at passing
  exact ⟨_, _, s, t, started, returned, restarted, finished, passing, same, asks⟩

end

end Fetching

/-- A path of the Kokoro provider: in the directory of the models, or as its environment gives it. -/
inductive ModelPath
  | inModels (name : String)
  | given (path : String)
deriving DecidableEq

/-- `os.environ.get(var)` as a condition. -/
def setIn (value : Option String) : Option String := value.filter (· ≠ "")

inductive KokoroFileNotFound
  | model (path : ModelPath)
  | voices (path : ModelPath)

/-- The model file that `resolve_model_paths` prefers. -/
def modelPath (modelOverride : Option String) (present : ModelPath → Bool) : ModelPath :=
  let fp16Path := ModelPath.inModels "kokoro-v1.0.fp16-gpu.onnx"
  let int8Path := ModelPath.inModels "kokoro-v1.0.int8.onnx"
  match setIn modelOverride with
  | some path => .given path
  | none => if present fp16Path then fp16Path else int8Path

def voicesPath (voicesOverride : Option String) : ModelPath :=
  match setIn voicesOverride with
  | some path => .given path
  | none => .inModels "voices-v1.0.bin"

/-- `resolve_model_paths` of `engine.py`, for `TTS_KOKORO_MODEL_PATH` and `TTS_KOKORO_VOICES_PATH`. -/
def resolveModelPaths (modelOverride voicesOverride : Option String) (present : ModelPath → Bool) :
    Except KokoroFileNotFound (ModelPath × ModelPath) :=
  let model := modelPath modelOverride present
  let voices := voicesPath voicesOverride
  if present model = false then .error (.model model)
  else if present voices = false then .error (.voices voices)
  else .ok (model, voices)

def Fetching.present (s : Fetching) (elsewhere : String → Bool) : ModelPath → Bool
  | .inModels name => (s.modelsDir name).isSome
  | .given path => elsewhere path

section

variable {modelOverride voicesOverride : Option String} {present : ModelPath → Bool} {model voices : ModelPath}

theorem modelPath_inModels {name : String} (same : modelPath modelOverride present = .inModels name) :
    ∃ file ∈ kokoroSet true, file.name = name := by
  rw [modelPath] at same
  split at same
  · cases same
  · split at same
    · cases same
      exact ⟨_, List.mem_cons_self, rfl⟩
    · cases same
      exact ⟨_, List.mem_cons_of_mem _ (List.mem_cons_of_mem _ List.mem_cons_self), rfl⟩

theorem voicesPath_inModels {name : String} (same : voicesPath voicesOverride = .inModels name) :
    ∃ file ∈ kokoroSet true, file.name = name := by
  rw [voicesPath] at same
  split at same
  · cases same
  · cases same
    exact ⟨_, List.mem_cons_of_mem _ List.mem_cons_self, rfl⟩

theorem of_resolveModelPaths
    (resolved : resolveModelPaths modelOverride voicesOverride present = .ok (model, voices)) :
    ∀ path ∈ [model, voices], ∀ name, path = .inModels name →
      present path = true ∧ ∃ file ∈ kokoroSet true, file.name = name := by
  rw [resolveModelPaths] at resolved
  split at resolved
  · cases resolved
  · rename_i modelThere
    split at resolved
    · cases resolved
    · rename_i voicesThere
      rw [Bool.not_eq_false] at modelThere voicesThere
      cases resolved
      intro path inside name same
      rcases List.mem_pair.mp inside with rfl | rfl
      · exact ⟨modelThere, modelPath_inModels same⟩
      · exact ⟨voicesThere, voicesPath_inModels same⟩

/-- A run of `main`, with `--with-int8` or without. -/
def FetchAct.Kokoro : FetchAct → Prop
  | .start chosen => ∃ withInt8, chosen = kokoroSet withInt8
  | _ => True

theorem Kokoro.within {act : FetchAct} (kokoro : act.Kokoro) : act.Within (kokoroSet true) := by
  cases act with
  | start chosen =>
    obtain ⟨withInt8, rfl⟩ := kokoro
    exact Fetching.kokoroSet_within withInt8
  | _ => trivial

def Fetching.AsksKokoro (s : Fetching) : Prop := s.point = .idle ∨ ∀ file ∈ kokoroFiles, file ∈ s.files

theorem asksKokoro_next {s : Fetching} {act : FetchAct} (asks : s.AsksKokoro) (allowed : s.Enabled act)
    (kokoro : act.Kokoro) : (s.next act).AsksKokoro := by
  by_cases starts : ∃ chosen, act = .start chosen
  · obtain ⟨chosen, rfl⟩ := starts
    obtain ⟨withInt8, rfl⟩ := kokoro
    exact .inr fun file inside => List.mem_append_left _ inside
  · obtain ⟨running, same⟩ := Fetching.next_files allowed fun chosen start => starts ⟨chosen, start⟩
    right
    rw [same]
    exact asks.resolve_left running

/-- At every moment of every sequence of runs, what the provider finds in the directory of the models was
there at first or is all that was read of a response; after a run that has returned it finds the FP16 model. -/
theorem kokoro_finds_whole {initial : Cache String Bytes} {s : Fetching} {labels : List FetchAct}
    (elsewhere : String → Bool) (run : Fetching.system.Run (fun _ act => act.Kokoro) (Fetching.before initial) labels s) :
    (∀ modelOverride voicesOverride model voices,
      resolveModelPaths modelOverride voicesOverride (s.present elsewhere) = .ok (model, voices) →
        ∀ path ∈ [model, voices], ∀ name, path = .inModels name → ∃ body, s.modelsDir name = some body ∧
          (initial name = some body ∨ ∃ file ∈ kokoroSet true, file.name = name ∧ (file.url, body) ∈ s.bodies)) ∧
      (s.point = .returned → resolveModelPaths none none (s.present elsewhere) =
        .ok (.inModels "kokoro-v1.0.fp16-gpu.onnx", .inModels "voices-v1.0.bin")) := by
  have kept := (Fetching.kept_before (kokoroSet true) initial).run (kokoro_separate true)
    (run.mono fun _ _ => Kokoro.within)
  constructor
  · intro modelOverride voicesOverride model voices resolved path inside name same
    obtain ⟨there, file, member, rfl⟩ := of_resolveModelPaths resolved path inside name same
    rw [same] at there
    obtain ⟨body, found⟩ := Option.isSome_iff_exists.mp there
    refine ⟨body, found, ?_⟩
    rcases (kept.whole file member).origin body found with before | received
    · exact .inl before
    · exact .inr ⟨file, member, rfl, received⟩
  · intro returned
    have asks : s.AsksKokoro :=
      run.invariant (fun _ _ asks allowed kokoro => asksKokoro_next asks allowed kokoro) (.inl rfl)
    have there {file : ModelFile} (member : file ∈ kokoroFiles) : (s.modelsDir file.name).isSome = true := by
      have own := asks.resolve_left (by rw [returned]; exact nofun) file member
      obtain ⟨body, found, -⟩ := kept.fetched_of_returned returned own
      rw [found]
      rfl
    have fp16 := there (show kokoroFiles[0] ∈ kokoroFiles from List.mem_cons_self)
    have voices := there (show kokoroFiles[1] ∈ kokoroFiles from List.mem_cons_of_mem _ List.mem_cons_self)
    have prefers : modelPath none (s.present elsewhere) = .inModels "kokoro-v1.0.fp16-gpu.onnx" := if_pos fp16
    rw [resolveModelPaths, prefers]
    exact (if_neg (by rw [Bool.not_eq_false]; exact fp16)).trans
      (if_neg (by rw [Bool.not_eq_false]; exact voices))

def tooShort : Cache String Bytes :=
  (Cache.empty.put "kokoro-v1.0.fp16-gpu.onnx" [7]).put "voices-v1.0.bin" [8]

theorem tooShort_found :
    let s := Fetching.system.after (Fetching.before tooShort) [.start (kokoroSet true), .stop 0, .start (kokoroSet false)]
    resolveModelPaths none none (s.present fun _ => false) =
        .ok (.inModels "kokoro-v1.0.fp16-gpu.onnx", .inModels "voices-v1.0.bin") ∧
      ∃ body, s.modelsDir "voices-v1.0.bin" = some body ∧ (tooShort "voices-v1.0.bin" = some body ∨
        ∃ file ∈ kokoroSet true, file.name = "voices-v1.0.bin" ∧ (file.url, body) ∈ s.bodies) := by
  have run : Fetching.system.Run (fun _ act => act.Kokoro) (Fetching.before tooShort)
      [.start (kokoroSet true), .stop 0, .start (kokoroSet false)] _ :=
    System.Admits.run ⟨⟨.inl rfl, true, rfl⟩, ⟨⟨nofun, nofun⟩, trivial⟩, ⟨.inl rfl, false, rfl⟩, trivial⟩
  have resolved : resolveModelPaths none none ((Fetching.system.after (Fetching.before tooShort)
      [.start (kokoroSet true), .stop 0, .start (kokoroSet false)]).present fun _ => false) =
        .ok (.inModels "kokoro-v1.0.fp16-gpu.onnx", .inModels "voices-v1.0.bin") := by rfl
  refine ⟨resolved, ?_⟩
  exact (kokoro_finds_whole (fun _ => false) run).1 none none _ _ resolved _
    (List.mem_cons_of_mem _ List.mem_cons_self) _ rfl

end

end Scripts

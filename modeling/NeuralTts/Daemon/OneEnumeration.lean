import NeuralTts.Daemon.Actors
import NeuralTts.Library.History

/-! How often the providers are listed when several callers find the voice index empty. Whether it
is empty is looked up before the lifecycle lock is awaited, and not again. -/

namespace Daemon

open Library

def Op.enumerates : Op → Bool
  | .enumerate _ _ _ => true
  | .ensureReady _ _ | .switch _ | .evict | .shutdown => false

/-- For a connection, or for the generator that streams to it. -/
def Op.serves : Op → Bool
  | .ensureReady _ (.connection _ _) | .ensureReady _ (.generator _ _) => true
  | _ => false

def Task.lists : Task → Bool
  | .inside op _ => op.enumerates
  | _ => false

def Op.unlisted (stage : Stage) : Op → List String
  | .enumerate todo _ _ =>
    match stage with
    | .creating _ | .abandoning _ | .connecting _ | .warming _ | .killing _ _ => todo.tail
    | .entered | .reaping _ _ | .spawning _ _ => todo
  | _ => []

namespace Supervisor

def enumerates (s : Supervisor) : Bool :=
  match s.lifecycleLock.holder with
  | some i => (s.tasks i).lists
  | none => false

/-- The operation whose task starts a subprocess in this step, and the provider. -/
def spawned? (c : Settings) (s : Supervisor) : SupervisorAct → Option (Op × String)
  | .proceed i =>
    match s.tasks i with
    | .inside op (.spawning name _) =>
      if name ∈ c.registry ∧ c.installed name = true then some (op, name) else none
    | _ => none
  | _ => none

/-- Whether an enumeration has left the index non-empty, whether one has ended with the index empty,
the providers that were spawned for listing, and the processes that were spawned for a connection. -/
structure Listing where
  populated : Bool
  cutShort : Bool
  listed : List String
  serving : List ProcId

def noteListing (c : Settings) (r : Listing) (s : Supervisor) (label : Nat × SupervisorAct) : Listing :=
  let t := s.next c label.1 label.2
  let ended := s.enumerates && !t.enumerates
  { populated := r.populated || (ended && !t.voiceIndex.isEmpty)
    cutShort := r.cutShort || (ended && t.voiceIndex.isEmpty)
    listed :=
      match s.spawned? c label.2 with
      | some (op, name) => if op.enumerates then r.listed ++ [name] else r.listed
      | none => r.listed
    serving :=
      match s.spawned? c label.2 with
      | some (op, _) => if op.serves then s.nextProc :: r.serving else r.serving
      | none => r.serving }

def noListing : Listing := ⟨false, false, [], []⟩

/-- The supervisor, where `enumerate_all_voices` is only called for an empty index. -/
def populating (c : Settings) : System Supervisor (Nat × SupervisorAct) where
  enabled s label := s.Enabled label.2 ∧ ∀ i, label.2 = .enumerateAll i → s.voiceIndex.isEmpty = true
  next s label := s.next c label.1 label.2

/-- No enumeration starts once one has left the index non-empty; no provider is spawned twice for
listing, unless an enumeration has ended with the index empty; and no enumeration begins to tear
down a process that was spawned for a connection. -/
structure Once (c : Settings) (s : Supervisor) (r : Listing) (label : Nat × SupervisorAct) : Prop where
  starts : ∀ i, (s.tasks i).lists = false → ((s.next c label.1 label.2).tasks i).lists = true →
    r.populated = false
  lists : (noteListing c r s label).cutShort = false → (noteListing c r s label).listed.Nodup
  spares : ∀ i p, (s.tasks i).lists = true → (s.tasks i).reaps ≠ some p →
    ((s.next c label.1 label.2).tasks i).reaps = some p → p ∉ r.serving

/-- An enumeration that leaves the index non-empty leaves nobody behind who waits to enumerate. -/
def LeavesNobody (c : Settings) (s : Supervisor) (label : Nat × SupervisorAct) : Prop :=
  ∀ i out asked, label.2 = .proceed i → s.tasks i = .inside (.enumerate [] out asked) .entered →
    (c.populate s.voiceIndex out).isEmpty = false → ∀ j op, s.tasks j = .waiting op → op.enumerates = false

variable {c : Settings} {s t : Supervisor} {now : Nat} {i : TaskId} {op later : Op} {stage : Stage}
  {act : SupervisorAct} {p : ProcId} {r : Listing} {label : Nat × SupervisorAct}

structure Sought (s : Supervisor) (r : Listing) : Prop where
  /-- Once the index is populated nobody enumerates. -/
  settled : r.populated = true → s.voiceIndex.isEmpty = false ∧
    ∀ i op, (s.tasks i).pursues = some op → op.enumerates = false
  unserved : r.populated = false → s.voiceIndex.isEmpty = true ∧ r.serving = [] ∧
    ∀ i op, (s.tasks i).pursues = some op → op.serves = false

structure Ordered (s : Supervisor) (r : Listing) : Prop where
  distinct : ∀ i todo out asked, (s.tasks i).pursues = some (.enumerate todo out asked) → todo.Nodup
  nodup : r.cutShort = false → r.listed.Nodup
  behind : r.cutShort = false → ∀ i op stage, s.tasks i = .inside op stage → op.enumerates →
    ∀ name ∈ r.listed, name ∉ op.unlisted stage
  underWay : r.cutShort = false → r.populated = false → r.listed ≠ [] → s.enumerates = true

theorem providerFor_of_isEmpty {idx : VoiceIndex} (empty : idx.isEmpty = true) (voice : String) :
    idx.providerFor voice = none := by
  have entries : idx.byPublicId.entries = [] := List.isEmpty_iff.mp empty
  unfold VoiceIndex.providerFor AList.lookup
  rw [entries]
  rfl

theorem lists_of_inside (inside : s.tasks i = .inside op stage) : (s.tasks i).lists = op.enumerates := by
  rw [inside]
  rfl

theorem Exclusive.enumerates_of_lists (exclusive : Exclusive s) (lists : (s.tasks i).lists = true) :
    s.enumerates = true := by
  cases at_ : s.tasks i with
  | inside op stage =>
    have held := exclusive i op stage at_
    simp only [enumerates, held]
    exact lists
  | _ =>
    rw [at_] at lists
    cases lists

theorem lists_of_enumerates (under : s.enumerates = true) : ∃ i, (s.tasks i).lists = true := by
  unfold enumerates at under
  split at under
  · exact ⟨_, under⟩
  · cases under

theorem inside_of_lists (lists : (s.tasks i).lists = true) :
    ∃ op stage, s.tasks i = .inside op stage ∧ op.enumerates = true := by
  cases at_ : s.tasks i with
  | inside op stage =>
    rw [at_] at lists
    exact ⟨op, stage, rfl, lists⟩
  | _ =>
    rw [at_] at lists
    cases lists

theorem inside_of_spawned (now : Nat) {name : String} (spawned : s.spawned? c act = some (op, name)) :
    ∃ i eager, act = .proceed i ∧ s.tasks i = .inside op (.spawning name eager) ∧
      (s.next c now act).tasks i = .inside op (.creating s.nextProc) := by
  unfold spawned? at spawned
  split at spawned
  · split at spawned
    · rename_i i task other name eager inside
      split at spawned
      · rename_i known
        cases spawned
        refine ⟨i, eager, rfl, inside, ?_⟩
        simp only [next, inside, spawn, if_pos known]
        exact Function.update_self ..
      · cases spawned
    · cases spawned
  · cases spawned

theorem listed_over {out : Dict String (List Voice)} {asked : Option SynthesizeRequest}
    (inside : s.tasks i = .inside (.enumerate [] out asked) .entered)
    (pursues : ((s.next c now (.proceed i)).tasks i).pursues = some op) : op.enumerates = false := by
  obtain ⟨synth, provider, target, route, -, rfl, -⟩ := follows_of_listed now inside pursues
  rfl

/-- When an enumeration replaces the index, nobody enumerates any more but those who wait for it. -/
theorem Exclusive.apart_of_listed (exclusive : Exclusive s) {j : TaskId} {out : Dict String (List Voice)}
    {asked : Option SynthesizeRequest} (inside : s.tasks j = .inside (.enumerate [] out asked) .entered)
    (pursues : ((s.next c now (.proceed j)).tasks i).pursues = some op) :
    op.enumerates = false ∨ s.tasks i = .waiting op := by
  by_cases same : i = j
  · subst same
    exact .inl (listed_over inside pursues)
  · have elsewhere : (SupervisorAct.proceed j).task ≠ some i := fun eq => same (Option.some.inj eq).symm
    rw [tasks_next elsewhere] at pursues
    cases at_ : s.tasks i with
    | waiting other =>
      rw [at_] at pursues
      cases pursues
      exact .inr rfl
    | inside other stage => exact absurd (exclusive.only inside at_) same
    | _ =>
      rw [at_] at pursues
      cases pursues

theorem Exclusive.ended_of_listed (exclusive : Exclusive s) (enabled : s.Enabled (.proceed i))
    {out : Dict String (List Voice)} {asked : Option SynthesizeRequest}
    (inside : s.tasks i = .inside (.enumerate [] out asked) .entered) :
    s.enumerates = true ∧ (s.next c now (.proceed i)).enumerates = false := by
  refine ⟨exclusive.enumerates_of_lists (lists_of_inside inside), ?_⟩
  rw [Bool.eq_false_iff]
  intro under
  obtain ⟨k, lists⟩ := lists_of_enumerates under
  obtain ⟨op, stage, within, listing⟩ := inside_of_lists lists
  have pursues : ((s.next c now (.proceed i)).tasks k).pursues = some op := by
    rw [within]
    rfl
  rcases exclusive.apart_of_listed inside pursues with apart | waiting
  · rw [apart] at listing
    cases listing
  · have other : k ≠ i := by
      rintro rfl
      cases inside.symm.trans waiting
    have elsewhere : (SupervisorAct.proceed i).task ≠ some k := fun eq => other (Option.some.inj eq).symm
    rw [tasks_next elsewhere, waiting] at within
    cases within

theorem noteListing_populated (populated : r.populated = true) : (noteListing c r s label).populated = true := by
  simp [noteListing, populated]

theorem Sought.settled_next (sought : Sought s r) (exclusive : Exclusive s)
    (enabled : (populating c).enabled s label) (nobody : LeavesNobody c s label)
    (populated : (noteListing c r s label).populated = true) :
    (s.next c label.1 label.2).voiceIndex.isEmpty = false ∧
      ∀ i op, ((s.next c label.1 label.2).tasks i).pursues = some op → op.enumerates = false := by
  obtain ⟨now, act⟩ := label
  obtain ⟨allowed, needed⟩ := enabled
  have moved : Moves c s now act (s.next c now act) := moves allowed
  cases before : r.populated with
  | true =>
    obtain ⟨filled, apart⟩ := sought.settled before
    refine ⟨?_, ?_⟩
    · rcases moved.frame.index with same | ⟨j, out, asked, -, inside, -⟩
      · rw [same]
        exact filled
      · have listing := apart j (.enumerate [] out asked) (by rw [inside]; rfl)
        cases listing
    · intro i op pursues
      rcases pursues_cases allowed pursues with already | opens | ⟨earlier, stage, inside, follows⟩
      · exact apart i op already
      · cases opens with
        | populates empty => cases filled.symm.trans empty
        | enumerateAll => cases filled.symm.trans (needed i rfl)
        | _ => rfl
      · have idle := apart i earlier (by rw [inside]; rfl)
        cases follows with
        | same => exact idle
        | lists => cases idle
        | streams => rfl
        | routes => rfl
  | false =>
    obtain ⟨empty, -, -⟩ := sought.unserved before
    have left : (s.next c now act).voiceIndex.isEmpty = false := by
      simp only [noteListing, before, Bool.false_or, Bool.and_eq_true, Bool.not_eq_true'] at populated
      exact populated.2
    refine ⟨left, ?_⟩
    intro i op pursues
    rcases moved.frame.index with same | ⟨j, out, asked, rfl, inside, rebuilt⟩
    · rw [same, empty] at left
      cases left
    · rcases exclusive.apart_of_listed inside pursues with apart | waiting
      · exact apart
      · exact nobody j out asked rfl inside (rebuilt ▸ left) i op waiting

theorem Sought.unserved_next (sought : Sought s r) (exclusive : Exclusive s)
    (enabled : s.Enabled label.2) (unpopulated : (noteListing c r s label).populated = false) :
    (s.next c label.1 label.2).voiceIndex.isEmpty = true ∧ (noteListing c r s label).serving = [] ∧
      ∀ i op, ((s.next c label.1 label.2).tasks i).pursues = some op → op.serves = false := by
  obtain ⟨now, act⟩ := label
  have moved : Moves c s now act (s.next c now act) := moves enabled
  have before : r.populated = false := by
    rw [Bool.eq_false_iff]
    intro populated
    rw [noteListing_populated populated] at unpopulated
    cases unpopulated
  obtain ⟨empty, none, unserved⟩ := sought.unserved before
  have still : (s.next c now act).voiceIndex.isEmpty = true := by
    rcases moved.frame.index with same | ⟨j, out, asked, rfl, inside, rebuilt⟩
    · rw [same]
      exact empty
    · obtain ⟨under, ended⟩ : s.enumerates = true ∧ (s.next c now (.proceed j)).enumerates = false :=
        exclusive.ended_of_listed enabled inside
      simpa [noteListing, before, under, ended] using unpopulated
  refine ⟨still, ?_, ?_⟩
  · simp only [noteListing]
    cases spawned : s.spawned? c act with
    | none => exact none
    | some pair =>
      obtain ⟨op, name⟩ := pair
      obtain ⟨i, eager, -, inside, -⟩ := inside_of_spawned now spawned
      have idle := unserved i op (by rw [inside]; rfl)
      simp only [idle]
      exact none
  · intro i op pursues
    rcases pursues_cases enabled pursues with already | opens | ⟨earlier, stage, inside, follows⟩
    · exact unserved i op already
    · cases opens with
      | routes found =>
        rw [providerFor_of_isEmpty empty] at found
        cases found
      | _ => rfl
    · have idle := unserved i earlier (by rw [inside]; rfl)
      cases follows with
      | same => exact idle
      | lists => rfl
      | streams => cases idle
      | routes found =>
        rw [providerFor_of_isEmpty still] at found
        cases found

theorem mem_of_unlisted {todo : List String} {out : Dict String (List Voice)} {asked : Option SynthesizeRequest}
    {name : String} (mem : name ∈ (Op.enumerate todo out asked).unlisted stage) : name ∈ todo := by
  cases stage <;> first | exact mem | exact List.mem_of_mem_tail mem

theorem unlisted_of_mem {name head : String} {todo : List String} {out : Dict String (List Voice)}
    {asked : Option SynthesizeRequest} (mem : name ∈ todo) :
    name ∈ (Op.enumerate (head :: todo) out asked).unlisted stage := by
  cases stage <;> first | exact mem | exact List.mem_cons_of_mem _ mem

theorem unlisted_same (enabled : s.Enabled act) {earlier : Stage} (inside : s.tasks i = .inside op earlier)
    (within : (s.next c now act).tasks i = .inside op stage) {name : String} (mem : name ∈ op.unlisted stage) :
    name ∈ op.unlisted earlier := by
  obtain ⟨todo, out, asked, rfl⟩ : ∃ todo out asked, op = .enumerate todo out asked := by
    cases op with
    | enumerate todo out asked => exact ⟨todo, out, asked, rfl⟩
    | _ => cases mem
  have moved : Moves c s now act (s.next c now act) := moves enabled
  rcases moved.changes i with same | changes
  · cases inside.symm.trans (same.symm.trans within)
    exact mem
  have pursues := congrArg Task.pursues within
  rw [within] at changes
  cases changes with
  | rests aside resting => exact absurd rfl (ne_inside_of_resting resting)
  | asks aside asked begun index =>
    rw [inside] at aside
    exact aside.elim
  | admitted waiting => cases inside.symm.trans waiting
  | serves held active provider ready arrival => cases inside.symm.trans held
  | advances held advance =>
    cases inside.symm.trans held
    cases advance with
    | wants wanted vacant => exact mem
    | created other q => exact mem
    | abandons other q => exact mem
  | reaps held active displaces =>
    cases inside.symm.trans held
    exact mem
  | rebuilds held goes =>
    cases inside.symm.trans held
    cases listed_over (c := c) inside pursues
  | leaves held leaves resting => exact absurd rfl (ne_inside_of_resting resting)
  | spawns held known installed new grown =>
    cases inside.symm.trans held
    exact List.mem_of_mem_tail mem
  | connects held active =>
    cases inside.symm.trans held
    exact mem
  | warms held read goes became =>
    cases inside.symm.trans held
    cases goes
  | warmupFails held read became =>
    cases inside.symm.trans held
    exact mem
  | removes held clears removed active =>
    cases inside.symm.trans held
    cases removed with
    | spawns => exact mem
    | continues => exact mem
    | throws q name eager thrown => cases thrown
    | killed q cancelled thrown => cases thrown
    | ends q sequel resting => exact absurd rfl (ne_inside_of_resting resting)

theorem unlisted_next (enabled : s.Enabled act) {earlier : Stage} {first : Op}
    (inside : s.tasks i = .inside first earlier) (within : (s.next c now act).tasks i = .inside op stage)
    {name : String} (mem : name ∈ op.unlisted stage) : name ∈ first.unlisted earlier := by
  have follows : Follows (s.next c now act) first op := by
    refine follows_of_pursues enabled inside ?_
    rw [within]
    rfl
  cases follows with
  | lists => exact unlisted_of_mem (mem_of_unlisted mem)
  | streams => cases mem
  | routes => cases mem
  | same => exact unlisted_same enabled inside within mem

theorem names_nodup (c : Settings) : c.names.Nodup := (List.perm_insertionSort _ _).nodup_iff.mpr c.distinct

theorem cutShort_noteListing (complete : (noteListing c r s label).cutShort = false) : r.cutShort = false := by
  rw [Bool.eq_false_iff]
  intro short
  simp [noteListing, short] at complete

theorem populated_of_noteListing (unpopulated : (noteListing c r s label).populated = false) :
    r.populated = false := by
  rw [Bool.eq_false_iff]
  intro populated
  rw [noteListing_populated populated] at unpopulated
  cases unpopulated

/-- What is new in the record is the provider at the head of the enumeration that spawns it. -/
theorem mem_listed {name : String} (kept : Kept c s) (mem : name ∈ (noteListing c r s label).listed) :
    name ∈ r.listed ∨ ∃ i todo out asked eager, label.2 = .proceed i ∧
      s.tasks i = .inside (.enumerate (name :: todo) out asked) (.spawning name eager) ∧
      (s.next c label.1 label.2).tasks i = .inside (.enumerate (name :: todo) out asked) (.creating s.nextProc) ∧
      (noteListing c r s label).listed = r.listed ++ [name] := by
  cases spawned : s.spawned? c label.2 with
  | none =>
    simp only [noteListing, spawned] at mem
    exact .inl mem
  | some pair =>
    obtain ⟨op, provider⟩ := pair
    cases listing : op.enumerates with
    | false =>
      simp only [noteListing, spawned, listing] at mem
      exact .inl mem
    | true =>
      have record : (noteListing c r s label).listed = r.listed ++ [provider] := by
        simp only [noteListing, spawned, listing, if_true]
      rw [record, List.mem_append, List.mem_singleton] at mem
      rcases mem with old | rfl
      · exact .inl old
      · obtain ⟨i, eager, proceeds, inside, creating⟩ := inside_of_spawned label.1 spawned
        have asked := kept.spawns i op _ inside
        cases op with
        | enumerate todo out asks =>
          cases todo with
          | nil => cases asked
          | cons head todo =>
            cases asked
            exact .inr ⟨i, todo, out, asks, _, proceeds, inside, creating, record⟩
        | _ => cases listing

theorem Ordered.distinct_next (ordered : Ordered s r) (enabled : s.Enabled act) {todo : List String}
    {out : Dict String (List Voice)} {asked : Option SynthesizeRequest}
    (pursues : ((s.next c now act).tasks i).pursues = some (.enumerate todo out asked)) : todo.Nodup := by
  rcases pursues_cases enabled pursues with already | opens | ⟨earlier, stage, inside, follows⟩
  · exact ordered.distinct i todo out asked already
  · cases opens with
    | populates empty => exact names_nodup c
    | enumerateAll => exact names_nodup c
  · cases follows with
    | same => exact ordered.distinct i todo out asked (by rw [inside]; rfl)
    | lists => exact (ordered.distinct i _ _ asked (by rw [inside]; rfl)).of_cons

theorem Ordered.nodup_next (ordered : Ordered s r) (kept : Kept c s)
    (complete : (noteListing c r s label).cutShort = false) : (noteListing c r s label).listed.Nodup := by
  have before := cutShort_noteListing complete
  have nodup := ordered.nodup before
  cases spawned : s.spawned? c label.2 with
  | none =>
    simp only [noteListing, spawned]
    exact nodup
  | some pair =>
    obtain ⟨op, name⟩ := pair
    cases listing : op.enumerates with
    | false =>
      simp only [noteListing, spawned, listing]
      exact nodup
    | true =>
      simp only [noteListing, spawned, listing, if_true]
      obtain ⟨i, eager, -, inside, -⟩ := inside_of_spawned label.1 spawned
      have asked := kept.spawns i op _ inside
      rw [List.nodup_append]
      refine ⟨nodup, List.nodup_singleton name, ?_⟩
      rintro old listed _ last rfl
      rw [List.mem_singleton] at last
      subst last
      refine ordered.behind before i op _ inside listing old listed ?_
      cases op with
      | enumerate todo out asks =>
        cases todo with
        | nil => cases asked
        | cons head todo =>
          cases asked
          exact List.mem_cons_self ..
      | _ => cases listing

/-- An enumeration that starts finds nothing listed, unless one has left the index non-empty. -/
theorem Ordered.listed_nil (ordered : Ordered s r) (later : Exclusive (s.next c now act)) (complete : r.cutShort = false) (unpopulated : r.populated = false)
    (outside : (s.tasks i).lists = false) (within : ((s.next c now act).tasks i).lists = true) : r.listed = [] := by
  by_contra listed
  obtain ⟨j, lists⟩ := lists_of_enumerates (ordered.underWay complete unpopulated listed)
  have other : j ≠ i := by
    rintro rfl
    cases outside.symm.trans lists
  have mine : act.task = some i := by
    by_contra elsewhere
    rw [tasks_next elsewhere, outside] at within
    cases within
  have elsewhere : act.task ≠ some j := by
    rw [mine]
    exact fun eq => other (Option.some.inj eq).symm
  obtain ⟨op, stage, inside, -⟩ := inside_of_lists lists
  obtain ⟨mineOp, mineStage, here, -⟩ := inside_of_lists within
  rw [← tasks_next elsewhere] at inside
  exact other (later.only here inside)

theorem Ordered.behind_next (ordered : Ordered s r) (sought : Sought (s.next c label.1 label.2) (noteListing c r s label))
    (kept : Kept c s) (enabled : s.Enabled label.2) (complete : (noteListing c r s label).cutShort = false)
    (within : (s.next c label.1 label.2).tasks i = .inside op stage) (listing : op.enumerates = true)
    {name : String} (listed : name ∈ (noteListing c r s label).listed) : name ∉ op.unlisted stage := by
  have before := cutShort_noteListing complete
  have later : Exclusive (s.next c label.1 label.2) := kept.exclusive.next enabled
  rcases mem_listed kept listed with old | ⟨j, todo, out, asked, eager, proceeds, inside, creating, -⟩
  · intro mem
    by_cases outside : (s.tasks i).lists = true
    · obtain ⟨first, earlier, inside, enumerates⟩ := inside_of_lists outside
      exact ordered.behind before i first earlier inside enumerates name old (unlisted_next enabled inside within mem)
    · have lists : ((s.next c label.1 label.2).tasks i).lists = true := by
        rw [within]
        exact listing
      have unpopulated : r.populated = false := by
        rw [Bool.eq_false_iff]
        intro populated
        have idle := (sought.settled (noteListing_populated populated)).2 i op (by rw [within]; rfl)
        cases idle.symm.trans listing
      have none := ordered.listed_nil later before unpopulated (Bool.eq_false_iff.mpr outside) lists
      rw [none] at old
      cases old
  · obtain rfl := later.only creating within
    cases creating.symm.trans within
    exact (List.nodup_cons.mp (ordered.distinct _ _ out asked (by rw [inside]; rfl))).1

theorem Ordered.underWay_next (ordered : Ordered s r) (kept : Kept c s) (enabled : s.Enabled label.2)
    (complete : (noteListing c r s label).cutShort = false)
    (unpopulated : (noteListing c r s label).populated = false)
    (listed : (noteListing c r s label).listed ≠ []) : (s.next c label.1 label.2).enumerates = true := by
  have before := cutShort_noteListing complete
  by_contra ended
  rw [Bool.not_eq_true] at ended
  by_cases none : r.listed = []
  · obtain ⟨name, mem⟩ := List.exists_mem_of_ne_nil _ listed
    rcases mem_listed kept mem with old | ⟨j, todo, out, asked, eager, -, -, creating, -⟩
    · rw [none] at old
      cases old
    · have later : Exclusive (s.next c label.1 label.2) := kept.exclusive.next enabled
      have under := later.enumerates_of_lists (lists_of_inside creating)
      cases ended.symm.trans under
  · have under := ordered.underWay before (populated_of_noteListing unpopulated) none
    simp only [noteListing, under, ended, Bool.not_false, Bool.and_true, Bool.true_and, Bool.or_eq_false_iff]
      at complete unpopulated
    rw [complete.2] at unpopulated
    cases unpopulated.2

structure Listed (c : Settings) (s : Supervisor) (r : Listing) : Prop where
  kept : Kept c s
  sought : Sought s r
  ordered : Ordered s r

theorem Listed.next (listed : Listed c s r) (enabled : (populating c).enabled s label)
    (nobody : LeavesNobody c s label) : Listed c (s.next c label.1 label.2) (noteListing c r s label) := by
  have exclusive := listed.kept.exclusive
  have sought : Sought (s.next c label.1 label.2) (noteListing c r s label) :=
    ⟨fun populated => listed.sought.settled_next exclusive enabled nobody populated,
      fun unpopulated => listed.sought.unserved_next exclusive enabled.1 unpopulated⟩
  refine ⟨listed.kept.next enabled.1, sought, ?_⟩
  exact ⟨fun _ _ _ _ pursues => listed.ordered.distinct_next enabled.1 pursues,
    fun complete => listed.ordered.nodup_next listed.kept complete,
    fun complete _ _ _ within listing _ mem =>
      listed.ordered.behind_next sought listed.kept enabled.1 complete within listing mem,
    fun complete unpopulated more => listed.ordered.underWay_next listed.kept enabled.1 complete unpopulated more⟩

theorem start_listed (c : Settings) (defaultProvider : String) : Listed c (start defaultProvider) noListing :=
  ⟨start_kept c defaultProvider, ⟨nofun, fun _ => ⟨rfl, rfl, nofun⟩⟩,
    ⟨nofun, fun _ => List.nodup_nil, fun _ => nofun, fun _ _ none => absurd rfl none⟩⟩

theorem Listed.once (listed : Listed c s r) (enabled : (populating c).enabled s label)
    (nobody : LeavesNobody c s label) : Once c s r label := by
  have after := listed.next enabled nobody
  refine ⟨?_, after.ordered.nodup, ?_⟩
  · rintro i - starts
    rw [Bool.eq_false_iff]
    intro populated
    obtain ⟨op, stage, within, enumerates⟩ := inside_of_lists starts
    have idle := (after.sought.settled (noteListing_populated populated)).2 i op (by rw [within]; rfl)
    cases idle.symm.trans enumerates
  · rintro i p lists - -
    obtain ⟨op, stage, inside, enumerates⟩ := inside_of_lists lists
    cases before : r.populated with
    | true =>
      have idle := (listed.sought.settled before).2 i op (by rw [inside]; rfl)
      cases idle.symm.trans enumerates
    | false =>
      rw [(listed.sought.unserved before).2.1]
      exact List.not_mem_nil

/-- In a run in which no caller is left waiting to enumerate when an enumeration leaves the index
non-empty, the providers are listed once. -/
theorem once_of_leavesNobody {defaultProvider : String} {labels : List (Nat × SupervisorAct)}
    (alone : ((populating c).recorded (noteListing c)).Admits (fun s label => LeavesNobody c s.1 label)
      (start defaultProvider, noListing) labels) :
    ((populating c).recorded (noteListing c)).Admits (fun s label => Once c s.1 s.2 label)
      (start defaultProvider, noListing) labels := by
  have preserved : ∀ s label, Listed c s.1 s.2 → ((populating c).recorded (noteListing c)).enabled s label →
      LeavesNobody c s.1 label → Listed c (((populating c).recorded (noteListing c)).next s label).1
        (((populating c).recorded (noteListing c)).next s label).2 :=
    fun _ _ listed enabled nobody => listed.next enabled nobody
  exact alone.imp preserved (fun _ _ listed enabled nobody => listed.once enabled nobody)
    (start_listed c defaultProvider)

def afVoice : List PbVoice := [⟨"af", "en-us", .female, ""⟩]

def listing : List SupervisorAct :=
  [.proceed 1, .proceed 1, .created 1, .connected 1, .exchange 0 (.answer (.warmup 24000 afVoice)), .readWarmup 1,
    .teardown 0 .write, .exits 0, .teardown 0 (.giveUp false), .teardown 0 .exited, .reaped 1]

def listedTwice : List (Nat × SupervisorAct) :=
  untimed ([.enumerateAll 1, .enumerateAll 2] ++ listing ++ [.proceed 1])

theorem listedTwice_starts :
    ¬∀ (c : Settings) (defaultProvider : String) (labels : List (Nat × SupervisorAct)) (t : Supervisor × Listing)
      (label : Nat × SupervisorAct),
      ((populating c).recorded (noteListing c)).Run (fun _ _ => True) (start defaultProvider, noListing) labels t →
      (populating c).enabled t.1 label → Once c t.1 t.2 label := by
  intro claimed
  have admitted : ((populating onlyKokoro).recorded (noteListing onlyKokoro)).Admits (fun _ _ => True)
      (start "kokoro-onnx", noListing) listedTwice :=
    ⟨⟨⟨rfl, by rintro _ ⟨⟩; rfl⟩, trivial⟩, ⟨⟨rfl, by rintro _ ⟨⟩; rfl⟩, trivial⟩,
      ⟨⟨⟨_, _, rfl, rfl⟩, nofun⟩, trivial⟩, ⟨⟨⟨_, _, rfl, rfl⟩, nofun⟩, trivial⟩,
      ⟨⟨⟨_, _, rfl⟩, nofun⟩, trivial⟩, ⟨⟨⟨_, _, rfl⟩, nofun⟩, trivial⟩,
      ⟨⟨⟨by decide, rfl, ⟨rfl, nofun⟩, trivial⟩, nofun⟩, trivial⟩, ⟨⟨⟨_, _, rfl, nofun⟩, nofun⟩, trivial⟩,
      ⟨⟨rfl, nofun⟩, trivial⟩, ⟨⟨⟨by decide, rfl⟩, nofun⟩, trivial⟩, ⟨⟨⟨rfl, nofun⟩, nofun⟩, trivial⟩,
      ⟨⟨⟨.inl rfl, rfl⟩, nofun⟩, trivial⟩, ⟨⟨⟨_, _, _, _, rfl, rfl⟩, nofun⟩, trivial⟩,
      ⟨⟨⟨_, _, rfl, rfl⟩, nofun⟩, trivial⟩, trivial⟩
  have once := claimed onlyKokoro "kokoro-onnx" listedTwice _ (0, .acquire 2) admitted.run
    ⟨⟨⟨_, rfl⟩, rfl, rfl⟩, nofun⟩
  cases once.starts 2 rfl rfl

theorem tasks_after {labels : List (Nat × SupervisorAct)} (elsewhere : ∀ label ∈ labels, label.2.task ≠ some i) :
    ((system c).after s labels).tasks i = s.tasks i := by
  induction labels generalizing s with
  | nil => rfl
  | cons label rest ih =>
    have later := @ih (s.next c label.1 label.2) fun label mem => elsewhere label (List.mem_cons_of_mem _ mem)
    exact later.trans (tasks_next (elsewhere label (List.mem_cons_self ..)))

def listedOnce : List (Nat × SupervisorAct) :=
  untimed (.enumerateAll 1 :: listing ++ [.proceed 1, .connect 2 ⟨"af", 0, "", "Good morning."⟩])

theorem listedOnce_once :
    ((populating onlyKokoro).recorded (noteListing onlyKokoro)).Admits
      (fun s label => Once onlyKokoro s.1 s.2 label) (start "kokoro-onnx", noListing) listedOnce := by
  have nobody : ∀ j op, ((system onlyKokoro).after (start "kokoro-onnx") (untimed (.enumerateAll 1 :: listing))).tasks j =
      .waiting op → op.enumerates = false := by
    intro j op waiting
    by_cases same : j = 1
    · subst same
      cases waiting
    · have elsewhere : ∀ label ∈ untimed (.enumerateAll 1 :: listing), label.2.task ≠ some j := by
        simp [untimed, listing, SupervisorAct.task, Ne.symm same]
      rw [tasks_after elsewhere] at waiting
      cases waiting
  refine once_of_leavesNobody ?_
  exact ⟨⟨⟨rfl, by rintro _ ⟨⟩; rfl⟩, nofun⟩,
    ⟨⟨⟨_, _, rfl, rfl⟩, nofun⟩, by rintro _ _ _ ⟨⟩; nofun⟩,
    ⟨⟨⟨_, _, rfl, rfl⟩, nofun⟩, by rintro _ _ _ ⟨⟩; nofun⟩,
    ⟨⟨⟨_, _, rfl⟩, nofun⟩, nofun⟩, ⟨⟨⟨_, _, rfl⟩, nofun⟩, nofun⟩,
    ⟨⟨⟨by decide, rfl, ⟨rfl, nofun⟩, trivial⟩, nofun⟩, nofun⟩, ⟨⟨⟨_, _, rfl, nofun⟩, nofun⟩, nofun⟩,
    ⟨⟨rfl, nofun⟩, nofun⟩, ⟨⟨⟨by decide, rfl⟩, nofun⟩, nofun⟩, ⟨⟨⟨rfl, nofun⟩, nofun⟩, nofun⟩,
    ⟨⟨⟨.inl rfl, rfl⟩, nofun⟩, nofun⟩, ⟨⟨⟨_, _, _, _, rfl, rfl⟩, nofun⟩, nofun⟩,
    ⟨⟨⟨_, _, rfl, rfl⟩, nofun⟩, fun _ _ _ _ _ _ => nobody⟩, ⟨⟨rfl, nofun⟩, nofun⟩, trivial⟩

end Supervisor

end Daemon

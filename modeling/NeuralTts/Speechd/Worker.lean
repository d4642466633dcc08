import NeuralTts.Daemon.Protocol
import NeuralTts.Library.History

/-! `SpeechWorker._run` of the output module: one utterance, from the daemon to paplay, with the
events that speechd is told. A `stop()` can come between any two of its steps. -/

namespace Speechd

open Daemon Library

/-- What the thread of `_run` does next. -/
inductive Point
  | announcing
  | launching
  | requesting
  | awaiting
  | testing
  | reading
  | writing (pcm : Bytes)
  | closing
  /-- `terminated`: the wait of ten seconds has timed out. -/
  | waiting (terminated : Bool)
  | cleaning
  | deciding
  | emitting (event : String)
  | done

/-- The calls that can raise an exception that only the outer `except` catches. -/
def Point.Raises : Point → Prop
  | .launching | .requesting | .awaiting | .reading | .writing _ => True
  | _ => False

def Point.Underway : Point → Prop
  | .announcing | .emitting _ | .done => False
  | _ => True

theorem Point.Raises.underway {point : Point} (raises : point.Raises) : point.Underway := by
  cases point <;> trivial

/-- The most steps of the worker before this point, where three are charged to each response. -/
def Point.spent : Point → Nat
  | .announcing | .writing _ => 0
  | .launching | .testing => 1
  | .requesting | .reading => 2
  | .awaiting | .closing => 3
  | .waiting false => 4
  | .waiting true => 5
  | .cleaning => 6
  | .deciding => 7
  | .emitting _ => 8
  | .done => 9

theorem Point.spent_le (point : Point) : point.spent ≤ 9 := by
  cases point with
  | waiting terminated => cases terminated <;> exact Nat.le_of_ble_eq_true rfl
  | _ => exact Nat.le_of_ble_eq_true rfl

theorem Point.Raises.spent {point : Point} (raises : point.Raises) : point.spent ≤ 3 := by
  cases point <;> first | exact Nat.le_of_ble_eq_true rfl | cases raises

structure SpeechWorker where
  point : Point := .announcing
  stop : Bool := false
  stopped : Bool := false
  received : List Response := []
  written : List Bytes := []
  emitted : List String := []

inductive WorkerAct
  /-- `stop()`. That it closes the connection and terminates paplay shows as an error of a later
  read or write, which can come at any time. -/
  | stop
  | announce
  | launch
  | request
  | header (resp : Response)
  | raised
  | test
  | frame (resp : Response)
  | lost
  | write
  | broken
  /-- `paplay_stdin.close()`; an `OSError` of it is swallowed. -/
  | close
  | exit
  | timeout
  | clean
  | decide
  | finish
deriving DecidableEq

namespace SpeechWorker

def emit (w : SpeechWorker) (event : String) : SpeechWorker := { w with emitted := w.emitted ++ [event] }

def receive (w : SpeechWorker) (resp : Response) : SpeechWorker :=
  { w with received := w.received ++ [resp] }

def gotHeader (w : SpeechWorker) : Response → SpeechWorker
  | .synthesizeHeader _ => { w with point := .testing }
  | _ => { w with stopped := true, point := .cleaning }

def gotFrame (w : SpeechWorker) : Response → SpeechWorker
  | .audioChunk pcm => { w with point := .writing pcm }
  | .audioEnd => { w with point := .closing }
  | .error _ => { w with stopped := true, point := .closing }
  | _ => { w with point := .testing }

def verdict (w : SpeechWorker) : String := if w.stop ∨ w.stopped then "703 STOP" else "702 END"

def Enabled (w : SpeechWorker) : WorkerAct → Prop
  | .stop => True
  | .announce => w.point = .announcing
  | .launch => w.point = .launching
  | .request => w.point = .requesting
  | .header _ => w.point = .awaiting
  | .raised => w.point.Raises
  | .test => w.point = .testing
  | .frame _ | .lost => w.point = .reading
  | .write | .broken => ∃ pcm, w.point = .writing pcm
  | .close => w.point = .closing
  | .exit | .timeout => ∃ terminated, w.point = .waiting terminated
  | .clean => w.point = .cleaning
  | .decide => w.point = .deciding
  | .finish => ∃ event, w.point = .emitting event

def next (w : SpeechWorker) : WorkerAct → SpeechWorker
  | .stop => { w with stop := true }
  | .announce => { w.emit "701 BEGIN" with point := .launching }
  | .launch => { w with point := .requesting }
  | .request => { w with point := .awaiting }
  | .header resp => (w.receive resp).gotHeader resp
  | .raised => { w with stopped := true, point := .cleaning }
  | .test => { w with point := if w.stop then .closing else .reading }
  | .frame resp => (w.receive resp).gotFrame resp
  | .lost => { w with stopped := true, point := .closing }
  | .write =>
    match w.point with
    | .writing pcm => { w with written := w.written ++ [pcm], point := .testing }
    | _ => w
  | .broken => { w with stopped := true, point := .closing }
  | .close => { w with point := .waiting false }
  | .exit => { w with point := .cleaning }
  | .timeout =>
    match w.point with
    | .waiting false => { w with point := .waiting true }
    -- killed: nothing waits for it any more
    | _ => { w with point := .cleaning }
  | .clean => { w with point := .deciding }
  | .decide => { w with point := .emitting w.verdict }
  | .finish =>
    match w.point with
    | .emitting event => { w.emit event with point := .done }
    | _ => w

def system : System SpeechWorker WorkerAct where
  enabled := Enabled
  next := next

def pcmOf : Response → Option Bytes
  | .audioChunk pcm => some pcm
  | _ => none

/-- A header and later an `audio_end` have come, and paplay has taken all the sound that came
before the `audio_end`, in order. -/
def Delivered (w : SpeechWorker) : Prop :=
  ∃ before rate between after,
    w.received = before ++ .synthesizeHeader rate :: (between ++ .audioEnd :: after) ∧
      w.written = (before ++ between).filterMap pcmOf

/-- A `stop()` has come before the first `last`. -/
def Asked (last : WorkerAct) (labels : List WorkerAct) : Prop :=
  .stop ∈ labels.takeWhile (· ≠ last)

structure Reports (last : WorkerAct) (labels : List WorkerAct) (w : SpeechWorker) : Prop where
  order : w.emitted <+: ["701 BEGIN", "702 END"] ∨ w.emitted <+: ["701 BEGIN", "703 STOP"]
  finished : w.point = .done → w.Delivered → ¬Asked last labels → w.emitted = ["701 BEGIN", "702 END"]
  cut : w.point = .done → ¬(w.Delivered ∧ ¬Asked last labels) → w.emitted = ["701 BEGIN", "703 STOP"]
  progress : w.point ≠ .done → ∃ act, act ≠ .stop ∧ w.Enabled act
  bounded : (labels.filter (· ≠ .stop)).length ≤ 9 + 3 * w.received.length

/-- The stream has begun, has not ended, and `taken` is its sound so far. -/
structure Streaming (stopped : Bool) (received : List Response) (taken : List Bytes) : Prop where
  going : stopped = false
  begun : ∃ rate mid, received = .synthesizeHeader rate :: mid ∧ .audioEnd ∉ mid ∧
    taken = mid.filterMap pcmOf

structure Finished (stopped : Bool) (received : List Response) (written : List Bytes) : Prop where
  going : stopped = false
  ended : ∃ rate mid, received = .synthesizeHeader rate :: (mid ++ [.audioEnd]) ∧
    written = mid.filterMap pcmOf

/-- An `audio_end` in the place of the header ends no stream. -/
def Unended (received : List Response) : Prop := .audioEnd ∉ received.tail

def Told (w : SpeechWorker) (history : List WorkerAct) (event : String) : Prop :=
  (w.Delivered ∧ ¬Asked .decide history ∧ event = "702 END") ∨
    (¬(w.Delivered ∧ ¬Asked .decide history) ∧ event = "703 STOP")

def Stage (w : SpeechWorker) : Point → Prop
  | .announcing | .launching | .requesting | .awaiting => w.stopped = false ∧ w.received = [] ∧ w.written = []
  | .testing | .reading => Streaming w.stopped w.received w.written
  | .writing pcm => Streaming w.stopped w.received (w.written ++ [pcm])
  | .closing | .waiting _ | .cleaning | .deciding =>
    Finished w.stopped w.received w.written ∨ (Unended w.received ∧ (w.stopped ∨ w.stop))
  | .emitting _ | .done => True

/-- Before the decision the flag is set where a `stop()` has come. -/
structure Watched (w : SpeechWorker) (history : List WorkerAct) : Prop where
  ahead : .decide ∉ history
  flag : w.stop ↔ .stop ∈ history

structure Announced (w : SpeechWorker) (history : List WorkerAct) : Prop extends w.Watched history where
  emitted : w.emitted = ["701 BEGIN"]

def Course (w : SpeechWorker) (history : List WorkerAct) : Point → Prop
  | .announcing => w.Watched history ∧ w.emitted = []
  | .emitting event => .decide ∈ history ∧ w.emitted = ["701 BEGIN"] ∧ w.Told history event
  | .done => .decide ∈ history ∧ ∃ event, w.emitted = ["701 BEGIN", event] ∧ w.Told history event
  | _ => w.Announced history

structure Kept (w : SpeechWorker) (history : List WorkerAct) : Prop where
  stage : w.Stage w.point
  course : w.Course history w.point
  spends : (history.filter (· ≠ .stop)).length ≤ w.point.spent + 3 * w.received.length

variable {w : SpeechWorker} {history : List WorkerAct} {act : WorkerAct} {event : String}

theorem Finished.delivered (finished : Finished w.stopped w.received w.written) : w.Delivered := by
  obtain ⟨rate, mid, received, written⟩ := finished.ended
  exact ⟨[], rate, mid, [], received, written⟩

theorem Unended.not_delivered (unended : Unended w.received) : ¬w.Delivered := by
  rintro ⟨before, rate, between, after, received, -⟩
  refine unended ?_
  rw [received]
  cases before <;> simp

theorem Streaming.unended {stopped : Bool} {received : List Response} {taken : List Bytes}
    (streaming : Streaming stopped received taken) : Unended received := by
  obtain ⟨rate, mid, rfl, unended, -⟩ := streaming.begun
  exact unended

theorem asked_append_of_mem {last : WorkerAct} (come : last ∈ history) (more : List WorkerAct) :
    Asked last (history ++ more) ↔ Asked last history := by
  unfold Asked
  induction history with
  | nil => cases come
  | cons act history ih =>
    by_cases same : act = last
    · subst same
      simp
    · have later : last ∈ history := (List.mem_cons.mp come).resolve_left (Ne.symm same)
      simp only [List.cons_append, List.takeWhile_cons, decide_eq_true same, if_true, List.mem_cons, ih later]

theorem asked_append_of_notMem {last : WorkerAct} (ahead : last ∉ history) (more : List WorkerAct) :
    Asked last (history ++ more) ↔ .stop ∈ history ∨ Asked last more := by
  have before : ∀ act ∈ history, decide (act ≠ last) = true :=
    fun act come => decide_eq_true fun same => ahead (same ▸ come)
  unfold Asked
  rw [List.takeWhile_append_of_pos before, List.mem_append]

theorem Told.append (told : w.Told history event) (decided : .decide ∈ history) (act : WorkerAct) :
    w.Told (history ++ [act]) event := by
  unfold Told
  rw [asked_append_of_mem decided]
  exact told

theorem told_verdict (stage : w.Stage .deciding) (watched : w.Watched history) :
    w.Told (history ++ [.decide]) w.verdict := by
  obtain ⟨ahead, flag⟩ := watched
  have asked : Asked .decide (history ++ [.decide]) ↔ w.stop := by
    rw [asked_append_of_notMem ahead, flag]
    simp [Asked]
  unfold Told verdict
  rw [asked]
  rcases stage with finished | ⟨unended, set⟩
  · by_cases stop : w.stop
    · exact .inr ⟨fun delivered => delivered.2 stop, if_pos (.inl stop)⟩
    · exact .inl ⟨finished.delivered, stop, if_neg (by simp [stop, finished.going])⟩
  · exact .inr ⟨fun delivered => unended.not_delivered delivered.1, if_pos set.symm⟩

theorem Streaming.receive {stopped : Bool} {received : List Response} {written : List Bytes}
    (streaming : Streaming stopped received written) (resp : Response) (goes : resp ≠ .audioEnd) :
    Streaming stopped (received ++ [resp]) (written ++ (pcmOf resp).toList) := by
  obtain ⟨going, rate, mid, rfl, unended, rfl⟩ := streaming
  refine ⟨going, rate, mid ++ [resp], rfl, ?_, ?_⟩
  · simpa [unended] using goes.symm
  · rw [List.filterMap_append]
    cases made : pcmOf resp <;> simp [made]

theorem Streaming.finish {stopped : Bool} {received : List Response} {written : List Bytes}
    (streaming : Streaming stopped received written) :
    Finished stopped (received ++ [.audioEnd]) written := by
  obtain ⟨going, rate, mid, rfl, -, taken⟩ := streaming
  exact ⟨going, rate, mid, rfl, taken⟩

theorem stage_gotHeader (stage : w.Stage .awaiting) (resp : Response) :
    ((w.receive resp).gotHeader resp).Stage ((w.receive resp).gotHeader resp).point := by
  obtain ⟨going, received, written⟩ := stage
  cases resp with
  | synthesizeHeader rate => exact ⟨going, rate, [], by simp [gotHeader, receive, received], nofun, written⟩
  | _ => exact .inr ⟨by simp [Unended, gotHeader, receive, received], .inl rfl⟩

theorem stage_gotFrame (stage : w.Stage .reading) (resp : Response) :
    ((w.receive resp).gotFrame resp).Stage ((w.receive resp).gotFrame resp).point := by
  have received := Streaming.receive stage resp
  cases resp with
  | audioChunk pcm => exact received nofun
  | audioEnd => exact .inl (Streaming.finish stage)
  | error message => exact .inr ⟨(received nofun).unended, .inl rfl⟩
  | _ =>
    rw [show pcmOf _ = none from rfl, Option.toList_none, List.append_nil] at received
    exact received nofun

theorem unended_of_raises (stage : w.Stage w.point) (raises : w.point.Raises) : Unended w.received := by
  cases at_ : w.point with
  | launching | requesting | awaiting =>
    rw [at_] at stage
    rw [stage.2.1]
    exact List.not_mem_nil
  | reading | writing =>
    rw [at_] at stage
    exact Streaming.unended stage
  | _ =>
    rw [at_] at raises
    cases raises

theorem stage_next (stage : w.Stage w.point) (enabled : w.Enabled act) :
    (w.next act).Stage (w.next act).point := by
  cases act with
  | stop =>
    change ({ w with stop := true } : SpeechWorker).Stage w.point
    cases at_ : w.point with
    | closing | waiting | cleaning | deciding =>
      rw [at_] at stage
      exact Or.imp_right (fun cut => ⟨cut.1, .inr rfl⟩) stage
    | _ =>
      rw [at_] at stage
      exact stage
  | announce | launch | request | close | clean =>
    have at_ : w.point = _ := enabled
    rw [at_] at stage
    exact stage
  | header resp =>
    have at_ : w.point = .awaiting := enabled
    rw [at_] at stage
    exact stage_gotHeader stage resp
  | raised =>
    have unended := unended_of_raises stage enabled
    exact .inr ⟨unended, .inl rfl⟩
  | test =>
    have at_ : w.point = .testing := enabled
    rw [at_] at stage
    by_cases stop : w.stop
    · simp only [next, if_pos stop]
      exact .inr ⟨Streaming.unended stage, .inr stop⟩
    · simp only [next, if_neg stop]
      exact stage
  | frame resp =>
    have at_ : w.point = .reading := enabled
    rw [at_] at stage
    exact stage_gotFrame stage resp
  | lost =>
    have at_ : w.point = .reading := enabled
    rw [at_] at stage
    exact .inr ⟨Streaming.unended stage, .inl rfl⟩
  | write =>
    obtain ⟨pcm, at_⟩ := enabled
    rw [at_] at stage
    simp only [next, at_]
    exact stage
  | broken =>
    obtain ⟨pcm, at_⟩ := enabled
    rw [at_] at stage
    exact .inr ⟨Streaming.unended stage, .inl rfl⟩
  | exit =>
    obtain ⟨terminated, at_⟩ := enabled
    rw [at_] at stage
    exact stage
  | timeout =>
    obtain ⟨terminated, at_⟩ := enabled
    rw [at_] at stage
    simp only [next, at_]
    cases terminated <;> exact stage
  | decide => trivial
  | finish =>
    obtain ⟨event, at_⟩ := enabled
    simp only [next, at_]
    trivial

structure Passes (w w' : SpeechWorker) : Prop where
  leaves : w.point.Underway
  enters : w'.point.Underway
  stop : w'.stop = w.stop
  emitted : w'.emitted = w.emitted

theorem passes_next (enabled : w.Enabled act) (plain : act ∉ [.stop, .announce, .decide, .finish]) :
    Passes w (w.next act) := by
  cases act with
  | stop | announce | decide | finish => simp at plain
  | launch | request | close | clean | lost =>
    have at_ : w.point = _ := enabled
    exact ⟨by rw [at_]; trivial, trivial, rfl, rfl⟩
  | header resp =>
    have at_ : w.point = _ := enabled
    cases resp <;> exact ⟨by rw [at_]; trivial, trivial, rfl, rfl⟩
  | frame resp =>
    have at_ : w.point = _ := enabled
    cases resp <;> exact ⟨by rw [at_]; trivial, trivial, rfl, rfl⟩
  | raised => exact ⟨Point.Raises.underway enabled, trivial, rfl, rfl⟩
  | test =>
    have at_ : w.point = _ := enabled
    refine ⟨by rw [at_]; trivial, ?_, rfl, rfl⟩
    cases stop : w.stop <;> simp [next, stop, Point.Underway]
  | write =>
    obtain ⟨pcm, at_⟩ := enabled
    simp only [next, at_]
    exact ⟨by rw [at_]; trivial, trivial, rfl, rfl⟩
  | broken | exit =>
    obtain ⟨pcm, at_⟩ := enabled
    exact ⟨by rw [at_]; trivial, trivial, rfl, rfl⟩
  | timeout =>
    obtain ⟨terminated, at_⟩ := enabled
    simp only [next, at_]
    cases terminated <;> exact ⟨by rw [at_]; trivial, trivial, rfl, rfl⟩

theorem Watched.append {w' : SpeechWorker} (watched : w.Watched history) (undecided : act ≠ .decide)
    (flag : w'.stop ↔ w.stop ∨ act = .stop) : w'.Watched (history ++ [act]) where
  ahead := by simpa [watched.ahead] using undecided.symm
  flag := by
    rw [flag, watched.flag]
    simp [eq_comm]

theorem course_of_underway (underway : w.point.Underway) :
    w.Course history w.point ↔ w.Announced history := by
  cases at_ : w.point with
  | announcing | emitting | done =>
    rw [at_] at underway
    cases underway
  | _ => rfl

theorem Passes.course {w' : SpeechWorker} (passes : Passes w w') (course : w.Course history w.point)
    (plain : act ∉ [.stop, .announce, .decide, .finish]) : w'.Course (history ++ [act]) w'.point := by
  rw [course_of_underway passes.enters]
  have announced := (course_of_underway passes.leaves).mp course
  have unasked : act ≠ .stop := fun same => plain (same ▸ by simp)
  have undecided : act ≠ .decide := fun same => plain (same ▸ by simp)
  refine ⟨announced.toWatched.append undecided ?_, passes.emitted.trans announced.emitted⟩
  simp [passes.stop, unasked]

theorem course_stop (course : w.Course history w.point) :
    (w.next .stop).Course (history ++ [.stop]) w.point := by
  cases at_ : w.point with
  | announcing =>
    rw [at_] at course
    exact ⟨course.1.append nofun (by simp [next]), course.2⟩
  | emitting event =>
    rw [at_] at course
    obtain ⟨decided, emitted, told⟩ := course
    exact ⟨List.mem_append_left _ decided, emitted, told.append decided _⟩
  | done =>
    rw [at_] at course
    obtain ⟨decided, event, emitted, told⟩ := course
    exact ⟨List.mem_append_left _ decided, event, emitted, told.append decided _⟩
  | _ =>
    rw [at_] at course
    exact ⟨Watched.append course.toWatched nofun (by simp [next]), course.emitted⟩

theorem course_next (kept : w.Kept history) (enabled : w.Enabled act) :
    (w.next act).Course (history ++ [act]) (w.next act).point := by
  obtain ⟨stage, course, -⟩ := kept
  by_cases plain : act ∉ [.stop, .announce, .decide, .finish]
  · exact (passes_next enabled plain).course course plain
  · simp only [List.mem_cons, List.not_mem_nil, or_false, not_not] at plain
    rcases plain with rfl | rfl | rfl | rfl
    · exact course_stop course
    · have at_ : w.point = .announcing := enabled
      rw [at_] at course
      obtain ⟨watched, emitted⟩ := course
      exact ⟨watched.append nofun (by simp [next, emit]), by simp [next, emit, emitted]⟩
    · have at_ : w.point = .deciding := enabled
      rw [at_] at course stage
      have told := told_verdict stage course.toWatched
      exact ⟨by simp, course.emitted, told⟩
    · obtain ⟨event, at_⟩ := enabled
      rw [at_] at course
      obtain ⟨decided, emitted, told⟩ := course
      simp only [next, at_]
      exact ⟨List.mem_append_left _ decided, event, by simp [emit, emitted], told.append decided _⟩

theorem spent_next (enabled : w.Enabled act) (worker : act ≠ .stop) :
    w.point.spent + 3 * w.received.length + 1 ≤
      (w.next act).point.spent + 3 * (w.next act).received.length := by
  cases act with
  | stop => cases worker rfl
  | announce | launch | request | close | clean | decide | lost =>
    have at_ : w.point = _ := enabled
    simp only [next, emit, at_, Point.spent]
    omega
  | header resp =>
    have at_ : w.point = .awaiting := enabled
    cases resp <;> simp [next, gotHeader, receive, at_, Point.spent] <;> omega
  | frame resp =>
    have at_ : w.point = .reading := enabled
    cases resp <;> simp [next, gotFrame, receive, at_, Point.spent] <;> omega
  | test =>
    have at_ : w.point = .testing := enabled
    cases stop : w.stop <;> simp only [next, stop, if_true, if_false, Bool.false_eq_true, at_, Point.spent] <;> omega
  | raised =>
    have early := Point.Raises.spent enabled
    change _ ≤ 6 + 3 * w.received.length
    omega
  | write | broken =>
    obtain ⟨pcm, at_⟩ := enabled
    simp only [next, at_, Point.spent]
    omega
  | exit | timeout =>
    obtain ⟨terminated, at_⟩ := enabled
    cases terminated <;> simp only [next, at_, Point.spent] <;> omega
  | finish =>
    obtain ⟨event, at_⟩ := enabled
    simp only [next, emit, at_, Point.spent]
    omega

theorem spends_next (spends : (history.filter (· ≠ .stop)).length ≤ w.point.spent + 3 * w.received.length)
    (enabled : w.Enabled act) :
    ((history ++ [act]).filter (· ≠ .stop)).length ≤
      (w.next act).point.spent + 3 * (w.next act).received.length := by
  rw [List.filter_append, List.length_append]
  by_cases worker : act = .stop
  · subst worker
    simpa [next] using spends
  · have more := spent_next enabled worker
    simp only [List.filter_cons, decide_eq_true worker, if_true, List.filter_nil, List.length_singleton]
    omega

theorem Kept.next (kept : w.Kept history) (enabled : w.Enabled act) :
    (w.next act).Kept (history ++ [act]) :=
  ⟨stage_next kept.stage enabled, course_next kept enabled, spends_next kept.spends enabled⟩

theorem start_kept : Kept {} [] := ⟨⟨rfl, rfl, rfl⟩, ⟨⟨nofun, by simp⟩, rfl⟩, Nat.le_refl 0⟩

theorem enabled_of_point (running : w.point ≠ .done) : ∃ act, act ≠ .stop ∧ w.Enabled act := by
  cases at_ : w.point with
  | announcing => exact ⟨.announce, nofun, at_⟩
  | launching => exact ⟨.launch, nofun, at_⟩
  | requesting => exact ⟨.request, nofun, at_⟩
  | awaiting => exact ⟨.header .unset, nofun, at_⟩
  | testing => exact ⟨.test, nofun, at_⟩
  | reading => exact ⟨.lost, nofun, at_⟩
  | writing pcm => exact ⟨.broken, nofun, pcm, at_⟩
  | closing => exact ⟨.close, nofun, at_⟩
  | waiting terminated => exact ⟨.exit, nofun, terminated, at_⟩
  | cleaning => exact ⟨.clean, nofun, at_⟩
  | deciding => exact ⟨.decide, nofun, at_⟩
  | emitting event => exact ⟨.finish, nofun, event, at_⟩
  | done => exact absurd at_ running

theorem Kept.order (kept : w.Kept history) :
    w.emitted <+: ["701 BEGIN", "702 END"] ∨ w.emitted <+: ["701 BEGIN", "703 STOP"] := by
  have course := kept.course
  cases at_ : w.point with
  | announcing =>
    rw [at_] at course
    rw [course.2]
    exact .inl List.nil_prefix
  | emitting =>
    rw [at_] at course
    rw [course.2.1]
    exact .inl ⟨_, rfl⟩
  | done =>
    rw [at_] at course
    obtain ⟨-, event, emitted, told⟩ := course
    rw [emitted]
    rcases told with ⟨-, -, rfl⟩ | ⟨-, rfl⟩
    · exact .inl List.prefix_rfl
    · exact .inr List.prefix_rfl
  | _ =>
    rw [at_] at course
    rw [course.emitted]
    exact .inl ⟨_, rfl⟩

theorem Kept.told (kept : w.Kept history) (ended : w.point = .done) :
    ∃ event, w.emitted = ["701 BEGIN", event] ∧ w.Told history event := by
  have course := kept.course
  rw [ended] at course
  exact course.2

theorem Kept.reports (kept : w.Kept history) : Reports .decide history w where
  order := kept.order
  finished ended delivered unasked := by
    obtain ⟨event, emitted, told⟩ := kept.told ended
    rcases told with ⟨-, -, rfl⟩ | ⟨amiss, -⟩
    · exact emitted
    · exact absurd ⟨delivered, unasked⟩ amiss
  cut ended amiss := by
    obtain ⟨event, emitted, told⟩ := kept.told ended
    rcases told with ⟨delivered, unasked, -⟩ | ⟨-, rfl⟩
    · exact absurd ⟨delivered, unasked⟩ amiss
    · exact emitted
  progress := enabled_of_point
  bounded := kept.spends.trans (Nat.add_le_add_right w.point.spent_le _)

theorem run_kept {labels more : List WorkerAct} {w' : SpeechWorker}
    (run : system.Run (fun _ _ => True) w more w') (kept : w.Kept labels) : w'.Kept (labels ++ more) := by
  induction run generalizing labels with
  | nil => rwa [List.append_nil]
  | cons allowed _ _ ih =>
    rw [List.append_cons]
    exact ih (kept.next allowed)

/-- Every utterance is one `701 BEGIN` and then one last event, which is `702 END` where a whole
stream has been played and no `stop()` had come when the worker looked at the flag for it. -/
theorem run_reports {labels : List WorkerAct}
    (run : system.Run (fun _ _ => True) {} labels w) : Reports .decide labels w :=
  (run_kept run start_kept).reports

def played : List WorkerAct :=
  [.announce, .launch, .request, .header (.synthesizeHeader 24000), .test, .frame (.audioChunk [1, 2]),
    .write, .test, .frame .audioEnd, .close, .exit, .clean, .decide]

theorem played_admitted (last : List WorkerAct) (admitted : system.Admits (fun _ _ => True)
    (system.after {} played) last) : system.Admits (fun _ _ => True) {} (played ++ last) :=
  ⟨⟨rfl, trivial⟩, ⟨rfl, trivial⟩, ⟨rfl, trivial⟩, ⟨rfl, trivial⟩, ⟨rfl, trivial⟩, ⟨rfl, trivial⟩,
    ⟨⟨_, rfl⟩, trivial⟩, ⟨rfl, trivial⟩, ⟨rfl, trivial⟩, ⟨rfl, trivial⟩, ⟨⟨_, rfl⟩, trivial⟩,
    ⟨rfl, trivial⟩, ⟨rfl, trivial⟩, admitted⟩

theorem played_reports : Reports .decide (played ++ [.finish]) (system.after {} (played ++ [.finish])) :=
  run_reports (played_admitted [.finish] ⟨⟨⟨_, rfl⟩, trivial⟩, trivial⟩).run

/-- A `stop()` between the decision and the last event. -/
theorem stopped_late_reports_end :
    ¬∀ (labels : List WorkerAct) (w : SpeechWorker),
      system.Run (fun _ _ => True) {} labels w → Reports .finish labels w := by
  intro claimed
  have admitted := played_admitted [.stop, .finish] ⟨⟨trivial, trivial⟩, ⟨⟨_, rfl⟩, trivial⟩, trivial⟩
  have emitted := (claimed _ _ admitted.run).cut rfl
    fun whole => whole.2 (by simp [Asked, played])
  have differ : ["701 BEGIN", "702 END"] ≠ ["701 BEGIN", "703 STOP"] := by decide
  exact differ emitted

end SpeechWorker

end Speechd

import Mathlib.Data.List.Range
import Mathlib.Logic.Function.Basic
import NeuralTts.Library.Simulation
import NeuralTts.Speechd.Ssml
import NeuralTts.Speechd.Worker

/-! The object `WORKER` over a whole session: the main thread that starts and stops it, and the threads that
it has started. They share its flag, its connection and its paplay, which each of them looks up anew. -/

namespace Speechd

open Daemon Library

/-- What a thread of `_run` does next, with the connection that it is reading from. -/
inductive ThreadPoint
  | announcing
  | launching
  | requesting
  | asking
  | awaiting (conn : Nat)
  | grabbing
  | testing
  | reading
  | receiving (conn : Nat)
  | writing (pcm : Bytes)
  | closing
  | waiting (terminated : Bool)
  | cleaning
  | deciding
  | emitting (event : String)
  | done

structure Thread where
  text : Chars
  point : ThreadPoint := .announcing
  stopped : Bool := false
  /-- The paplay whose `stdin` it writes to. -/
  paplayStdin : Option Nat := none

/-- Where the main thread stands in `start` and `stop`. -/
inductive MainPoint
  | ready
  | stopping (next : Option Chars)
  | joining (next : Option Chars)
  | clearing (text : Chars)
  | spawning (text : Chars)

/-- Threads, connections and players go by the number of the thread that they are opened by or for. -/
structure Workers where
  main : MainPoint := .ready
  threads : Nat → Thread := fun _ => { text := [] }
  /-- How many threads have been started; `_thread` is the last. -/
  count : Nat := 0
  stop : Bool := false
  conn : Option Nat := none
  paplay : Option Nat := none
  /-- History: the texts to speak, the event lines with the thread that wrote each, the requests on each
  connection, what each thread has read and from where, and what each paplay has taken and from whom. -/
  spoken : List Chars := []
  lines : List (Option Nat × String) := []
  asked : Nat → List (Nat × Chars) := fun _ => []
  received : Nat → List (Nat × Response) := fun _ => []
  heard : Nat → List (Nat × Bytes) := fun _ => []

inductive ThreadAct
  | work (act : WorkerAct)
  | launchFails (popened : Bool)
  | call
  | grab

inductive WorkersAct
  /-- SPEAK with a text that is not empty; `busy` is what the main thread finds. -/
  | speak (text : Chars) (busy : Bool)
  | blank
  /-- STOP, PAUSE or QUIT. -/
  | halt (busy : Bool)
  | stop
  | joined
  | timedOut
  | clear
  | spawn
  | thread (i : Nat) (act : ThreadAct)

namespace Workers

variable (s : Workers) (i : Nat)

def setThread (thread : Thread) : Workers := { s with threads := Function.update s.threads i thread }

def goto (point : ThreadPoint) : Workers := s.setThread i { s.threads i with point := point }

/-- `stopped = True` -/
def fail (point : ThreadPoint) : Workers :=
  s.setThread i { s.threads i with point := point, stopped := true }

def writeLine (event : String) : Workers := { s with lines := s.lines ++ [(some i, event)] }

def receive (conn : Nat) (resp : Response) : Workers :=
  { s with received := Function.update s.received i (s.received i ++ [(conn, resp)]) }

def ask (conn : Nat) : Workers :=
  { s with asked := Function.update s.asked conn (s.asked conn ++ [(i, (s.threads i).text)]) }

def hear (paplay : Nat) (pcm : Bytes) : Workers :=
  { s with heard := Function.update s.heard paplay (s.heard paplay ++ [(i, pcm)]) }

def gotHeader : Response → Workers
  | .synthesizeHeader _ => s.goto i .grabbing
  | _ => s.fail i .cleaning

def gotFrame : Response → Workers
  | .audioChunk pcm => s.goto i (.writing pcm)
  | .audioEnd => s.goto i .closing
  | .error _ => s.fail i .closing
  | _ => s.goto i .testing

def verdict : String := if s.stop ∨ (s.threads i).stopped then "703 STOP" else "702 END"

def Quiet : Prop := ∀ k, k + 1 = s.count → (s.threads k).point = .done

/-- A look-up of a field that is `None` raises as well. -/
def Raises : ThreadPoint → Prop
  | .requesting | .awaiting _ | .receiving _ | .writing _ => True
  | .asking | .reading => s.conn = none
  | .grabbing | .waiting _ => s.paplay = none
  | _ => False

def WorkEnabled (s : Workers) (i : Nat) : WorkerAct → Prop
  | .stop => False
  | .announce => (s.threads i).point = .announcing
  | .launch => (s.threads i).point = .launching
  | .request => (s.threads i).point = .requesting ∧ s.conn ≠ none
  | .header _ => ∃ conn, (s.threads i).point = .awaiting conn
  | .raised => s.Raises (s.threads i).point
  | .test => (s.threads i).point = .testing
  | .frame _ | .lost => ∃ conn, (s.threads i).point = .receiving conn
  | .write | .broken => ∃ pcm, (s.threads i).point = .writing pcm
  | .close => (s.threads i).point = .closing
  | .exit | .timeout => ∃ terminated, (s.threads i).point = .waiting terminated
  | .clean => (s.threads i).point = .cleaning
  | .decide => (s.threads i).point = .deciding
  | .finish => ∃ event, (s.threads i).point = .emitting event

def ThreadEnabled (s : Workers) (i : Nat) : ThreadAct → Prop
  | .work act => s.WorkEnabled i act
  | .launchFails _ => (s.threads i).point = .launching
  | .call => ((s.threads i).point = .asking ∨ (s.threads i).point = .reading) ∧ s.conn ≠ none
  | .grab => (s.threads i).point = .grabbing ∧ s.paplay ≠ none

/-- A thread that has written its last line may still count as busy. -/
def Observes (s : Workers) (busy : Bool) : Prop := if busy then s.count ≠ 0 else s.Quiet

def Enabled (s : Workers) : WorkersAct → Prop
  | .speak _ busy | .halt busy => s.main = .ready ∧ s.Observes busy
  | .blank => s.main = .ready
  | .stop => ∃ next, s.main = .stopping next
  | .joined => (∃ next, s.main = .joining next) ∧ s.Quiet
  | .timedOut => (∃ next, s.main = .joining next) ∧ ¬s.Quiet
  | .clear => ∃ text, s.main = .clearing text
  | .spawn => ∃ text, s.main = .spawning text
  | .thread i act => i < s.count ∧ s.ThreadEnabled i act

def work (s : Workers) (i : Nat) : WorkerAct → Workers
  | .stop => s
  | .announce => (s.goto i .launching).writeLine i "701 BEGIN"
  | .launch => { s.goto i .requesting with conn := some i, paplay := some i }
  | .request =>
    match s.conn with
    | some conn => (s.goto i .asking).ask i conn
    | none => s
  | .header resp =>
    match (s.threads i).point with
    | .awaiting conn => (s.receive i conn resp).gotHeader i resp
    | _ => s
  | .raised => s.fail i .cleaning
  | .test => s.goto i (if s.stop then .closing else .reading)
  | .frame resp =>
    match (s.threads i).point with
    | .receiving conn => (s.receive i conn resp).gotFrame i resp
    | _ => s
  | .lost => s.fail i .closing
  | .write =>
    match (s.threads i).point, (s.threads i).paplayStdin with
    | .writing pcm, some paplay => (s.goto i .testing).hear i paplay pcm
    | _, _ => s
  | .broken => s.fail i .closing
  | .close => s.goto i (.waiting false)
  | .exit => s.goto i .cleaning
  | .timeout =>
    match (s.threads i).point with
    | .waiting false => s.goto i (.waiting true)
    | _ => s.goto i .cleaning
  | .clean => { s.goto i .deciding with conn := none, paplay := none }
  | .decide => s.goto i (.emitting (s.verdict i))
  | .finish =>
    match (s.threads i).point with
    | .emitting event => (s.goto i .done).writeLine i event
    | _ => s

def threadStep (s : Workers) (i : Nat) : ThreadAct → Workers
  | .work act => s.work i act
  | .launchFails popened => { s.fail i .cleaning with paplay := if popened then some i else s.paplay }
  | .call =>
    match (s.threads i).point, s.conn with
    | .asking, some conn => s.goto i (.awaiting conn)
    | .reading, some conn => s.goto i (.receiving conn)
    | _, _ => s
  | .grab => s.setThread i { s.threads i with point := .testing, paplayStdin := s.paplay }

def stopReturns : Option Chars → MainPoint
  | some text => .clearing text
  | none => .ready

def next (s : Workers) : WorkersAct → Workers
  | .speak text busy =>
    { s with main := if busy then .stopping (some text) else .clearing text, spoken := s.spoken ++ [text] }
  | .blank => { s with lines := s.lines ++ [(none, "701 BEGIN"), (none, "702 END")] }
  | .halt busy => { s with main := if busy then .stopping none else .ready }
  -- Closing the connection and terminating paplay show as errors of later reads and writes.
  | .stop =>
    match s.main with
    | .stopping next => { s with stop := true, main := .joining next }
    | _ => s
  | .joined | .timedOut =>
    match s.main with
    | .joining next => { s with main := stopReturns next }
    | _ => s
  | .clear =>
    match s.main with
    | .clearing text => { s with stop := false, main := .spawning text }
    | _ => s
  | .spawn =>
    match s.main with
    | .spawning text =>
      { s with main := .ready, threads := Function.update s.threads s.count { text := text }, count := s.count + 1 }
    | _ => s
  | .thread i act => s.threadStep i act

def system : System Workers WorkersAct where
  enabled := Enabled
  next := next

def InTime (s : Workers) (act : WorkersAct) : Prop := act = .clear → s.Quiet

end Workers

/-- What `WORKER` is for: one utterance after the other, each on its own. -/
structure Utterances where
  count : Nat := 0
  worker : Nat → SpeechWorker := fun _ => {}

inductive UtterancesAct
  | begin
  | act (k : Nat) (act : WorkerAct)

namespace Utterances

def system : System Utterances UtterancesAct where
  enabled u
    | .begin => ∀ k, k + 1 = u.count → (u.worker k).point = .done
    | .act k act => k + 1 = u.count ∧ (u.worker k).Enabled act
  next u
    | .begin => { u with count := u.count + 1, worker := Function.update u.worker u.count {} }
    | .act k act => { u with worker := Function.update u.worker k ((u.worker k).next act) }

end Utterances

def ThreadPoint.view : ThreadPoint → Point
  | .announcing => .announcing
  | .launching => .launching
  | .requesting => .requesting
  | .asking | .awaiting _ => .awaiting
  | .grabbing | .testing => .testing
  | .reading | .receiving _ => .reading
  | .writing pcm => .writing pcm
  | .closing => .closing
  | .waiting terminated => .waiting terminated
  | .cleaning => .cleaning
  | .deciding => .deciding
  | .emitting event => .emitting event
  | .done => .done

def MainPoint.pending : MainPoint → List Chars
  | .stopping (some text) | .joining (some text) | .clearing text | .spawning text => [text]
  | .ready | .stopping none | .joining none => []

def Owned (k : Nat) (conn paplay paplayStdin : Option Nat) (asked : List (Nat × Chars)) : ThreadPoint → Prop
  | .announcing | .launching => asked = []
  | .requesting => conn = some k ∧ paplay = some k ∧ asked = []
  | .asking | .grabbing => conn = some k ∧ paplay = some k
  | .awaiting c => c = k ∧ conn = some k ∧ paplay = some k
  | .testing | .reading | .writing _ => conn = some k ∧ paplay = some k ∧ paplayStdin = some k
  | .receiving c => c = k ∧ conn = some k ∧ paplay = some k ∧ paplayStdin = some k
  | .closing | .waiting _ => paplay = some k
  | .cleaning | .deciding | .emitting _ | .done => True

namespace Workers

def workerLines (s : Workers) : List (Nat × String) :=
  s.lines.filterMap fun line => line.1.map fun i => (i, line.2)

/-- Thread `k` of the object is where the lone worker `w` is; what it has read, played and asked is all its own. -/
structure Agrees (s : Workers) (k : Nat) (w : SpeechWorker) : Prop where
  point : w.point = (s.threads k).point.view
  stopped : w.stopped = (s.threads k).stopped
  received : s.received k = w.received.map fun resp => (k, resp)
  heard : s.heard k = w.written.map fun pcm => (k, pcm)
  asked : s.asked k <+: [(k, (s.threads k).text)]

def OwnedBy (s : Workers) (k : Nat) : Prop :=
  Owned k s.conn s.paplay (s.threads k).paplayStdin (s.asked k) (s.threads k).point

structure Shows (s : Workers) (u : Utterances) : Prop where
  count : u.count = s.count
  agrees : ∀ k < s.count, s.Agrees k (u.worker k)
  past : ∀ k, k + 1 < s.count → (s.threads k).point = .done
  owned : ∀ k, k + 1 = s.count → s.OwnedBy k
  flag : ∀ k, k + 1 = s.count → (∀ text, s.main ≠ .spawning text) → (u.worker k).stop = s.stop
  cleared : ∀ text, s.main = .spawning text → s.stop = false ∧ s.Quiet
  fresh : ∀ k, s.count ≤ k → s.asked k = [] ∧ s.received k = [] ∧ s.heard k = []
  lines : s.workerLines = (List.range s.count).flatMap fun k => (u.worker k).emitted.map fun event => (k, event)
  texts : s.spoken = ((List.range s.count).map fun k => (s.threads k).text) ++ s.main.pending

structure Frame (s t : Workers) (k : Nat) : Prop where
  main : t.main = s.main
  count : t.count = s.count
  stop : t.stop = s.stop
  spoken : t.spoken = s.spoken
  text : (t.threads k).text = (s.threads k).text
  threads : ∀ j, j ≠ k → t.threads j = s.threads j
  asked : ∀ j, j ≠ k → t.asked j = s.asked j
  received : ∀ j, j ≠ k → t.received j = s.received j
  heard : ∀ j, j ≠ k → t.heard j = s.heard j

structure Mirrors (s t : Workers) (k : Nat) (w w' : SpeechWorker) : Prop where
  frame : s.Frame t k
  agrees : t.Agrees k w'
  owned : t.OwnedBy k
  stop : w'.stop = w.stop
  told : ∃ more, w'.emitted = w.emitted ++ more ∧ t.workerLines = s.workerLines ++ more.map fun event => (k, event)

variable {s t : Workers} {u : Utterances} {k : Nat} {w w' : SpeechWorker} {act : WorkerAct}

theorem Agrees.framed (agrees : s.Agrees k w) {j : Nat} (frame : s.Frame t j) (other : k ≠ j) : t.Agrees k w := by
  refine ⟨?_, ?_, ?_, ?_, ?_⟩
  · rw [frame.threads k other, agrees.point]
  · rw [frame.threads k other, agrees.stopped]
  · rw [frame.received k other, agrees.received]
  · rw [frame.heard k other, agrees.heard]
  · rw [frame.threads k other, frame.asked k other]
    exact agrees.asked

theorem flatMap_range_update {α : Type} (f g : Nat → List α) {more : List α}
    (same : ∀ j < k, g j = f j) (last : g k = f k ++ more) :
    (List.range (k + 1)).flatMap g = (List.range (k + 1)).flatMap f ++ more := by
  have before : (List.range k).flatMap g = (List.range k).flatMap f :=
    List.flatMap_congr fun j member => same j (List.mem_range.mp member)
  rw [List.range_succ, List.flatMap_append, List.flatMap_append, before]
  simp [last]

theorem Shows.moved (shows : s.Shows u) (current : k + 1 = s.count) (awake : ∀ text, s.main ≠ .spawning text)
    (mirrors : s.Mirrors t k (u.worker k) w') : t.Shows { u with worker := Function.update u.worker k w' } := by
  have frame := mirrors.frame
  have mine : Function.update u.worker k w' k = w' := Function.update_self ..
  have other {j : Nat} (differ : j ≠ k) : Function.update u.worker k w' j = u.worker j :=
    Function.update_of_ne differ ..
  have last {j : Nat} (here : j + 1 = t.count) : j = k := by
    rw [frame.count] at here
    omega
  refine ⟨?_, ?_, ?_, ?_, ?_, ?_, ?_, ?_, ?_⟩
  · rw [frame.count]
    exact shows.count
  · intro j started
    show t.Agrees j (Function.update u.worker k w' j)
    by_cases same : j = k
    · rw [same, mine]
      exact mirrors.agrees
    · rw [other same]
      exact (shows.agrees j (frame.count ▸ started)).framed frame same
  · intro j earlier
    rw [frame.count] at earlier
    rw [frame.threads j (by omega)]
    exact shows.past j earlier
  · intro j here
    rw [last here]
    exact mirrors.owned
  · intro j here _
    show (Function.update u.worker k w' j).stop = t.stop
    rw [last here, mine, mirrors.stop, frame.stop]
    exact shows.flag k current awake
  · intro text spawning
    exact absurd (frame.main ▸ spawning) (awake text)
  · intro j unborn
    rw [frame.count] at unborn
    have differ : j ≠ k := by omega
    rw [frame.asked j differ, frame.received j differ, frame.heard j differ]
    exact shows.fresh j unborn
  · obtain ⟨more, emitted, lines⟩ := mirrors.told
    rw [lines, shows.lines, frame.count, ← current]
    symm
    apply flatMap_range_update
    · intro j earlier
      show (Function.update u.worker k w' j).emitted.map _ = _
      rw [other (Nat.ne_of_lt earlier)]
    · show (Function.update u.worker k w' k).emitted.map _ = _
      rw [mine, emitted, List.map_append]
  · rw [frame.spoken, frame.main, frame.count, shows.texts]
    congr 1
    apply List.map_congr_left
    intro j _
    by_cases same : j = k
    · rw [same, frame.text]
    · rw [frame.threads j same]

theorem Shows.still (shows : s.Shows u) (current : k + 1 = s.count) (awake : ∀ text, s.main ≠ .spawning text)
    (mirrors : s.Mirrors t k (u.worker k) (u.worker k)) : t.Shows u := by
  have moved : t.Shows { u with worker := Function.update u.worker k (u.worker k) } := shows.moved current awake mirrors
  rwa [Function.update_eq_self] at moved

theorem Agrees.mirrors (agrees : s.Agrees k w) {thread : Thread} (threads : t.threads = Function.update s.threads k thread)
    (rest : t.main = s.main ∧ t.count = s.count ∧ t.stop = s.stop ∧ t.spoken = s.spoken ∧ t.lines = s.lines ∧
      t.asked = s.asked ∧ t.received = s.received ∧ t.heard = s.heard)
    (text : thread.text = (s.threads k).text) (point : w'.point = thread.point.view) (stopped : w'.stopped = thread.stopped)
    (same : w'.stop = w.stop ∧ w'.emitted = w.emitted ∧ w'.received = w.received ∧ w'.written = w.written)
    (owned : Owned k t.conn t.paplay thread.paplayStdin (s.asked k) thread.point) : s.Mirrors t k w w' := by
  obtain ⟨main, count, stop, spoken, lines, asked, received, heard⟩ := rest
  obtain ⟨stop', emitted', received', written'⟩ := same
  have mine : t.threads k = thread := by
    rw [threads]
    exact Function.update_self ..
  refine ⟨⟨main, count, stop, spoken, ?_, ?_, ?_, ?_, ?_⟩, ⟨?_, ?_, ?_, ?_, ?_⟩, ?_, stop', [], ?_, ?_⟩
  · rw [mine, text]
  · intro j other
    rw [threads, Function.update_of_ne other]
  · intro j _
    rw [asked]
  · intro j _
    rw [received]
  · intro j _
    rw [heard]
  · rw [mine, point]
  · rw [mine, stopped]
  · rw [received, received', agrees.received]
  · rw [heard, written', agrees.heard]
  · rw [mine, asked, text]
    exact agrees.asked
  · unfold OwnedBy
    rw [mine, asked]
    exact owned
  · rw [emitted', List.append_nil]
  · unfold workerLines
    rw [lines]
    exact (List.append_nil _).symm

theorem Frame.trans {r : Workers} (first : s.Frame t k) (second : t.Frame r k) : s.Frame r k where
  main := second.main.trans first.main
  count := second.count.trans first.count
  stop := second.stop.trans first.stop
  spoken := second.spoken.trans first.spoken
  text := second.text.trans first.text
  threads j other := (second.threads j other).trans (first.threads j other)
  asked j other := (second.asked j other).trans (first.asked j other)
  received j other := (second.received j other).trans (first.received j other)
  heard j other := (second.heard j other).trans (first.heard j other)

theorem Mirrors.trans {r : Workers} {w'' : SpeechWorker} (first : s.Mirrors t k w w') (second : t.Mirrors r k w' w'') :
    s.Mirrors r k w w'' := by
  obtain ⟨told, emitted, lines⟩ := first.told
  obtain ⟨more, emitted', lines'⟩ := second.told
  refine ⟨first.frame.trans second.frame, second.agrees, second.owned, second.stop.trans first.stop, told ++ more, ?_, ?_⟩
  · rw [emitted', emitted, List.append_assoc]
  · rw [lines', lines, List.map_append, List.append_assoc]

theorem Agrees.wrote (agrees : s.Agrees k w) (owned : s.OwnedBy k) (event : String) :
    s.Mirrors (s.writeLine k event) k w (w.emit event) where
  frame := ⟨rfl, rfl, rfl, rfl, rfl, fun _ _ => rfl, fun _ _ => rfl, fun _ _ => rfl, fun _ _ => rfl⟩
  agrees := ⟨agrees.point, agrees.stopped, agrees.received, agrees.heard, agrees.asked⟩
  owned := owned
  stop := rfl
  told := by
    refine ⟨[event], rfl, ?_⟩
    unfold workerLines writeLine
    rw [List.filterMap_append]
    rfl

theorem Agrees.got (agrees : s.Agrees k w) (owned : s.OwnedBy k) (resp : Response) :
    s.Mirrors (s.receive k k resp) k w (w.receive resp) where
  frame := ⟨rfl, rfl, rfl, rfl, rfl, fun _ _ => rfl, fun _ _ => rfl,
    fun _ other => Function.update_of_ne other .., fun _ _ => rfl⟩
  agrees := by
    refine ⟨agrees.point, agrees.stopped, ?_, agrees.heard, agrees.asked⟩
    have more : (s.receive k k resp).received k = s.received k ++ [(k, resp)] := Function.update_self ..
    have all : (w.receive resp).received = w.received ++ [resp] := rfl
    rw [more, all, agrees.received, List.map_append]
    rfl
  owned := owned
  stop := rfl
  told := ⟨[], (List.append_nil _).symm, (List.append_nil _).symm⟩

theorem Agrees.played (agrees : s.Agrees k w) (owned : s.OwnedBy k) (pcm : Bytes) :
    s.Mirrors (s.hear k k pcm) k w { w with written := w.written ++ [pcm] } where
  frame := ⟨rfl, rfl, rfl, rfl, rfl, fun _ _ => rfl, fun _ _ => rfl, fun _ _ => rfl,
    fun _ other => Function.update_of_ne other ..⟩
  agrees := by
    refine ⟨agrees.point, agrees.stopped, agrees.received, ?_, agrees.asked⟩
    have more : (s.hear k k pcm).heard k = s.heard k ++ [(k, pcm)] := Function.update_self ..
    rw [more, agrees.heard, List.map_append]
    rfl
  owned := owned
  stop := rfl
  told := ⟨[], (List.append_nil _).symm, (List.append_nil _).symm⟩

theorem Agrees.requested (agrees : s.Agrees k w) (point : (s.threads k).point = .asking) (owned : s.OwnedBy k)
    (unasked : s.asked k = []) : s.Mirrors (s.ask k k) k w w where
  frame := ⟨rfl, rfl, rfl, rfl, rfl, fun _ _ => rfl, fun _ other => Function.update_of_ne other ..,
    fun _ _ => rfl, fun _ _ => rfl⟩
  agrees := by
    refine ⟨agrees.point, agrees.stopped, agrees.received, agrees.heard, ?_⟩
    have more : (s.ask k k).asked k = s.asked k ++ [(k, (s.threads k).text)] := Function.update_self ..
    rw [more, unasked]
    exact List.prefix_rfl
  owned := by
    have same : ((s.ask k k).threads k).point = .asking := point
    unfold OwnedBy at owned ⊢
    rw [point] at owned
    rw [same]
    exact owned
  stop := rfl
  told := ⟨[], (List.append_nil _).symm, (List.append_nil _).symm⟩

theorem Agrees.goto (agrees : s.Agrees k w) {point : ThreadPoint} (viewed : w'.point = point.view)
    (same : w'.stopped = w.stopped ∧ w'.stop = w.stop ∧ w'.emitted = w.emitted ∧ w'.received = w.received ∧
      w'.written = w.written)
    (owned : Owned k s.conn s.paplay (s.threads k).paplayStdin (s.asked k) point) :
    s.Mirrors (s.goto k point) k w w' :=
  agrees.mirrors rfl ⟨rfl, rfl, rfl, rfl, rfl, rfl, rfl, rfl⟩ rfl viewed (same.1.trans agrees.stopped) same.2 owned

theorem Agrees.fail (agrees : s.Agrees k w) {point : ThreadPoint}
    (owned : Owned k s.conn s.paplay (s.threads k).paplayStdin (s.asked k) point) :
    s.Mirrors (s.fail k point) k w { w with stopped := true, point := point.view } :=
  agrees.mirrors rfl ⟨rfl, rfl, rfl, rfl, rfl, rfl, rfl, rfl⟩ rfl rfl rfl ⟨rfl, rfl, rfl, rfl⟩ owned

theorem Agrees.at (agrees : s.Agrees k w) (owned : s.OwnedBy k) {point : ThreadPoint} (here : (s.threads k).point = point) :
    w.point = point.view ∧ Owned k s.conn s.paplay (s.threads k).paplayStdin (s.asked k) point := by
  unfold OwnedBy at owned
  rw [here] at owned
  exact ⟨agrees.point.trans (congrArg ThreadPoint.view here), owned⟩

theorem mirrors_gotHeader (agrees : s.Agrees k w) {conn : Nat} (owned : Owned k s.conn s.paplay (s.threads k).paplayStdin (s.asked k) (.awaiting conn))
    (resp : Response) : s.Mirrors (s.gotHeader k resp) k w (w.gotHeader resp) := by
  cases resp with
  | synthesizeHeader rate => exact agrees.goto rfl ⟨rfl, rfl, rfl, rfl, rfl⟩ owned.2
  | _ => exact agrees.fail trivial

theorem mirrors_gotFrame (agrees : s.Agrees k w) {conn : Nat} (owned : Owned k s.conn s.paplay (s.threads k).paplayStdin (s.asked k) (.receiving conn))
    (resp : Response) : s.Mirrors (s.gotFrame k resp) k w (w.gotFrame resp) := by
  obtain ⟨-, opened, launched, grabbed⟩ := owned
  cases resp with
  | audioChunk pcm => exact agrees.goto rfl ⟨rfl, rfl, rfl, rfl, rfl⟩ ⟨opened, launched, grabbed⟩
  | audioEnd => exact agrees.goto rfl ⟨rfl, rfl, rfl, rfl, rfl⟩ launched
  | error message => exact agrees.fail launched
  | _ => exact agrees.goto rfl ⟨rfl, rfl, rfl, rfl, rfl⟩ ⟨opened, launched, grabbed⟩

theorem point_goto (s : Workers) (k : Nat) (point : ThreadPoint) : ((s.goto k point).threads k).point = point := by
  have mine : (s.goto k point).threads k = { s.threads k with point := point } := Function.update_self ..
  rw [mine]

theorem Agrees.raises (agrees : s.Agrees k w) (owned : s.OwnedBy k) (raises : s.Raises (s.threads k).point) :
    w.point.Raises := by
  cases at_ : (s.threads k).point with
  | requesting | awaiting | receiving | writing =>
    obtain ⟨here, -⟩ := agrees.at owned at_
    rw [here]
    trivial
  | asking | reading =>
    obtain ⟨-, opened, -⟩ := agrees.at owned at_
    rw [at_] at raises
    cases opened.symm.trans raises
  | grabbing =>
    obtain ⟨-, -, launched⟩ := agrees.at owned at_
    rw [at_] at raises
    cases launched.symm.trans raises
  | waiting terminated =>
    obtain ⟨-, launched⟩ := agrees.at owned at_
    rw [at_] at raises
    cases launched.symm.trans raises
  | _ =>
    rw [at_] at raises
    cases raises

theorem mirrors_work (agrees : s.Agrees k w) (owned : s.OwnedBy k) (flag : w.stop = s.stop) (enabled : s.WorkEnabled k act) :
    w.Enabled act ∧ s.Mirrors (s.work k act) k w (w.next act) := by
  cases act with
  | stop => cases enabled
  | announce =>
    obtain ⟨here, fields⟩ := agrees.at owned enabled
    have goes : s.Mirrors (s.goto k .launching) k w { w with point := .launching } :=
      agrees.goto rfl ⟨rfl, rfl, rfl, rfl, rfl⟩ fields
    exact ⟨here, goes.trans (goes.agrees.wrote goes.owned _)⟩
  | launch =>
    obtain ⟨here, fields⟩ := agrees.at owned enabled
    exact ⟨here, agrees.mirrors rfl ⟨rfl, rfl, rfl, rfl, rfl, rfl, rfl, rfl⟩ rfl rfl agrees.stopped
      ⟨rfl, rfl, rfl, rfl⟩ ⟨rfl, rfl, fields⟩⟩
  | request =>
    obtain ⟨here, opened, launched, unasked⟩ := agrees.at owned enabled.1
    have goes : s.Mirrors (s.goto k .asking) k w { w with point := .awaiting } :=
      agrees.goto rfl ⟨rfl, rfl, rfl, rfl, rfl⟩ ⟨opened, launched⟩
    have at_ : ((s.goto k .asking).threads k).point = .asking := point_goto ..
    refine ⟨here, ?_⟩
    simp only [work, opened]
    exact goes.trans (goes.agrees.requested at_ goes.owned unasked)
  | header resp =>
    obtain ⟨conn, at_⟩ := enabled
    obtain ⟨here, fields⟩ := agrees.at owned at_
    obtain rfl : conn = k := fields.1
    refine ⟨here, ?_⟩
    simp only [work, at_]
    have gets := agrees.got owned resp
    exact gets.trans (mirrors_gotHeader gets.agrees fields resp)
  | raised => exact ⟨agrees.raises owned enabled, agrees.fail trivial⟩
  | test =>
    obtain ⟨here, opened, launched, grabbed⟩ := agrees.at owned enabled
    refine ⟨here, ?_⟩
    have goes : (w.next .test).point = (if s.stop then ThreadPoint.closing else .reading).view := by
      simp only [SpeechWorker.next, flag]
      cases s.stop <;> rfl
    apply agrees.goto goes ⟨rfl, rfl, rfl, rfl, rfl⟩
    cases s.stop with
    | true => exact launched
    | false => exact ⟨opened, launched, grabbed⟩
  | frame resp =>
    obtain ⟨conn, at_⟩ := enabled
    obtain ⟨here, fields⟩ := agrees.at owned at_
    obtain rfl : conn = k := fields.1
    refine ⟨here, ?_⟩
    simp only [work, at_]
    have gets := agrees.got owned resp
    exact gets.trans (mirrors_gotFrame gets.agrees fields resp)
  | lost =>
    obtain ⟨conn, at_⟩ := enabled
    obtain ⟨here, fields⟩ := agrees.at owned at_
    exact ⟨here, agrees.fail fields.2.2.1⟩
  | write =>
    obtain ⟨pcm, at_⟩ := enabled
    obtain ⟨here, opened, launched, grabbed⟩ := agrees.at owned at_
    have goes : s.Mirrors (s.goto k .testing) k w { w with point := .testing } :=
      agrees.goto rfl ⟨rfl, rfl, rfl, rfl, rfl⟩ ⟨opened, launched, grabbed⟩
    refine ⟨⟨pcm, here⟩, ?_⟩
    simp only [work, at_, grabbed, SpeechWorker.next, here, ThreadPoint.view]
    exact goes.trans (goes.agrees.played goes.owned pcm)
  | broken =>
    obtain ⟨pcm, at_⟩ := enabled
    obtain ⟨here, opened, launched, grabbed⟩ := agrees.at owned at_
    exact ⟨⟨pcm, here⟩, agrees.fail launched⟩
  | close =>
    obtain ⟨here, launched⟩ := agrees.at owned enabled
    exact ⟨here, agrees.goto rfl ⟨rfl, rfl, rfl, rfl, rfl⟩ launched⟩
  | exit =>
    obtain ⟨terminated, at_⟩ := enabled
    obtain ⟨here, -⟩ := agrees.at owned at_
    exact ⟨⟨terminated, here⟩, agrees.goto rfl ⟨rfl, rfl, rfl, rfl, rfl⟩ trivial⟩
  | timeout =>
    obtain ⟨terminated, at_⟩ := enabled
    obtain ⟨here, launched⟩ := agrees.at owned at_
    refine ⟨⟨terminated, here⟩, ?_⟩
    simp only [work, at_, SpeechWorker.next, here, ThreadPoint.view]
    cases terminated with
    | false => exact agrees.goto rfl ⟨rfl, rfl, rfl, rfl, rfl⟩ launched
    | true => exact agrees.goto rfl ⟨rfl, rfl, rfl, rfl, rfl⟩ trivial
  | clean =>
    obtain ⟨here, -⟩ := agrees.at owned enabled
    exact ⟨here, agrees.mirrors rfl ⟨rfl, rfl, rfl, rfl, rfl, rfl, rfl, rfl⟩ rfl rfl agrees.stopped
      ⟨rfl, rfl, rfl, rfl⟩ trivial⟩
  | decide =>
    obtain ⟨here, -⟩ := agrees.at owned enabled
    have same : w.verdict = s.verdict k := by
      unfold SpeechWorker.verdict verdict
      rw [flag, agrees.stopped]
    refine ⟨here, agrees.goto ?_ ⟨rfl, rfl, rfl, rfl, rfl⟩ trivial⟩
    exact congrArg Point.emitting same
  | finish =>
    obtain ⟨event, at_⟩ := enabled
    obtain ⟨here, -⟩ := agrees.at owned at_
    have goes : s.Mirrors (s.goto k .done) k w { w with point := .done } :=
      agrees.goto rfl ⟨rfl, rfl, rfl, rfl, rfl⟩ trivial
    refine ⟨⟨event, here⟩, ?_⟩
    simp only [work, at_, SpeechWorker.next, here, ThreadPoint.view]
    exact goes.trans (goes.agrees.wrote goes.owned event)

variable {i : Nat} {step : ThreadAct}

theorem running_of_enabled (enabled : s.ThreadEnabled i step) : (s.threads i).point ≠ .done := by
  intro ended
  cases step with
  | launchFails popened => cases ended.symm.trans enabled
  | call => rcases enabled.1 with at_ | at_ <;> cases ended.symm.trans at_
  | grab => cases ended.symm.trans enabled.1
  | work act =>
    cases act with
    | stop => cases enabled
    | request => cases ended.symm.trans enabled.1
    | raised =>
      have raises : s.Raises (s.threads i).point := enabled
      rw [ended] at raises
      cases raises
    | announce | launch | test | close | clean | decide => cases ended.symm.trans enabled
    | _ =>
      obtain ⟨_, at_⟩ := enabled
      cases ended.symm.trans at_

theorem Shows.current (shows : s.Shows u) (started : i < s.count) (running : (s.threads i).point ≠ .done) :
    i + 1 = s.count ∧ ∀ text, s.main ≠ .spawning text := by
  have last : i + 1 = s.count := by
    by_contra earlier
    exact running (shows.past i (by omega))
  refine ⟨last, ?_⟩
  intro text spawning
  exact running ((shows.cleared text spawning).2 i last)

theorem mirrors_call (agrees : s.Agrees k w) (owned : s.OwnedBy k) (enabled : s.ThreadEnabled k .call) :
    s.Mirrors (s.threadStep k .call) k w w := by
  obtain ⟨asking | reading, -⟩ := enabled
  · obtain ⟨here, opened, launched⟩ := agrees.at owned asking
    simp only [threadStep, asking, opened]
    exact agrees.goto here ⟨rfl, rfl, rfl, rfl, rfl⟩ ⟨rfl, opened, launched⟩
  · obtain ⟨here, opened, launched, grabbed⟩ := agrees.at owned reading
    simp only [threadStep, reading, opened]
    exact agrees.goto here ⟨rfl, rfl, rfl, rfl, rfl⟩ ⟨rfl, opened, launched, grabbed⟩

theorem Shows.thread (shows : s.Shows u) (started : i < s.count) (enabled : s.ThreadEnabled i step) :
    ∃ labels u', Utterances.system.Run (fun _ _ => True) u labels u' ∧ (s.threadStep i step).Shows u' := by
  obtain ⟨last, awake⟩ := shows.current started (running_of_enabled enabled)
  have agrees := shows.agrees i started
  have owned := shows.owned i last
  have counted : i + 1 = u.count := last.trans shows.count.symm
  cases step with
  | work act =>
    obtain ⟨allowed, mirrors⟩ := mirrors_work agrees owned (shows.flag i last awake) enabled
    have goes : Utterances.system.enabled u (.act i act) := ⟨counted, allowed⟩
    exact ⟨_, _, System.Run.one goes trivial, shows.moved last awake mirrors⟩
  | launchFails popened =>
    obtain ⟨here, fields⟩ := agrees.at owned enabled
    have goes : Utterances.system.enabled u (.act i .raised) := by
      refine ⟨counted, ?_⟩
      show (u.worker i).point.Raises
      rw [here]
      trivial
    have mirrors : s.Mirrors (s.threadStep i (.launchFails popened)) i (u.worker i) ((u.worker i).next .raised) :=
      agrees.mirrors rfl ⟨rfl, rfl, rfl, rfl, rfl, rfl, rfl, rfl⟩ rfl rfl rfl ⟨rfl, rfl, rfl, rfl⟩ trivial
    exact ⟨_, _, System.Run.one goes trivial, shows.moved last awake mirrors⟩
  | call => exact ⟨[], u, .nil u, shows.still last awake (mirrors_call agrees owned enabled)⟩
  | grab =>
    obtain ⟨here, opened, launched⟩ := agrees.at owned enabled.1
    have mirrors : s.Mirrors (s.threadStep i .grab) i (u.worker i) (u.worker i) :=
      agrees.mirrors rfl ⟨rfl, rfl, rfl, rfl, rfl, rfl, rfl, rfl⟩ rfl here agrees.stopped ⟨rfl, rfl, rfl, rfl⟩
        ⟨opened, launched, launched⟩
    exact ⟨[], u, .nil u, shows.still last awake mirrors⟩

theorem Shows.commanded (shows : s.Shows u) {main : MainPoint} {stop : Bool} {spoken : List Chars}
    {lines : List (Option Nat × String)} {worker : Nat → SpeechWorker}
    (same : ∀ k, worker k = { u.worker k with stop := (worker k).stop })
    (flag : ∀ k, k + 1 = s.count → (∀ text, main ≠ .spawning text) → (worker k).stop = stop)
    (cleared : ∀ text, main = .spawning text → stop = false ∧ s.Quiet)
    (told : ({ s with lines := lines } : Workers).workerLines = s.workerLines)
    (texts : spoken = ((List.range s.count).map fun k => (s.threads k).text) ++ main.pending) :
    ({ s with main := main, stop := stop, spoken := spoken, lines := lines } : Workers).Shows
      { u with worker := worker } := by
  refine ⟨shows.count, ?_, shows.past, shows.owned, flag, cleared, shows.fresh, ?_, texts⟩
  · intro k started
    have agrees := shows.agrees k started
    show Agrees _ k (worker k)
    rw [same k]
    exact ⟨agrees.point, agrees.stopped, agrees.received, agrees.heard, agrees.asked⟩
  · have emitted (k : Nat) : (worker k).emitted = (u.worker k).emitted := by rw [same k]
    have unchanged : (fun k => (worker k).emitted.map fun event => (k, event)) =
        fun k => (u.worker k).emitted.map fun event => (k, event) := by
      funext k
      rw [emitted]
    show workerLines _ = (List.range s.count).flatMap fun k => (worker k).emitted.map fun event => (k, event)
    rw [unchanged, ← shows.lines]
    exact told

theorem Shows.turned (shows : s.Shows u) {main : MainPoint} (awake : ∀ text, main ≠ .spawning text)
    (before : ∀ text, s.main ≠ .spawning text) (pending : main.pending = s.main.pending) :
    ({ s with main := main } : Workers).Shows u :=
  @commanded s u shows main s.stop s.spoken s.lines u.worker (fun _ => rfl) (fun k here _ => shows.flag k here before)
    (fun text spawning => absurd spawning (awake text)) rfl (pending ▸ shows.texts)

theorem Shows.stopped (shows : s.Shows u) {next : Option Chars} (stopping : s.main = .stopping next) :
    ∃ labels u', Utterances.system.Run (fun _ _ => True) u labels u' ∧ (s.next .stop).Shows u' := by
  simp only [Workers.next, stopping]
  have texts : s.spoken = ((List.range s.count).map fun k => (s.threads k).text) ++ (MainPoint.joining next).pending := by
    rw [shows.texts, stopping]
    cases next <;> rfl
  by_cases begun : s.count = 0
  · have none_yet : ∀ k, k + 1 = s.count → (∀ text, MainPoint.joining next ≠ .spawning text) →
        (u.worker k).stop = true := by
      intro k here _
      rw [begun] at here
      cases here
    exact ⟨[], u, .nil u, shows.commanded (fun _ => rfl) none_yet (fun _ same => nomatch same) rfl texts⟩
  · obtain ⟨k, number⟩ := Nat.exists_eq_succ_of_ne_zero begun
    have goes : Utterances.system.enabled u (.act k .stop) := ⟨(shows.count.trans number).symm, trivial⟩
    refine ⟨_, _, System.Run.one goes trivial, shows.commanded ?_ ?_ (fun _ same => nomatch same) rfl texts⟩
    · intro j
      by_cases mine : j = k
      · rw [mine, Function.update_self]
        rfl
      · rw [Function.update_of_ne mine]
    · intro j here _
      obtain rfl : j = k := Nat.succ.inj (here.trans number)
      rw [Function.update_self]
      rfl

theorem Shows.spawned (shows : s.Shows u) {text : Chars} (spawning : s.main = .spawning text) :
    ∃ labels u', Utterances.system.Run (fun _ _ => True) u labels u' ∧ (s.next .spawn).Shows u' := by
  obtain ⟨unset, quiet⟩ := shows.cleared text spawning
  have goes : Utterances.system.enabled u .begin := by
    intro k here
    have last : k + 1 = s.count := here.trans shows.count
    rw [(shows.agrees k (by omega)).point, quiet k last]
    rfl
  refine ⟨_, _, System.Run.one goes trivial, ?_⟩
  simp only [Workers.next, spawning]
  have newer : u.count = s.count := shows.count
  have thread : Function.update s.threads s.count { text := text } s.count = { text := text } := Function.update_self ..
  have threads {k : Nat} (earlier : k < s.count) :
      Function.update s.threads s.count { text := text } k = s.threads k :=
    Function.update_of_ne (Nat.ne_of_lt earlier) ..
  have worker : Function.update u.worker u.count {} s.count = {} := by
    rw [newer]
    exact Function.update_self ..
  have workers {k : Nat} (earlier : k < s.count) : Function.update u.worker u.count {} k = u.worker k := by
    rw [newer]
    exact Function.update_of_ne (Nat.ne_of_lt earlier) ..
  obtain ⟨unasked, unread, unheard⟩ := shows.fresh s.count (Nat.le_refl _)
  refine ⟨congrArg (· + 1) newer, ?_, ?_, ?_, ?_, nofun, ?_, ?_, ?_⟩
  · intro k started
    show Agrees _ k (Function.update u.worker u.count {} k)
    rcases Nat.lt_succ_iff_lt_or_eq.mp started with earlier | rfl
    · have agrees := shows.agrees k earlier
      rw [workers earlier]
      refine ⟨?_, ?_, agrees.received, agrees.heard, ?_⟩
      · show _ = (Function.update s.threads s.count _ k).point.view
        rw [threads earlier, agrees.point]
      · show _ = (Function.update s.threads s.count _ k).stopped
        rw [threads earlier, agrees.stopped]
      · show s.asked k <+: [(k, (Function.update s.threads s.count _ k).text)]
        rw [threads earlier]
        exact agrees.asked
    · rw [worker]
      refine ⟨?_, ?_, unread, unheard, ?_⟩
      · show _ = (Function.update s.threads s.count _ s.count).point.view
        rw [thread]
        rfl
      · show _ = (Function.update s.threads s.count _ s.count).stopped
        rw [thread]
      · show s.asked s.count <+: _
        rw [unasked]
        exact List.nil_prefix
  · intro k earlier
    have before : k < s.count := Nat.lt_of_succ_lt_succ earlier
    show (Function.update s.threads s.count _ k).point = .done
    rw [threads before]
    rcases Nat.lt_or_eq_of_le before with later | last
    · exact shows.past k later
    · exact quiet k last
  · intro k here
    obtain rfl : k = s.count := Nat.succ.inj here
    show Owned _ _ _ (Function.update s.threads s.count _ s.count).paplayStdin (s.asked s.count)
      (Function.update s.threads s.count _ s.count).point
    rw [thread]
    exact unasked
  · intro k here _
    obtain rfl : k = s.count := Nat.succ.inj here
    show (Function.update u.worker u.count {} s.count).stop = s.stop
    rw [worker, unset]
  · intro k unborn
    exact shows.fresh k (Nat.le_of_succ_le unborn)
  · show s.workerLines = (List.range (s.count + 1)).flatMap fun k =>
      (Function.update u.worker u.count {} k).emitted.map fun event => (k, event)
    have before : ((List.range s.count).flatMap fun k =>
        (Function.update u.worker u.count {} k).emitted.map fun event => (k, event)) = s.workerLines := by
      rw [shows.lines]
      apply List.flatMap_congr
      intro k member
      rw [workers (List.mem_range.mp member)]
    rw [List.range_succ, List.flatMap_append, before]
    simp [worker]
  · show s.spoken = ((List.range (s.count + 1)).map fun k => (Function.update s.threads s.count { text := text } k).text) ++ []
    have before : ((List.range s.count).map fun k => (Function.update s.threads s.count { text := text } k).text) =
        (List.range s.count).map fun k => (s.threads k).text := by
      apply List.map_congr_left
      intro k member
      rw [threads (List.mem_range.mp member)]
    rw [shows.texts, spawning, List.range_succ, List.map_append, before, List.append_nil]
    simp [MainPoint.pending]

theorem simulates : System.Simulates system Utterances.system InTime (fun _ _ => True) Shows := by
  intro s act u shows enabled timely
  have stutters {t : Workers} (reached : t.Shows u) :
      ∃ labels u', Utterances.system.Run (fun _ _ => True) u labels u' ∧ t.Shows u' := ⟨[], u, .nil u, reached⟩
  have rests {main : MainPoint} (at_ : s.main = main) (other : ∀ text, main ≠ .spawning text) :
      ∀ text, s.main ≠ .spawning text := by
    rw [at_]
    exact other
  cases act with
  | speak text busy =>
    have awake := rests enabled.1 (fun _ same => nomatch same)
    have texts : s.spoken = ((List.range s.count).map fun k => (s.threads k).text) ++ [] := by
      rw [shows.texts, enabled.1]
      rfl
    cases busy with
    | true =>
      exact stutters (shows.commanded (fun _ => rfl) (fun k here _ => shows.flag k here awake)
        (fun _ same => nomatch same) rfl (by rw [texts, List.append_nil]; rfl))
    | false =>
      exact stutters (shows.commanded (fun _ => rfl) (fun k here _ => shows.flag k here awake)
        (fun _ same => nomatch same) rfl (by rw [texts, List.append_nil]; rfl))
  | blank =>
    have awake := rests enabled (fun _ same => nomatch same)
    refine stutters (shows.commanded (fun _ => rfl) (fun k here _ => shows.flag k here awake)
      (fun text spawning => absurd spawning (awake text)) ?_ shows.texts)
    unfold workerLines
    rw [List.filterMap_append]
    exact List.append_nil _
  | halt busy =>
    have awake := rests enabled.1 (fun _ same => nomatch same)
    have pending : ∀ {main : MainPoint}, main.pending = [] → main.pending = s.main.pending := by
      intro main none
      rw [none, enabled.1]
      rfl
    cases busy with
    | true => exact stutters (shows.turned (fun _ same => nomatch same) awake (pending rfl))
    | false => exact stutters (shows.turned (fun _ same => nomatch same) awake (pending rfl))
  | stop =>
    obtain ⟨next, stopping⟩ := enabled
    exact shows.stopped stopping
  | joined | timedOut =>
    obtain ⟨⟨next, joining⟩, -⟩ := enabled
    have awake := rests joining (fun _ same => nomatch same)
    simp only [system, Workers.next, joining]
    refine stutters (shows.turned ?_ awake ?_)
    · cases next <;> exact fun _ same => nomatch same
    · rw [joining]
      cases next <;> rfl
  | clear =>
    obtain ⟨text, clearing⟩ := enabled
    have quiet := timely rfl
    simp only [system, Workers.next, clearing]
    have asleep : ∀ k, k + 1 = s.count → (∀ other, MainPoint.spawning text ≠ .spawning other) →
        (u.worker k).stop = false := fun _ _ other => absurd rfl (other text)
    refine stutters (shows.commanded (fun _ => rfl) asleep (fun _ _ => ⟨rfl, quiet⟩) rfl ?_)
    rw [shows.texts, clearing]
    rfl
  | spawn =>
    obtain ⟨text, spawning⟩ := enabled
    exact shows.spawned spawning
  | thread i act => exact shows.thread enabled.1 enabled.2

theorem shows_start : Shows {} {} where
  count := rfl
  agrees _ started := nomatch started
  past _ earlier := nomatch earlier
  owned _ here := nomatch here
  flag _ here := nomatch here
  cleared _ spawning := nomatch spawning
  fresh _ _ := ⟨rfl, rfl, rfl⟩
  lines := rfl
  texts := rfl

end Workers

namespace Utterances

def Lone (u : Utterances) : Prop :=
  ∀ k < u.count, ∃ acts, SpeechWorker.system.Run (fun _ _ => True) {} acts (u.worker k)

theorem Lone.next {u : Utterances} (lone : u.Lone) {act : UtterancesAct} (enabled : system.enabled u act) :
    (system.next u act).Lone := by
  cases act with
  | begin =>
    intro k started
    show ∃ acts, SpeechWorker.system.Run _ {} acts (Function.update u.worker u.count {} k)
    by_cases newest : k = u.count
    · rw [newest, Function.update_self]
      exact ⟨[], .nil _⟩
    · rw [Function.update_of_ne newest]
      exact lone k (Nat.lt_of_le_of_ne (Nat.le_of_lt_succ started) newest)
  | act i act =>
    intro k started
    show ∃ acts, SpeechWorker.system.Run _ {} acts (Function.update u.worker i ((u.worker i).next act) k)
    by_cases mine : k = i
    · obtain ⟨acts, run⟩ := lone i (mine ▸ started)
      rw [mine, Function.update_self]
      exact ⟨acts ++ [act], run.append (.one enabled.2 trivial)⟩
    · rw [Function.update_of_ne mine]
      exact lone k started

end Utterances

namespace Workers

variable {s : Workers}

/-- The utterances of a session are kept apart: thread `k` goes as the lone worker `worker k`. -/
structure Apart (s : Workers) (worker : Nat → SpeechWorker) : Prop where
  lone : ∀ k < s.count, ∃ acts, SpeechWorker.system.Run (fun _ _ => True) {} acts (worker k)
  finished : ∀ k, k + 1 < s.count → (worker k).point = .done
  lines : s.workerLines = (List.range s.count).flatMap fun k => (worker k).emitted.map fun event => (k, event)
  texts : ((List.range s.count).map fun k => (s.threads k).text) <+: s.spoken
  asked : ∀ k < s.count, s.asked k <+: [(k, (s.threads k).text)]
  received : ∀ k < s.count, s.received k = (worker k).received.map fun resp => (k, resp)
  heard : ∀ k < s.count, s.heard k = (worker k).written.map fun pcm => (k, pcm)

theorem run_apart {labels : List WorkersAct} (run : system.Run InTime {} labels s) : ∃ worker, s.Apart worker := by
  obtain ⟨more, u, follows, shows⟩ := simulates.run run shows_start
  have lone : u.Lone := follows.invariant (fun _ _ lone enabled _ => lone.next enabled) (fun _ started => nomatch started)
  refine ⟨u.worker, ?_, ?_, shows.lines, ?_, ?_, ?_, ?_⟩
  · intro k started
    exact lone k (shows.count ▸ started)
  · intro k earlier
    rw [(shows.agrees k (Nat.lt_of_succ_lt earlier)).point, shows.past k earlier]
    rfl
  · rw [shows.texts]
    exact List.prefix_append ..
  · intro k started
    exact (shows.agrees k started).asked
  · intro k started
    exact (shows.agrees k started).received
  · intro k started
    exact (shows.agrees k started).heard

/-- A speechd that waits for the last line of an utterance before it sends the next text. -/
def Patient (s : Workers) (act : WorkersAct) : Prop := ∀ text busy, act = .speak text busy → s.Quiet

theorem main_threadStep (i : Nat) (step : ThreadAct) : (s.threadStep i step).main = s.main := by
  cases step with
  | work act =>
    cases act with
    | header resp =>
      simp only [threadStep, work]
      split
      · cases resp <;> rfl
      · rfl
    | frame resp =>
      simp only [threadStep, work]
      split
      · cases resp <;> rfl
      · rfl
    | request | write | timeout | finish =>
      simp only [threadStep, work]
      split <;> rfl
    | _ => rfl
  | launchFails popened => rfl
  | call =>
    simp only [threadStep]
    split <;> rfl
  | grab => rfl

structure Waits (s : Workers) : Prop where
  shows : ∃ u, s.Shows u
  quiet : s.main.pending ≠ [] → s.Quiet

theorem Waits.inTime (waits : s.Waits) {act : WorkersAct} (enabled : s.Enabled act) : s.InTime act := by
  rintro rfl
  obtain ⟨text, clearing⟩ := enabled
  apply waits.quiet
  rw [clearing]
  nofun

theorem Waits.next (waits : s.Waits) {act : WorkersAct} (enabled : s.Enabled act) (patient : s.Patient act) :
    (s.next act).Waits := by
  obtain ⟨u, shows⟩ := waits.shows
  obtain ⟨-, u', -, later⟩ := simulates s act u shows enabled (waits.inTime enabled)
  refine ⟨⟨u', later⟩, ?_⟩
  cases act with
  | speak text busy =>
    intro _
    exact patient text busy rfl
  | blank => exact waits.quiet
  | halt busy => cases busy <;> exact fun pending => absurd rfl pending
  | stop =>
    obtain ⟨next, stopping⟩ := enabled
    simp only [Workers.next, stopping]
    intro pending
    apply waits.quiet
    rw [stopping]
    cases next with
    | none => exact absurd rfl pending
    | some text => nofun
  | joined | timedOut =>
    obtain ⟨⟨next, joining⟩, -⟩ := enabled
    simp only [Workers.next, joining]
    intro pending
    apply waits.quiet
    rw [joining]
    cases next with
    | none => exact absurd rfl pending
    | some text => nofun
  | clear =>
    obtain ⟨text, clearing⟩ := enabled
    simp only [Workers.next, clearing]
    intro _
    apply waits.quiet
    rw [clearing]
    nofun
  | spawn =>
    obtain ⟨text, spawning⟩ := enabled
    simp only [Workers.next, spawning]
    exact fun pending => absurd rfl pending
  | thread i step =>
    intro pending
    have before : s.main.pending ≠ [] := main_threadStep (s := s) i step ▸ pending
    obtain ⟨last, -⟩ := shows.current enabled.1 (running_of_enabled enabled.2)
    exact absurd (waits.quiet before i last) (running_of_enabled enabled.2)

theorem inTime_of_patient {labels : List WorkersAct} (patient : system.Admits Patient {} labels) :
    system.Admits InTime {} labels :=
  patient.imp (fun _ _ waits enabled waited => Waits.next waits enabled waited)
    (fun _ _ waits enabled _ => Waits.inTime waits enabled) ⟨⟨{}, shows_start⟩, fun pending => absurd rfl pending⟩

theorem patient_apart {labels : List WorkersAct} (patient : system.Admits Patient {} labels) :
    ∃ worker, (system.after {} labels).Apart worker :=
  run_apart (inTime_of_patient patient).run

/-- The first text is stopped while its reply is read, and still counts as busy when the second comes. -/
def stoppedFirst : List WorkersAct :=
  [.speak "One.".toList false, .clear, .spawn, .thread 0 (.work .announce), .thread 0 (.work .launch),
    .thread 0 (.work .request), .thread 0 .call, .thread 0 (.work (.header (.synthesizeHeader 24000))), .thread 0 .grab,
    .thread 0 (.work .test), .thread 0 .call, .halt true, .stop, .thread 0 (.work .lost), .thread 0 (.work .close),
    .thread 0 (.work .exit), .thread 0 (.work .clean), .thread 0 (.work .decide), .thread 0 (.work .finish), .joined,
    .speak "Two.".toList true, .stop, .joined, .clear, .spawn, .thread 1 (.work .announce)]

theorem stoppedFirst_apart : ∃ worker, (system.after {} stoppedFirst).Apart worker := by
  have admitted : system.Admits Patient {} stoppedFirst :=
    ⟨⟨⟨rfl, fun _ here => nomatch here⟩, fun _ _ _ _ here => nomatch here⟩, ⟨⟨_, rfl⟩, nofun⟩, ⟨⟨_, rfl⟩, nofun⟩,
      ⟨⟨by decide, rfl⟩, nofun⟩, ⟨⟨by decide, rfl⟩, nofun⟩, ⟨⟨by decide, rfl, nofun⟩, nofun⟩,
      ⟨⟨by decide, .inl rfl, nofun⟩, nofun⟩, ⟨⟨by decide, _, rfl⟩, nofun⟩, ⟨⟨by decide, rfl, nofun⟩, nofun⟩,
      ⟨⟨by decide, rfl⟩, nofun⟩, ⟨⟨by decide, .inr rfl, nofun⟩, nofun⟩, ⟨⟨rfl, nofun⟩, nofun⟩, ⟨⟨_, rfl⟩, nofun⟩,
      ⟨⟨by decide, _, rfl⟩, nofun⟩, ⟨⟨by decide, rfl⟩, nofun⟩, ⟨⟨by decide, _, rfl⟩, nofun⟩,
      ⟨⟨by decide, rfl⟩, nofun⟩, ⟨⟨by decide, rfl⟩, nofun⟩, ⟨⟨by decide, _, rfl⟩, nofun⟩,
      ⟨⟨⟨_, rfl⟩, fun | 0, _ => rfl⟩, nofun⟩, ⟨⟨rfl, nofun⟩, fun _ _ _ => fun | 0, _ => rfl⟩, ⟨⟨_, rfl⟩, nofun⟩,
      ⟨⟨⟨_, rfl⟩, fun | 0, _ => rfl⟩, nofun⟩, ⟨⟨_, rfl⟩, nofun⟩, ⟨⟨_, rfl⟩, nofun⟩,
      ⟨⟨by decide, rfl⟩, nofun⟩, trivial⟩
  exact patient_apart admitted

/-- The second text comes before the first has a connection, whose header is late. -/
def joinsInVain : List WorkersAct :=
  [.speak "One.".toList false, .clear, .spawn, .thread 0 (.work .announce), .speak "Two.".toList true, .stop,
    .thread 0 (.work .launch), .thread 0 (.work .request), .thread 0 .call, .timedOut, .clear, .spawn,
    .thread 1 (.work .announce), .thread 1 (.work .launch), .thread 0 (.work (.header (.synthesizeHeader 24000))),
    .thread 0 .grab, .thread 0 (.work .test), .thread 0 .call, .thread 0 (.work (.frame (.audioChunk [1, 2]))),
    .thread 0 (.work .write)]

/-- Otherwise the first thread reads the second one's connection and plays to its paplay. -/
theorem joinsInVain_crosses :
    ¬∀ (labels : List WorkersAct) (s : Workers), system.Run (fun _ _ => True) {} labels s → ∃ worker, s.Apart worker := by
  intro claimed
  have admitted : system.Admits (fun _ _ => True) {} joinsInVain :=
    ⟨⟨⟨rfl, fun _ here => nomatch here⟩, trivial⟩, ⟨⟨_, rfl⟩, trivial⟩, ⟨⟨_, rfl⟩, trivial⟩,
      ⟨⟨by decide, rfl⟩, trivial⟩, ⟨⟨rfl, nofun⟩, trivial⟩, ⟨⟨_, rfl⟩, trivial⟩, ⟨⟨by decide, rfl⟩, trivial⟩,
      ⟨⟨by decide, rfl, nofun⟩, trivial⟩, ⟨⟨by decide, .inl rfl, nofun⟩, trivial⟩,
      ⟨⟨⟨_, rfl⟩, fun quiet => nomatch quiet 0 rfl⟩, trivial⟩, ⟨⟨_, rfl⟩, trivial⟩, ⟨⟨_, rfl⟩, trivial⟩,
      ⟨⟨by decide, rfl⟩, trivial⟩, ⟨⟨by decide, rfl⟩, trivial⟩, ⟨⟨by decide, _, rfl⟩, trivial⟩,
      ⟨⟨by decide, rfl, nofun⟩, trivial⟩, ⟨⟨by decide, rfl⟩, trivial⟩, ⟨⟨by decide, .inr rfl, nofun⟩, trivial⟩,
      ⟨⟨by decide, _, rfl⟩, trivial⟩, ⟨⟨by decide, _, rfl⟩, trivial⟩, trivial⟩
  obtain ⟨worker, apart⟩ := claimed _ _ admitted.run
  have heard : [(0, [1, 2])] = (worker 1).written.map fun pcm => (1, pcm) := apart.heard 1 (by decide)
  cases written : (worker 1).written with
  | nil =>
    rw [written] at heard
    cases heard
  | cons pcm rest =>
    rw [written] at heard
    cases heard

end Workers

end Speechd

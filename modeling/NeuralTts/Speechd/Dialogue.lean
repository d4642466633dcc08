import NeuralTts.Library.LineBlocks

/-! What the output module reads of speechd: the lines of `sys.stdin`, the bodies of its blocks and
the loop of `main` over its commands. -/

namespace Speechd

open Library

abbrev Chars := List Char

/-- What `sys.stdin.readline` has still to return; a `\r` ends no line. -/
abbrev Stdin := List Chars

def stdin (text : Chars) : Stdin := LineBlocks.lines '\n' text

def rstrip (dropped : Chars) (line : Chars) : Chars := line.rdropWhile (· ∈ dropped)

def EndsBody (line : Chars) : Prop := line = ".\n".toList ∨ rstrip "\r\n".toList line = ".".toList

instance (line : Chars) : Decidable (EndsBody line) := inferInstanceAs (Decidable (_ ∨ _))

/-- `read_until_dot`: the body, and what it leaves unread. -/
def readUntilDot : Stdin → List Chars × Stdin
  | [] => ([], [])
  | line :: rest =>
    if EndsBody line then ([], rest)
    else
      let line := if "..".toList <+: line then line.drop 1 else line
      let (out, rest) := readUntilDot rest
      (line :: out, rest)

inductive Block
  | speak
  | set
  | audio
  | loglevel
deriving DecidableEq

/-- A handler that `main` calls, with what it reads or is given. -/
inductive Command
  | block (kind : Block) (body : List Chars)
  | stop
  | pause
  | quit
  | listVoices (line : Chars)
  | debug (line : Chars)
  | unknown (line : Chars)
deriving DecidableEq

/-- `cmd_speak`, `cmd_set`, `cmd_audio` and `cmd_loglevel`, as far as they read. -/
def cmdBlock (kind : Block) (rest : Stdin) : Command × Stdin :=
  let (body, rest) := readUntilDot rest
  (.block kind body, rest)

/-- The command that a line is taken for, and what its handler leaves unread. -/
def dispatch (line : Chars) (rest : Stdin) : Command × Stdin :=
  if line = "SPEAK\n".toList then cmdBlock .speak rest
  else if line = "STOP\n".toList then (.stop, rest)
  else if line = "PAUSE\n".toList then (.pause, rest)
  else if line = "QUIT\n".toList then (.quit, rest)
  else if line = "SET\n".toList then cmdBlock .set rest
  else if line = "AUDIO\n".toList then cmdBlock .audio rest
  else if line = "LOGLEVEL\n".toList then cmdBlock .loglevel rest
  else if "LIST VOICES".toList <+: line then (.listVoices line, rest)
  else if "DEBUG".toList <+: line then (.debug line, rest)
  else (.unknown line, rest)

theorem readUntilDot_eq (input : Stdin) :
    readUntilDot input = LineBlocks.readBlock (EndsBody ·) (LineBlocks.unstuff '.') input := by
  induction input with
  | nil => rfl
  | cons line rest ih =>
    have dots : "..".toList = ['.', '.'] := rfl
    simp only [readUntilDot, LineBlocks.readBlock, LineBlocks.unstuff, ih, dots, List.drop_one,
      decide_eq_true_eq]

theorem length_dispatch_le (line : Chars) (rest : Stdin) : (dispatch line rest).2.length ≤ rest.length := by
  have read (kind : Block) : (cmdBlock kind rest).2.length ≤ rest.length := by
    simp only [cmdBlock, readUntilDot_eq]
    exact LineBlocks.length_readBlock_le rest
  unfold dispatch
  split_ifs <;> first | exact read _ | exact Nat.le_refl _

structure Handlers (σ : Type) where
  /-- `cmd_init`; `none` is its `sys.exit(1)`. -/
  init : Option σ
  /-- The other handlers; `none` is an exception. `cmd_quit` is left out: it ends the module. -/
  handle : σ → Command → Option σ

structure Session where
  dispatched : List Command
  unread : Stdin
  code : Nat
deriving DecidableEq

section

variable {σ : Type} (h : Handlers σ)

def after (s : σ) : Command → Except Nat σ
  | .quit => .error 0
  | command =>
    match h.handle s command with
    | some s => .ok s
    | none => .error 1

def loop (s : σ) : Stdin → Session
  | [] => ⟨[], [], 0⟩
  | line :: rest =>
    let command := (dispatch line rest).1
    match after h s command with
    | .error code => ⟨[command], (dispatch line rest).2, code⟩
    | .ok s =>
      let session := loop s (dispatch line rest).2
      { session with dispatched := command :: session.dispatched }
termination_by input => input.length
decreasing_by exact Nat.lt_succ_of_le (length_dispatch_le line rest)

/-- What the loop does with commands in a row: those dispatched, and the state after them all or
the code that one of them ends the module with. -/
def serve (s : σ) : List Command → List Command × Except Nat σ
  | [] => ([], .ok s)
  | command :: rest =>
    match after h s command with
    | .error code => ([command], .error code)
    | .ok s => (command :: (serve s rest).1, (serve s rest).2)

def main : Stdin → Session
  | [] => ⟨[], [], 0⟩
  | line :: rest =>
    if line ≠ "INIT\n".toList then ⟨[], rest, 3⟩
    else
      match h.init with
      | none => ⟨[], rest, 1⟩
      | some s => loop h s rest

end

/-- A line of its own, without the newline that ends it. -/
structure Line where
  text : Chars
  whole : '\n' ∉ text

def keywords : List Chars :=
  ["SPEAK", "STOP", "PAUSE", "QUIT", "SET", "AUDIO", "LOGLEVEL"].map String.toList

structure Strange (text : Chars) : Prop where
  keyword : text ∉ keywords
  listVoices : ¬"LIST VOICES".toList <+: text
  debug : ¬"DEBUG".toList <+: text

inductive Scripted
  | block (kind : Block) (body : List Line)
  | stop
  | pause
  | quit
  | listVoices (arguments : Line)
  | debug (arguments : Line)
  | strange (line : Line) (strange : Strange line.text)

def Block.header : Block → Chars
  | .speak => "SPEAK\n".toList
  | .set => "SET\n".toList
  | .audio => "AUDIO\n".toList
  | .loglevel => "LOGLEVEL\n".toList

/-- SSIP's dot-stuffing: a `.` before every line that starts with one. -/
def Line.stuffed (line : Line) : Chars := LineBlocks.stuff '.' line.text ++ ['\n']

def Line.ended (line : Line) : Chars := line.text ++ ['\n']

/-- What speechd writes for a body, the line that ends it included. -/
def bodyText (body : List Line) : Chars := body.flatMap Line.stuffed ++ ".\n".toList

namespace Scripted

def text : Scripted → Chars
  | .block kind body => kind.header ++ bodyText body
  | .stop => "STOP\n".toList
  | .pause => "PAUSE\n".toList
  | .quit => "QUIT\n".toList
  | .listVoices arguments => "LIST VOICES".toList ++ arguments.ended
  | .debug arguments => "DEBUG".toList ++ arguments.ended
  | .strange line _ => line.ended

def command : Scripted → Command
  | .block kind body => .block kind (body.map Line.ended)
  | .stop => .stop
  | .pause => .pause
  | .quit => .quit
  | .listVoices arguments => .listVoices ("LIST VOICES".toList ++ arguments.ended)
  | .debug arguments => .debug ("DEBUG".toList ++ arguments.ended)
  | .strange line _ => .unknown line.ended

end Scripted

def scriptText (script : List Scripted) : Chars := script.flatMap Scripted.text

theorem dispatch_header (kind : Block) (rest : Stdin) : dispatch kind.header rest = cmdBlock kind rest := by
  cases kind with
  | speak =>
    change dispatch "SPEAK\n".toList rest = cmdBlock .speak rest
    simp [dispatch]
  | set =>
    change dispatch "SET\n".toList rest = cmdBlock .set rest
    simp [dispatch]
  | audio =>
    change dispatch "AUDIO\n".toList rest = cmdBlock .audio rest
    simp [dispatch]
  | loglevel =>
    change dispatch "LOGLEVEL\n".toList rest = cmdBlock .loglevel rest
    simp [dispatch]

theorem dispatch_stop (rest : Stdin) : dispatch "STOP\n".toList rest = (.stop, rest) := by
  simp [dispatch]

theorem dispatch_pause (rest : Stdin) : dispatch "PAUSE\n".toList rest = (.pause, rest) := by
  simp [dispatch]

theorem dispatch_quit (rest : Stdin) : dispatch "QUIT\n".toList rest = (.quit, rest) := by
  simp [dispatch]

theorem dispatch_listVoices (arguments : Chars) (rest : Stdin) :
    dispatch ("LIST VOICES".toList ++ arguments) rest =
      (.listVoices ("LIST VOICES".toList ++ arguments), rest) := by
  simp [dispatch]

theorem dispatch_debug (arguments : Chars) (rest : Stdin) :
    dispatch ("DEBUG".toList ++ arguments) rest = (.debug ("DEBUG".toList ++ arguments), rest) := by
  simp [dispatch]

theorem Strange.ended_ne {line : Line} (strange : Strange line.text) (word : Chars)
    (known : word ∈ keywords) : line.ended ≠ word ++ ['\n'] := by
  intro same
  rw [← List.append_cancel_right same] at known
  exact strange.keyword known

theorem Line.prefix_text (line : Line) {word : Chars} (whole : '\n' ∉ word) (starts : word <+: line.ended) :
    word <+: line.text := by
  rcases List.prefix_concat_iff.mp starts with same | within
  · exact absurd (by simp [same]) whole
  · exact within

theorem dispatch_strange (line : Line) (strange : Strange line.text) (rest : Stdin) :
    dispatch line.ended rest = (.unknown line.ended, rest) := by
  have speak : line.ended ≠ "SPEAK\n".toList := strange.ended_ne "SPEAK".toList (by decide)
  have stop : line.ended ≠ "STOP\n".toList := strange.ended_ne "STOP".toList (by decide)
  have pause : line.ended ≠ "PAUSE\n".toList := strange.ended_ne "PAUSE".toList (by decide)
  have quit : line.ended ≠ "QUIT\n".toList := strange.ended_ne "QUIT".toList (by decide)
  have set : line.ended ≠ "SET\n".toList := strange.ended_ne "SET".toList (by decide)
  have audio : line.ended ≠ "AUDIO\n".toList := strange.ended_ne "AUDIO".toList (by decide)
  have loglevel : line.ended ≠ "LOGLEVEL\n".toList := strange.ended_ne "LOGLEVEL".toList (by decide)
  have listVoices : ¬"LIST VOICES".toList <+: line.ended :=
    mt (line.prefix_text (by decide)) strange.listVoices
  have debug : ¬"DEBUG".toList <+: line.ended := mt (line.prefix_text (by decide)) strange.debug
  simp only [dispatch, speak, stop, pause, quit, set, audio, loglevel, listVoices, debug, if_false]

def IsLine (line : Chars) : Prop := ∃ text, '\n' ∉ text ∧ line = text ++ ['\n']

theorem stdin_line {line : Chars} (isLine : IsLine line) (rest : Chars) :
    stdin (line ++ rest) = line :: stdin rest := by
  obtain ⟨text, whole, rfl⟩ := isLine
  rw [List.append_assoc]
  exact LineBlocks.lines_line whole rest

theorem Line.isLine (line : Line) : IsLine line.ended := ⟨line.text, line.whole, rfl⟩

theorem Line.isLine_after (line : Line) {word : Chars} (whole : '\n' ∉ word) : IsLine (word ++ line.ended) := by
  refine ⟨word ++ line.text, ?_, (List.append_assoc _ _ _).symm⟩
  rw [List.mem_append, not_or]
  exact ⟨whole, line.whole⟩

theorem Line.isLine_stuffed (line : Line) : IsLine line.stuffed := by
  refine ⟨LineBlocks.stuff '.' line.text, ?_, rfl⟩
  intro within
  rcases LineBlocks.mem_stuff within with dot | within
  · cases dot
  · exact line.whole within

theorem isLine_header (kind : Block) : IsLine kind.header := by
  cases kind with
  | speak => exact ⟨"SPEAK".toList, by decide, rfl⟩
  | set => exact ⟨"SET".toList, by decide, rfl⟩
  | audio => exact ⟨"AUDIO".toList, by decide, rfl⟩
  | loglevel => exact ⟨"LOGLEVEL".toList, by decide, rfl⟩

theorem stdin_bodyText (body : List Line) (further : Chars) :
    stdin (bodyText body ++ further) = body.map Line.stuffed ++ ".\n".toList :: stdin further := by
  unfold bodyText
  induction body with
  | nil => exact stdin_line ⟨".".toList, by decide, rfl⟩ further
  | cons line body ih =>
    rw [List.flatMap_cons, List.append_assoc, List.append_assoc, stdin_line line.isLine_stuffed,
      ← List.append_assoc, ih]
    rfl

theorem endsBody_stuffed (line : Line) : ¬EndsBody line.stuffed := by
  have apart : rstrip "\r\n".toList line.stuffed ≠ ".".toList :=
    LineBlocks.rdropWhile_stuff_ne line.text (by decide) (by decide)
  rintro (last | last)
  · exact apart (by rw [last]; decide)
  · exact apart last

/-- The round trip of a body: the lines come back as they were, and nothing beyond is read. -/
theorem readUntilDot_bodyText (body : List Line) (further : Chars) :
    readUntilDot (stdin (bodyText body ++ further)) = (body.map Line.ended, stdin further) := by
  have last : decide (EndsBody ".\n".toList) = true := decide_eq_true (.inl rfl)
  have apart (line : Line) : decide (EndsBody line.stuffed) = false :=
    decide_eq_false (endsBody_stuffed line)
  have back (line : Line) : LineBlocks.unstuff '.' line.stuffed = line.ended :=
    LineBlocks.unstuff_stuff line.text '\n'
  rw [stdin_bodyText, readUntilDot_eq]
  exact LineBlocks.readBlock_encoded apart back last body (stdin further)

theorem cmdBlock_bodyText (kind : Block) (body : List Line) (further : Chars) :
    cmdBlock kind (stdin (bodyText body ++ further)) = (.block kind (body.map Line.ended), stdin further) := by
  rw [cmdBlock, readUntilDot_bodyText]

theorem dispatch_text (scripted : Scripted) (further : Chars) :
    ∃ line rest, stdin (scripted.text ++ further) = line :: rest ∧
      dispatch line rest = (scripted.command, stdin further) := by
  cases scripted with
  | block kind body =>
    have read := (dispatch_header kind _).trans (cmdBlock_bodyText kind body further)
    have written : stdin (kind.header ++ bodyText body ++ further) =
        kind.header :: stdin (bodyText body ++ further) := by
      rw [List.append_assoc, stdin_line (isLine_header kind)]
    exact ⟨kind.header, _, written, read⟩
  | stop => exact ⟨_, _, stdin_line ⟨"STOP".toList, by decide, rfl⟩ further, dispatch_stop _⟩
  | pause => exact ⟨_, _, stdin_line ⟨"PAUSE".toList, by decide, rfl⟩ further, dispatch_pause _⟩
  | quit => exact ⟨_, _, stdin_line ⟨"QUIT".toList, by decide, rfl⟩ further, dispatch_quit _⟩
  | listVoices arguments =>
    exact ⟨_, _, stdin_line (arguments.isLine_after (by decide)) further, dispatch_listVoices _ _⟩
  | debug arguments =>
    exact ⟨_, _, stdin_line (arguments.isLine_after (by decide)) further, dispatch_debug _ _⟩
  | strange line strange => exact ⟨_, _, stdin_line line.isLine further, dispatch_strange line strange _⟩

/-- `raw` of `cmd_speak`, which is what is spoken once the tags are out. -/
def spokenText (body : List Chars) : Chars := rstrip "\n".toList body.flatten

def resume {σ : Type} (h : Handlers σ) (script : List Scripted) (further : Chars) :
    List Command × Except Nat σ → Session
  | (dispatched, .ok s) =>
    let session := loop h s (stdin further)
    { session with dispatched := dispatched ++ session.dispatched }
  | (dispatched, .error code) =>
    ⟨dispatched, stdin (scriptText (script.drop dispatched.length) ++ further), code⟩

/-- The second list is the first one, up to and including the first command that ends the module:
QUIT, or one whose handler raises. -/
inductive UpToEnd {σ : Type} (h : Handlers σ) : σ → List Command → List Command → Prop
  | whole (s : σ) : UpToEnd h s [] []
  | quits (s : σ) (rest : List Command) : UpToEnd h s (.quit :: rest) [.quit]
  | raises {s : σ} {command : Command} (raised : h.handle s command = none) (rest : List Command) :
      UpToEnd h s (command :: rest) [command]
  | returns {s s' : σ} {command : Command} {rest dispatched : List Command} (stays : command ≠ .quit)
      (returned : h.handle s command = some s') (later : UpToEnd h s' rest dispatched) :
      UpToEnd h s (command :: rest) (command :: dispatched)

/-- Bodies come back as they were written, and what is dispatched is what the script says, until a
handler ends the module. -/
structure Obeys {σ : Type} (h : Handlers σ) (s : σ) (script : List Scripted) (further : Chars) : Prop where
  bodies : ∀ (body : List Line) (rest : Chars),
    readUntilDot (stdin (bodyText body ++ rest)) = (body.map Line.ended, stdin rest)
  unread : ∀ (body : List Line) (rest : Chars),
    (readUntilDot (stdin (bodyText body ++ rest))).2.flatten = rest
  spoken : ∀ body : List Line, spokenText (body.map Line.ended) =
    rstrip "\n".toList (['\n'].intercalate (body.map Line.text))
  served : main h (stdin ("INIT\n".toList ++ scriptText script ++ further)) =
    resume h script further (serve h s (script.map Scripted.command))
  dispatched : UpToEnd h s (script.map Scripted.command)
    (main h (stdin ("INIT\n".toList ++ scriptText script))).dispatched

section

variable {σ : Type} {h : Handlers σ} {s : σ}

theorem loop_text (scripted : Scripted) (further : Chars) :
    loop h s (stdin (scripted.text ++ further)) =
      match after h s scripted.command with
      | .error code => ⟨[scripted.command], stdin further, code⟩
      | .ok s =>
        let session := loop h s (stdin further)
        { session with dispatched := scripted.command :: session.dispatched } := by
  obtain ⟨line, rest, written, dispatched⟩ := dispatch_text scripted further
  rw [written, loop, dispatched]

theorem loop_scriptText (script : List Scripted) (further : Chars) :
    loop h s (stdin (scriptText script ++ further)) =
      resume h script further (serve h s (script.map Scripted.command)) := by
  induction script generalizing s with
  | nil => rfl
  | cons scripted script ih =>
    have written : scriptText (scripted :: script) ++ further =
        scripted.text ++ (scriptText script ++ further) := by
      rw [scriptText, List.flatMap_cons, List.append_assoc]
      rfl
    rw [written, loop_text, List.map_cons, serve]
    cases outcome : after h s scripted.command with
    | error code => rfl
    | ok s' =>
      simp only [ih]
      cases rest : serve h s' (script.map Scripted.command) with
      | mk dispatched outcome => cases outcome <;> rfl

theorem isLine_init : IsLine "INIT\n".toList := ⟨"INIT".toList, by decide, rfl⟩

theorem main_scriptText (init : h.init = some s) (script : List Scripted) (further : Chars) :
    main h (stdin ("INIT\n".toList ++ scriptText script ++ further)) =
      resume h script further (serve h s (script.map Scripted.command)) := by
  rw [List.append_assoc, stdin_line isLine_init, main, if_neg (not_not.mpr rfl), init]
  exact loop_scriptText script further

theorem after_of_stays {command : Command} (stays : command ≠ .quit) :
    after h s command = match h.handle s command with
      | some s' => .ok s'
      | none => .error 1 := by
  cases command with
  | quit => cases stays rfl
  | _ => rfl

theorem serve_upToEnd (commands : List Command) : UpToEnd h s commands (serve h s commands).1 := by
  induction commands generalizing s with
  | nil => exact .whole s
  | cons command commands ih =>
    by_cases quits : command = .quit
    · subst quits
      exact .quits s commands
    · rw [serve, after_of_stays quits]
      cases handled : h.handle s command with
      | none => exact .raises handled commands
      | some s' => exact .returns quits handled ih

theorem dispatched_resume (script : List Scripted) (outcome : List Command × Except Nat σ) :
    (resume h script [] outcome).dispatched = outcome.1 := by
  obtain ⟨dispatched, code | s'⟩ := outcome
  · rfl
  · have ended : loop h s' (stdin []) = ⟨[], [], 0⟩ := by rw [stdin, LineBlocks.lines, loop]
    simp [resume, ended]

theorem flatten_ended (line : Line) (body : List Line) : ((line :: body).map Line.ended).flatten =
    ['\n'].intercalate ((line :: body).map Line.text) ++ ['\n'] := by
  induction body generalizing line with
  | nil => simp [Line.ended]
  | cons next body ih =>
    rw [List.map_cons, List.flatten_cons, ih]
    simp [Line.ended]

theorem spokenText_ended (body : List Line) : spokenText (body.map Line.ended) =
    rstrip "\n".toList (['\n'].intercalate (body.map Line.text)) := by
  cases body with
  | nil => rfl
  | cons line body =>
    rw [spokenText, flatten_ended]
    exact List.rdropWhile_concat_pos _ _ _ rfl

theorem main_dispatched (init : h.init = some s) (script : List Scripted) :
    (main h (stdin ("INIT\n".toList ++ scriptText script))).dispatched =
      (serve h s (script.map Scripted.command)).1 := by
  have whole := main_scriptText init script []
  rw [List.append_nil] at whole
  rw [whole, dispatched_resume]

/-- The module obeys every script: the bodies of its blocks never reach the loop of `main`. -/
theorem main_obeys (init : h.init = some s) (script : List Scripted) (further : Chars) :
    Obeys h s script further where
  bodies := readUntilDot_bodyText
  unread body rest := by
    rw [readUntilDot_bodyText]
    exact LineBlocks.flatten_lines rest
  spoken := spokenText_ended
  served := main_scriptText init script further
  dispatched := by
    rw [main_dispatched init script]
    exact serve_upToEnd (script.map Scripted.command)

end

def agreeable : Handlers Unit := ⟨some (), fun _ _ => some ()⟩

def dotLine : Line := ⟨".".toList, by decide⟩

theorem dots_obeyed : Obeys agreeable () [.block .speak [dotLine, dotLine], .quit, .stop] ".\n".toList :=
  main_obeys rfl _ _

def speechless : Handlers Unit where
  init := some ()
  handle _ command :=
    match command with
    | .block .speak _ => none
    | _ => some ()

def DispatchesAll (h : Handlers Unit) (script : List Scripted) : Prop :=
  (main h (stdin ("INIT\n".toList ++ scriptText script))).dispatched = script.map Scripted.command

theorem stop_undispatched :
    ¬DispatchesAll agreeable [.quit, .stop] ∧ ¬DispatchesAll speechless [.block .speak [dotLine], .stop] := by
  constructor
  · intro whole
    rw [DispatchesAll, main_dispatched rfl] at whole
    exact absurd whole (by decide)
  · intro whole
    rw [DispatchesAll, main_dispatched rfl] at whole
    exact absurd whole (by decide)

end Speechd

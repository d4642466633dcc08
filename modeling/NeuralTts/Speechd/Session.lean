import Mathlib.Algebra.Order.Ring.Rat
import Mathlib.Tactic.Linarith
import NeuralTts.Speechd.Ssml
import NeuralTts.Speechd.VoiceNames

/-! A session of `sd-neural-tts`: what the commands of speechd make of its settings, and with which of
them the worker asks the daemon for speech. -/

namespace Speechd

open Daemon Library PyText

/-- What a command meets outside the module: the clock when the cache is looked at, what the daemon answers
to `list-voices`, if that is ok, and the clock after it. -/
structure Occasion where
  now : ℚ
  answer : Option (List Voice)
  later : ℚ

/-- `STATE`, what the main thread has written, and the texts that it has started the worker with. -/
structure Process where
  settings : ModuleState := {}
  voicesCache : List Voice := []
  voicesCacheTime : ℚ := 0
  written : List String := []
  started : List Chars := []
  turn : Nat := 0

def Process.writeLines (lines : List String) (p : Process) : Process := { p with written := p.written ++ lines }

def ModuleState.speed (s : ModuleState) : ℚ := 1 + (max (-100) (min 100 s.rate) : Int) / 200

/-- What `_run` sends for a text; other commands may come between its looks at the settings. -/
structure Asked where
  voice : String
  speed : ℚ
  lang : String
  text : Chars

def runRequest (text : Chars) (atVoice atSpeed atLang : ModuleState) : Asked where
  voice := atVoice.voiceName
  speed := atSpeed.speed
  lang := if atLang.language = "" then "en-us" else atLang.language
  text := text

def genderName : Gender → String
  | .male => "MALE"
  | .female => "FEMALE"
  | .neutral => "NEUTRAL"

/-- `slot.startswith(v["gender"])` -/
def inSlot (slot : String) (v : Voice) : Bool := (genderName v.gender).toList.isPrefixOf slot.toList

def refreshVoices (force : Bool) (o : Occasion) (p : Process) : Process :=
  if force = false ∧ p.voicesCache ≠ [] ∧ o.now - p.voicesCacheTime < 60 then p
  else
    match o.answer with
    | some voices => { p with voicesCache := voices, voicesCacheTime := o.later }
    | none => p

/-- The variable and the value of a line of SET. -/
def settingOf (line : Chars) : Option (String × String) :=
  if '=' ∈ line then
    some (String.ofList (strip (line.takeWhile (· ≠ '='))),
      String.ofList (rstrip "\r\n".toList ((line.dropWhile (· ≠ '=')).drop 1)))
  else none

section

variable (t : Text) (reader : Reader)

def findVoiceForSlot (slot langPref : String) (voices : List Voice) : Option String :=
  let candidates := voices.filter (inSlot slot)
  match candidates.find? fun v => t.lower v.language = t.lower langPref with
  | some v => some v.id
  | none => candidates.head?.map Voice.id

def resolveSlot (o : Occasion) (p : Process) : Process :=
  match p.settings.slotRequest with
  | none => p
  | some slot =>
    if p.settings.explicitVoiceName = true ∨ slot = "" then p
    else
      let p := refreshVoices false o p
      match findVoiceForSlot t slot p.settings.language p.voicesCache with
      | none => p
      | some voice => if voice = "" then p else { p with settings := { p.settings with voiceName := voice } }

def applyLine (s : ModuleState) (line : Chars) : ModuleState :=
  match settingOf line with
  | some (var, val) => applySetting t var val s
  | none => s

def cmdSet (o : Occasion) (body : List Chars) (p : Process) : Process :=
  let p := p.writeLines ["203 OK RECEIVING SETTINGS"]
  let p := resolveSlot t o { p with settings := body.foldl (applyLine t) p.settings }
  p.writeLines ["203 OK SETTINGS RECEIVED"]

def cmdSpeak (body : List Chars) (p : Process) : Process :=
  let p := p.writeLines ["202 OK RECEIVING MESSAGE"]
  match extractSsmlText reader (spokenText body) with
  | none => p
  | some text =>
    if strip text = [] then p.writeLines ["200 OK SPEAKING", "701 BEGIN", "702 END"]
    else { p.writeLines ["200 OK SPEAKING"] with started := p.started ++ [strip text] }

/-- Only `cmd_speak` can raise. -/
def raises : Command → Bool
  | .block .speak body => (extractSsmlText reader (spokenText body)).isNone
  | _ => false

def rowLine (row : Row) : String := "200-" ++ row.name ++ "\t" ++ row.lang ++ "\t" ++ row.variant

def listed (o : Occasion) (line : Chars) (p : Process) : ModuleState × List Row :=
  cmdListVoices t (refreshVoices true o p).voicesCache (String.ofList line) p.settings

def cmdList (o : Occasion) (line : Chars) (p : Process) : Process :=
  let rows := (listed t o line p).2
  { refreshVoices true o p with settings := (listed t o line p).1 }.writeLines
    (if rows = [] then ["304 CANT LIST VOICES"] else rows.map rowLine ++ ["200 OK VOICE LIST SENT"])

def cmdDebug (line : Chars) (p : Process) : Process :=
  match (split (strip line))[1]? with
  | some ['O', 'N'] => p.writeLines ["200 OK DEBUGGING ON"]
  | some ['O', 'F', 'F'] => p.writeLines ["200 OK DEBUGGING OFF"]
  | _ => p.writeLines ["303 ERR BAD SYNTAX"]

def handle (o : Occasion) (p : Process) : Command → Process
  | .block .set body => cmdSet t o body p
  | .block .speak body => cmdSpeak reader body p
  | .block .audio _ => p.writeLines ["207 OK RECEIVING AUDIO SETTINGS", "203 OK AUDIO INITIALIZED"]
  | .block .loglevel _ => p.writeLines ["207 OK RECEIVING LOGLEVEL SETTINGS", "203 OK LOGLEVEL SET"]
  | .stop | .pause => p
  | .quit => p.writeLines ["210 OK QUIT"]
  | .listVoices line => cmdList t o line p
  | .debug line => cmdDebug line p
  | .unknown _ => p.writeLines ["300 ERR UNKNOWN COMMAND"]

def turn (world : Nat → Occasion) (p : Process) (command : Command) : Process :=
  { handle t reader (world p.turn) p command with turn := p.turn + 1 }

def cmdInit : Process :=
  ({} : Process).writeLines ["299-neural-tts-daemon reachable", "299 OK LOADED SUCCESSFULLY"]

def handlers (world : Nat → Occasion) : Handlers Process :=
  ⟨some cmdInit, fun p command => if raises reader command then none else some (turn t reader world p command)⟩

def session (world : Nat → Occasion) (p : Process) (commands : List Command) : Process :=
  commands.foldl (turn t reader world) p

end

def Unnamed (line : Chars) : Prop := ∀ val, settingOf line ≠ some ("synthesis_voice", val)

def LeavesVoice : Command → Prop
  | .block .set body => ∀ line ∈ body, Unnamed line
  | _ => True

/-- The same commands, but for the order of the settings in a SET that sets none of them twice. -/
inductive SameSettings : Command → Command → Prop
  | same (command : Command) : SameSettings command command
  | set {body body' : List Chars} (perm : body.Perm body')
      (once : ((body.filterMap settingOf).map Prod.fst).Nodup) :
      SameSettings (.block .set body) (.block .set body')

/-- The voices that a session can come to ask for: that of the start, those that SET names, and those of
the daemon's answers. -/
def Offered (world : Nat → Occasion) (past : List Command) (voice : String) : Prop :=
  voice = "af_heart" ∨
    (∃ body, .block .set body ∈ past ∧ ∃ line ∈ body, settingOf line = some ("synthesis_voice", voice)) ∨
    ∃ k < past.length, ∃ voices, (world k).answer = some voices ∧ voice ∈ voices.map Voice.id

/-- The voice is chosen, and no slot is to change it. -/
structure Pinned (voice : String) (s : ModuleState) : Prop where
  voiceName : s.voiceName = voice
  explicit : s.explicitVoiceName = true

variable {t : Text} {reader : Reader} {world : Nat → Occasion} {o : Occasion} {p q : Process}
  {s : ModuleState}

theorem session_append (first more : List Command) : session t reader world p (first ++ more) =
    session t reader world (session t reader world p first) more := List.foldl_append

theorem serve_handlers (commands : List Command) (stays : .quit ∉ commands)
    (returns : ∀ command ∈ commands, raises reader command = false) :
    serve (handlers t reader world) p commands = (commands, .ok (session t reader world p commands)) := by
  induction commands generalizing p with
  | nil => rfl
  | cons command rest ih =>
    rw [List.mem_cons, not_or] at stays
    have handled : after (handlers t reader world) p command = .ok (turn t reader world p command) := by
      rw [after_of_stays fun same => stays.1 same.symm]
      simp only [handlers, returns command List.mem_cons_self]
      rfl
    rw [serve, handled]
    simp only [ih stays.2 fun later member => returns later (List.mem_cons_of_mem command member)]
    rfl

theorem main_session (script : List Scripted) (stays : .quit ∉ script.map Scripted.command)
    (returns : ∀ command ∈ script.map Scripted.command, raises reader command = false) :
    main (handlers t reader world) (stdin ("INIT\n".toList ++ scriptText script)) =
        ⟨script.map Scripted.command, [], 0⟩ ∧
      serve (handlers t reader world) cmdInit (script.map Scripted.command) = (script.map Scripted.command,
        .ok (session t reader world cmdInit (script.map Scripted.command))) := by
  have served := @serve_handlers t reader world cmdInit (script.map Scripted.command) stays returns
  have started : (handlers t reader world).init = some cmdInit := rfl
  have whole := main_scriptText started script []
  have ended (s : Process) : loop (handlers t reader world) s (stdin []) = ⟨[], [], 0⟩ := by
    rw [stdin, LineBlocks.lines, loop]
  refine ⟨?_, served⟩
  rw [List.append_nil] at whole
  rw [whole, served, resume, ended]
  dsimp only
  rw [List.append_nil]

/-- A setting by the fields of the state that it may change, each by what the field was. -/
theorem applySetting_eq (var val : String) (s : ModuleState) : applySetting t var val s =
    { voiceName := if var = "synthesis_voice" then
        if Reserved t val then s.voiceName else (s.voiceNameToId.lookup val).getD val
        else s.voiceName
      slotRequest := if var = "voice" then if val = "" then none else some (t.upper val) else s.slotRequest
      explicitVoiceName := if var = "synthesis_voice" then !decide (Reserved t val) else s.explicitVoiceName
      rate := if var = "rate" then (t.int val).getD s.rate else s.rate
      pitch := if var = "pitch" then (t.int val).getD s.pitch else s.pitch
      volume := if var = "volume" then (t.int val).getD s.volume else s.volume
      language := if var = "language" then if stripScript t val = "" then "en-us" else stripScript t val
        else s.language
      ssmlMode := if var = "ssml_mode" then decide (t.lower val ∈ ["on", "true", "1", "yes"]) else s.ssmlMode
      voiceNameToId := s.voiceNameToId } := by
  unfold applySetting
  split_ifs <;> simp_all

theorem applySetting_comm {var var' : String} (apart : var ≠ var') (val val' : String) (s : ModuleState) :
    applySetting t var' val' (applySetting t var val s) = applySetting t var val (applySetting t var' val' s) := by
  have field {α : Type} (name : String) (first second : α → α) (a : α) :
      (if var' = name then second (if var = name then first a else a) else if var = name then first a else a) =
        if var = name then first (if var' = name then second a else a) else if var' = name then second a else a := by
    by_cases one : var = name
    · have other : var' ≠ name := fun same => apart (one.trans same.symm)
      simp only [if_pos one, if_neg other]
    · simp only [if_neg one]
  rw [applySetting_eq, applySetting_eq, applySetting_eq, applySetting_eq, ModuleState.mk.injEq]
  dsimp only
  refine ⟨?_, ?_, ?_, ?_, ?_, ?_, ?_, ?_, rfl⟩
  · exact field "synthesis_voice" (fun was => if Reserved t val then was else (s.voiceNameToId.lookup val).getD val)
      (fun was => if Reserved t val' then was else (s.voiceNameToId.lookup val').getD val') s.voiceName
  · exact field "voice" (fun _ => if val = "" then none else some (t.upper val))
      (fun _ => if val' = "" then none else some (t.upper val')) s.slotRequest
  · exact field "synthesis_voice" (fun _ => !decide (Reserved t val)) (fun _ => !decide (Reserved t val')) s.explicitVoiceName
  · exact field "rate" (t.int val).getD (t.int val').getD s.rate
  · exact field "pitch" (t.int val).getD (t.int val').getD s.pitch
  · exact field "volume" (t.int val).getD (t.int val').getD s.volume
  · exact field "language" (fun _ => if stripScript t val = "" then "en-us" else stripScript t val)
      (fun _ => if stripScript t val' = "" then "en-us" else stripScript t val') s.language
  · exact field "ssml_mode" (fun _ => decide (t.lower val ∈ ["on", "true", "1", "yes"]))
      (fun _ => decide (t.lower val' ∈ ["on", "true", "1", "yes"])) s.ssmlMode

theorem foldl_applyLine_perm {body body' : List Chars} (perm : body.Perm body')
    (once : ((body.filterMap settingOf).map Prod.fst).Nodup) (s : ModuleState) :
    body.foldl (applyLine t) s = body'.foldl (applyLine t) s := by
  apply perm.foldl_eq'
  intro line inside line' inside' s
  unfold applyLine
  cases first : settingOf line with
  | none => rfl
  | some setting =>
    cases second : settingOf line' with
    | none => rfl
    | some setting' =>
      obtain ⟨var, val⟩ := setting
      obtain ⟨var', val'⟩ := setting'
      by_cases apart : var = var'
      · have there := List.mem_filterMap.mpr ⟨line, inside, first⟩
        have there' := List.mem_filterMap.mpr ⟨line', inside', second⟩
        cases List.inj_on_of_nodup_map once there there' apart
        rfl
      · exact applySetting_comm apart val val' s

theorem turn_sameSettings {command command' : Command} (same : SameSettings command command') :
    turn t reader world p command = turn t reader world p command' := by
  cases same with
  | same => rfl
  | set perm once =>
    simp only [turn, handle, cmdSet, Process.writeLines]
    rw [foldl_applyLine_perm perm once]

/-- A session does the same, and writes the same, whatever the order of the settings in each SET. -/
theorem session_sameSettings (t : Text) (reader : Reader) (world : Nat → Occasion) (p : Process)
    {commands commands' : List Command} (same : List.Forall₂ SameSettings commands commands') :
    session t reader world p commands = session t reader world p commands' := by
  induction same generalizing p with
  | nil => rfl
  | cons first _ ih =>
    unfold session at *
    rw [List.foldl_cons, List.foldl_cons, turn_sameSettings first]
    exact ih _

/-- A daemon that always answers with the same voices, at one second a command. -/
def steady : Nat → Occasion := fun n => ⟨n, some amyAndNone, n⟩

def noParser : Reader := ⟨fun _ => none, 900⟩

theorem slot_before_language : session ascii noParser steady cmdInit
      [.block .set ["voice=FEMALE1\n".toList, "language=en-gb\n".toList], .block .speak ["Hi.\n".toList]] =
    session ascii noParser steady cmdInit
      [.block .set ["language=en-gb\n".toList, "voice=FEMALE1\n".toList], .block .speak ["Hi.\n".toList]] :=
  session_sameSettings ascii noParser steady cmdInit
    (.cons (.set (.swap _ _ []) (by decide)) (.cons (.same _) .nil))

section

variable {voice : String} {body : List Chars}

theorem applyLine_voiceNameToId (s : ModuleState) (line : Chars) : (applyLine t s line).voiceNameToId = s.voiceNameToId := by
  unfold applyLine
  split
  · rw [applySetting_eq]
  · rfl

theorem foldl_applyLine_voiceNameToId (body : List Chars) (s : ModuleState) :
    (body.foldl (applyLine t) s).voiceNameToId = s.voiceNameToId := by
  induction body generalizing s with
  | nil => rfl
  | cons line rest ih => rw [List.foldl_cons, ih, applyLine_voiceNameToId]

theorem Pinned.applyLine (pinned : Pinned voice s) {line : Chars} (unnamed : Unnamed line) :
    Pinned voice (applyLine t s line) := by
  unfold Speechd.applyLine
  split
  · rename_i var val named
    have other : var ≠ "synthesis_voice" := by
      rintro rfl
      exact unnamed val named
    rw [applySetting_eq]
    exact ⟨(if_neg other).trans pinned.voiceName, (if_neg other).trans pinned.explicit⟩
  · exact pinned

theorem Pinned.foldl_applyLine (pinned : Pinned voice s) (unnamed : ∀ line ∈ body, Unnamed line) :
    Pinned voice (body.foldl (Speechd.applyLine t) s) := by
  induction body generalizing s with
  | nil => exact pinned
  | cons line rest ih =>
    have next : Pinned voice (Speechd.applyLine t s line) := pinned.applyLine (unnamed line List.mem_cons_self)
    exact ih next fun later member => unnamed later (List.mem_cons_of_mem line member)

theorem resolveSlot_of_explicit (explicit : p.settings.explicitVoiceName = true) : resolveSlot t o p = p := by
  unfold resolveSlot
  split
  · rfl
  · rw [if_pos (.inl explicit)]

theorem refreshVoices_settings (force : Bool) : (refreshVoices force o p).settings = p.settings := by
  unfold refreshVoices
  split
  · rfl
  · split <;> rfl

theorem resolveSlot_voiceNameToId : (resolveSlot t o p).settings.voiceNameToId = p.settings.voiceNameToId := by
  unfold resolveSlot
  split
  · rfl
  · split
    · rfl
    · dsimp only
      split
      · rw [refreshVoices_settings]
      · split <;> rw [refreshVoices_settings]

theorem listed_pinned (line : Chars) : Pinned voice (listed t o line p).1 ↔ Pinned voice p.settings := by
  unfold listed cmdListVoices
  split
  · rfl
  · constructor <;> exact fun pinned => ⟨pinned.voiceName, pinned.explicit⟩

theorem cmdDebug_settings (line : Chars) : (cmdDebug line p).settings = p.settings := by
  unfold cmdDebug
  split <;> rfl

theorem cmdSpeak_settings : (cmdSpeak reader body p).settings = p.settings := by
  unfold cmdSpeak
  dsimp only
  split
  · rfl
  · split <;> rfl

theorem turn_settings (command : Command) (noSet : ∀ body, command ≠ .block .set body)
    (noList : ∀ line, command ≠ .listVoices line) : (turn t reader world p command).settings = p.settings := by
  cases command with
  | block kind body =>
    cases kind with
    | speak => exact cmdSpeak_settings
    | set => exact absurd rfl (noSet body)
    | _ => rfl
  | listVoices line => exact absurd rfl (noList line)
  | debug line => exact cmdDebug_settings line
  | _ => rfl

theorem turn_set_settings (pinned : Pinned voice (body.foldl (applyLine t) p.settings)) :
    (turn t reader world p (.block .set body)).settings = body.foldl (applyLine t) p.settings := by
  simp only [turn, handle, cmdSet, Process.writeLines]
  rw [resolveSlot_of_explicit pinned.explicit]

theorem Pinned.turn (pinned : Pinned voice p.settings) {command : Command} (leaves : LeavesVoice command) :
    Pinned voice (turn t reader world p command).settings := by
  by_cases set : ∃ body, command = .block .set body
  · obtain ⟨body, rfl⟩ := set
    have applied : Pinned voice (body.foldl (Speechd.applyLine t) p.settings) := pinned.foldl_applyLine leaves
    rw [turn_set_settings applied]
    exact applied
  · by_cases list : ∃ line, command = .listVoices line
    · obtain ⟨line, rfl⟩ := list
      exact (listed_pinned line).mpr pinned
    · rw [turn_settings command (fun body same => set ⟨body, same⟩) fun line same => list ⟨line, same⟩]
      exact pinned

theorem Pinned.session {commands : List Command} (pinned : Pinned voice p.settings)
    (leave : ∀ command ∈ commands, LeavesVoice command) :
    Pinned voice (session t reader world p commands).settings := by
  induction commands generalizing p with
  | nil => exact pinned
  | cons command rest ih =>
    have next : Pinned voice (Speechd.turn t reader world p command).settings :=
      pinned.turn (leave command List.mem_cons_self)
    exact ih next fun later member => leave later (List.mem_cons_of_mem command member)

theorem session_voiceNameToId {commands : List Command} (quiet : ∀ command ∈ commands, ∀ line, command ≠ .listVoices line) :
    (session t reader world p commands).settings.voiceNameToId = p.settings.voiceNameToId := by
  induction commands generalizing p with
  | nil => rfl
  | cons command rest ih =>
    have here := quiet command List.mem_cons_self
    have step : (turn t reader world p command).settings.voiceNameToId = p.settings.voiceNameToId := by
      by_cases set : ∃ body, command = .block .set body
      · obtain ⟨body, rfl⟩ := set
        simp only [turn, handle, cmdSet, Process.writeLines]
        rw [resolveSlot_voiceNameToId, foldl_applyLine_voiceNameToId]
      · rw [turn_settings command (fun body same => set ⟨body, same⟩) here]
    have later := @ih (turn t reader world p command) fun next member =>
      quiet next (List.mem_cons_of_mem command member)
    exact later.trans step

theorem pinned_set {choice : Chars} {before rest : List Chars} {name : String}
    (chosen : settingOf choice = some ("synthesis_voice", name)) (free : ¬Reserved t name)
    (last : ∀ line ∈ rest, Unnamed line) (s : ModuleState) :
    Pinned ((s.voiceNameToId.lookup name).getD name) ((before ++ choice :: rest).foldl (applyLine t) s) := by
  rw [List.foldl_append, List.foldl_cons]
  refine Pinned.foldl_applyLine ⟨?_, ?_⟩ last
  · rw [applyLine, chosen]
    dsimp only
    rw [applySetting_synthesisVoice, if_neg free, foldl_applyLine_voiceNameToId]
  · rw [applyLine, chosen]
    dsimp only
    rw [applySetting_synthesisVoice, if_neg free]

theorem listed_voiceNameToId {line : Chars} {row : Row} (written : row ∈ (listed t o line p).2)
    (unambiguous : ∀ other ∈ (listed t o line p).2, other.name = row.name → other.voiceId = row.voiceId) :
    (listed t o line p).1.voiceNameToId.lookup row.name = some row.voiceId := by
  unfold listed cmdListVoices at *
  split at written
  · cases written
  · rename_i some_voice
    rw [if_neg some_voice] at unambiguous ⊢
    exact lookup_of_unambiguous written unambiguous

end

/-- A voice that is picked from a listing is what every later utterance is asked in, whatever else speechd
sends, until SET names another. -/
theorem session_picks (t : Text) (reader : Reader) (world : Nat → Occasion) (p : Process) (line : Chars)
    (row : Row) (written : row ∈ (listed t (world p.turn) line p).2)
    (unambiguous : ∀ other ∈ (listed t (world p.turn) line p).2, other.name = row.name → other.voiceId = row.voiceId)
    (free : ¬Reserved t row.name) (between : List Command)
    (quiet : ∀ command ∈ between, ∀ line, command ≠ .listVoices line) (before rest : List Chars) (choice : Chars)
    (chosen : settingOf choice = some ("synthesis_voice", row.name)) (last : ∀ line ∈ rest, Unnamed line)
    (later : List Command) (leave : ∀ command ∈ later, LeavesVoice command) :
    Pinned row.voiceId (session t reader world p
      (.listVoices line :: between ++ .block .set (before ++ choice :: rest) :: later)).settings := by
  have known : (session t reader world p (.listVoices line :: between)).settings.voiceNameToId.lookup row.name =
      some row.voiceId := by
    have after := @session_voiceNameToId t reader world (turn t reader world p (.listVoices line)) between quiet
    exact (congrArg (AList.lookup row.name) after).trans (listed_voiceNameToId written unambiguous)
  have set := @pinned_set t choice before rest row.name chosen free last
    (session t reader world p (.listVoices line :: between)).settings
  rw [known, Option.getD_some] at set
  rw [session_append]
  have picked := @turn_set_settings t reader world _ _ _ set
  rw [← picked] at set
  exact set.session leave

theorem amy_stays_picked : Pinned "amy.piper" (session ascii noParser steady cmdInit
    [.listVoices "LIST VOICES\n".toList, .block .set ["synthesis_voice=Amy\n".toList],
      .block .set ["voice=MALE1\n".toList], .listVoices "LIST VOICES fr\n".toList]).settings := by
  have other : settingOf "voice=MALE1\n".toList = some ("voice", "MALE1") := by decide
  refine session_picks ascii noParser steady cmdInit "LIST VOICES\n".toList ⟨"Amy", "en-GB", "none", "amy.piper"⟩
    (by decide) (by decide) (by decide) [] nofun [] [] "synthesis_voice=Amy\n".toList (by decide) nofun _ ?_
  intro command member
  rcases List.mem_cons.mp member with rfl | listing
  · intro line only val
    rw [List.mem_singleton.mp only, other]
    simp
  · rw [List.mem_singleton.mp listing]
    trivial

/-- A slot is given to a voice of its gender, and of the language if there is one. -/
structure Fits (t : Text) (slot language : String) (voices : List Voice) (voice : String) : Prop where
  gender : ∃ v ∈ voices, inSlot slot v = true ∧ v.id = voice
  language : (∃ v ∈ voices, inSlot slot v = true ∧ t.lower v.language = t.lower language) →
    ∃ v ∈ voices, inSlot slot v = true ∧ v.id = voice ∧ t.lower v.language = t.lower language

theorem fits_findVoiceForSlot {slot language voice : String} {voices : List Voice}
    (found : findVoiceForSlot t slot language voices = some voice) : Fits t slot language voices voice := by
  unfold findVoiceForSlot at found
  dsimp only at found
  split at found
  · rename_i v search
    cases found
    have candidate := List.mem_filter.mp (List.mem_of_find?_eq_some search)
    have speaks : t.lower v.language = t.lower language := by simpa using List.find?_some search
    exact ⟨⟨v, candidate.1, candidate.2, rfl⟩, fun _ => ⟨v, candidate.1, candidate.2, rfl, speaks⟩⟩
  · rename_i missed
    obtain ⟨v, first, rfl⟩ := Option.map_eq_some_iff.mp found
    have candidate := List.mem_filter.mp (List.mem_of_head? first)
    refine ⟨⟨v, candidate.1, candidate.2, rfl⟩, ?_⟩
    rintro ⟨u, member, gender, speaks⟩
    have other := List.find?_eq_none.mp missed u (List.mem_filter.mpr ⟨member, gender⟩)
    exact absurd speaks (by simpa using other)

theorem findVoiceForSlot_of_mem {slot language : String} {voices : List Voice}
    (some_voice : ∃ v ∈ voices, inSlot slot v = true) :
    ∃ voice, findVoiceForSlot t slot language voices = some voice := by
  obtain ⟨v, member, gender⟩ := some_voice
  unfold findVoiceForSlot
  dsimp only
  split
  · exact ⟨_, rfl⟩
  · have candidate := List.mem_filter.mpr ⟨member, gender⟩
    cases same : voices.filter (inSlot slot) with
    | nil =>
      rw [same] at candidate
      cases candidate
    | cons first rest => exact ⟨first.id, rfl⟩

structure Sound (offered : String → Prop) (s : ModuleState) : Prop where
  voice : offered s.voiceName
  names : ∀ name voice, s.voiceNameToId.lookup name = some voice → offered voice
  language : s.language ≠ ""

section

variable {offered : String → Prop}

theorem Sound.applyLine (sound : Sound offered s) {line : Chars}
    (named : ∀ val, settingOf line = some ("synthesis_voice", val) → offered val) : Sound offered (applyLine t s line) := by
  unfold Speechd.applyLine
  split
  · rename_i var val setting
    rw [applySetting_eq]
    refine ⟨?_, sound.names, ?_⟩
    · dsimp only
      split
      · rename_i same
        split
        · exact sound.voice
        · cases found : s.voiceNameToId.lookup val with
          | none => exact named val (same ▸ setting)
          | some voice => exact sound.names val voice found
      · exact sound.voice
    · dsimp only
      split
      · split
        · decide
        · assumption
      · exact sound.language
  · exact sound

theorem Sound.foldl_applyLine (sound : Sound offered s) {body : List Chars}
    (named : ∀ line ∈ body, ∀ val, settingOf line = some ("synthesis_voice", val) → offered val) :
    Sound offered (body.foldl (Speechd.applyLine t) s) := by
  induction body generalizing s with
  | nil => exact sound
  | cons line rest ih =>
    have next : Sound offered (Speechd.applyLine t s line) := sound.applyLine (named line List.mem_cons_self)
    exact ih next fun later member => named later (List.mem_cons_of_mem line member)

theorem refreshVoices_cases (force : Bool) : refreshVoices force o p = p ∨
    ∃ voices, o.answer = some voices ∧
      refreshVoices force o p = { p with voicesCache := voices, voicesCacheTime := o.later } := by
  unfold refreshVoices
  split
  · exact .inl rfl
  · split
    · rename_i voices answered
      exact .inr ⟨voices, answered, rfl⟩
    · exact .inl rfl

theorem resolveSlot_cases : resolveSlot t o p = p ∨ resolveSlot t o p = refreshVoices false o p ∨
    ∃ slot voice, p.settings.slotRequest = some slot ∧
      Fits t slot p.settings.language (refreshVoices false o p).voicesCache voice ∧
      resolveSlot t o p = { refreshVoices false o p with settings := { p.settings with voiceName := voice } } := by
  unfold resolveSlot
  split
  · exact .inl rfl
  · rename_i slot requested
    split
    · exact .inl rfl
    · dsimp only
      split
      · exact .inr (.inl rfl)
      · rename_i voice found
        split
        · exact .inr (.inl rfl)
        · rw [refreshVoices_settings] at found ⊢
          exact .inr (.inr ⟨slot, voice, requested, fits_findVoiceForSlot found, rfl⟩)

theorem emit_rows {request : Request} {st : Listing} {name voiceId lang variant : String}
    (before : ∀ row ∈ st.rows, offered row.voiceId) (here : offered voiceId) :
    ∀ row ∈ (emit t request st name voiceId lang variant).rows, offered row.voiceId := by
  unfold emit
  split
  · exact before
  · dsimp only
    split
    · intro row member
      rcases List.mem_append.mp member with old | new
      · exact before row old
      · rw [List.mem_singleton.mp new]
        exact here
    · exact before

theorem listVoices_rows (request : Request) {voices : List Voice} (all : ∀ v ∈ voices, offered v.id) :
    ∀ row ∈ (listVoices t request voices).rows, offered row.voiceId := by
  have one (v : Voice) (here : offered v.id) (lang : String) {st : Listing}
      (before : ∀ row ∈ st.rows, offered row.voiceId) : ∀ row ∈ (listLang t request v st lang).rows, offered row.voiceId := by
    unfold listLang
    dsimp only
    split
    · exact emit_rows (emit_rows before here) here
    · exact emit_rows before here
  have step (v : Voice) (here : offered v.id) {st : Listing} (before : ∀ row ∈ st.rows, offered row.voiceId) :
      ∀ row ∈ (listVoice t request st v).rows, offered row.voiceId := by
    unfold listVoice
    exact List.foldlRecOn (motive := fun st : Listing => ∀ row ∈ st.rows, offered row.voiceId) _ _ before
      fun _ kept lang _ => one v here lang kept
  unfold listVoices
  exact List.foldlRecOn (motive := fun st : Listing => ∀ row ∈ st.rows, offered row.voiceId) _ _ (fun _ none => nomatch none)
    fun _ kept v member => step v (all v member) kept

theorem Sound.listed (sound : Sound offered p.settings) {line : Chars}
    (all : ∀ v ∈ (refreshVoices true o p).voicesCache, offered v.id) : Sound offered (listed t o line p).1 := by
  unfold Speechd.listed cmdListVoices
  split
  · exact sound
  · refine ⟨sound.voice, ?_, sound.language⟩
    intro name voice found
    dsimp only at found
    rw [lookup_nameToId] at found
    obtain ⟨row, search, rfl⟩ := Option.map_eq_some_iff.mp found
    exact listVoices_rows _ all row (List.mem_reverse.mp (List.mem_of_find?_eq_some search))

end

/-- The cache holds the answer of one of so many commands. -/
def Cached (world : Nat → Occasion) (count : Nat) (p : Process) : Prop :=
  p.voicesCache = [] ∨ ∃ k < count, (world k).answer = some p.voicesCache ∧ p.voicesCacheTime = (world k).later

structure Grounded (world : Nat → Occasion) (past : List Command) (p : Process) : Prop where
  count : p.turn = past.length
  sound : Sound (Offered world past) p.settings
  cache : Cached world past.length p
  started : ∀ text ∈ p.started, text ≠ [] ∧ strip text = text

theorem Cached.refresh {n : Nat} (force : Bool) (cached : Cached world n p) :
    Cached world (n + 1) (refreshVoices force (world n) p) := by
  rcases @refreshVoices_cases (world n) p force with same | ⟨voices, answered, same⟩
  · rw [same]
    rcases cached with none | ⟨k, before, held⟩
    · exact .inl none
    · exact .inr ⟨k, by omega, held⟩
  · rw [same]
    exact .inr ⟨n, Nat.lt_succ_self n, answered, rfl⟩

theorem Cached.offered {past : List Command} (cached : Cached world past.length p) :
    ∀ v ∈ p.voicesCache, Offered world past v.id := by
  intro v member
  rcases cached with none | ⟨k, before, answered, -⟩
  · rw [none] at member
    cases member
  · exact .inr (.inr ⟨k, before, p.voicesCache, answered, List.mem_map_of_mem member⟩)

theorem Offered.concat {past : List Command} {voice : String} (offered : Offered world past voice) (command : Command) :
    Offered world (past ++ [command]) voice := by
  rcases offered with start | ⟨body, set, named⟩ | ⟨k, before, voices, answered, member⟩
  · exact .inl start
  · exact .inr (.inl ⟨body, List.mem_append_left _ set, named⟩)
  · refine .inr (.inr ⟨k, ?_, voices, answered, member⟩)
    rw [List.length_append]
    omega

theorem Sound.imp {offered offered' : String → Prop} (sound : Sound offered s)
    (more : ∀ voice, offered voice → offered' voice) : Sound offered' s :=
  ⟨more _ sound.voice, fun name voice found => more voice (sound.names name voice found), sound.language⟩

theorem cmdDebug_cache (line : Chars) : (cmdDebug line p).voicesCache = p.voicesCache ∧
    (cmdDebug line p).voicesCacheTime = p.voicesCacheTime ∧ (cmdDebug line p).started = p.started := by
  unfold cmdDebug
  split <;> exact ⟨rfl, rfl, rfl⟩

theorem cmdSpeak_cache {body : List Chars} : (cmdSpeak reader body p).voicesCache = p.voicesCache ∧
    (cmdSpeak reader body p).voicesCacheTime = p.voicesCacheTime := by
  unfold cmdSpeak
  dsimp only
  split
  · exact ⟨rfl, rfl⟩
  · split <;> exact ⟨rfl, rfl⟩

theorem Cached.of_eq {count : Nat} (cached : Cached world count p) (same : q.voicesCache = p.voicesCache)
    (time : q.voicesCacheTime = p.voicesCacheTime) : Cached world (count + 1) q := by
  unfold Cached
  rw [same, time]
  rcases cached with none | ⟨k, before, held⟩
  · exact .inl none
  · exact .inr ⟨k, by omega, held⟩

theorem Cached.resolveSlot {n : Nat} (cached : Cached world n p) : Cached world (n + 1) (resolveSlot t (world n) p) := by
  rcases @resolveSlot_cases t (world n) p with same | same | ⟨slot, voice, -, -, same⟩
  · rw [same]
    exact cached.of_eq rfl rfl
  · rw [same]
    exact cached.refresh false
  · rw [same]
    exact cached.refresh false

theorem Cached.turn (cached : Cached world p.turn p) (command : Command) :
    Cached world (p.turn + 1) (turn t reader world p command) := by
  cases command with
  | block kind body =>
    cases kind with
    | set =>
      have applied : Cached world p.turn { p.writeLines ["203 OK RECEIVING SETTINGS"] with
        settings := body.foldl (applyLine t) p.settings } := cached
      exact applied.resolveSlot
    | speak => exact cached.of_eq cmdSpeak_cache.1 cmdSpeak_cache.2
    | _ => exact cached.of_eq rfl rfl
  | listVoices line => exact cached.refresh true
  | debug line => exact cached.of_eq (cmdDebug_cache line).1 (cmdDebug_cache line).2.1
  | _ => exact cached.of_eq rfl rfl

theorem refreshVoices_started (force : Bool) : (refreshVoices force o p).started = p.started := by
  rcases @refreshVoices_cases o p force with same | ⟨voices, -, same⟩ <;> rw [same]

theorem turn_started (command : Command) (kept : ∀ text ∈ p.started, text ≠ [] ∧ strip text = text) :
    ∀ text ∈ (turn t reader world p command).started, text ≠ [] ∧ strip text = text := by
  cases command with
  | block kind body =>
    cases kind with
    | set =>
      have same : (turn t reader world p (.block .set body)).started = p.started := by
        simp only [turn, handle, cmdSet, Process.writeLines]
        rcases @resolveSlot_cases t (world p.turn) { p with
          settings := body.foldl (applyLine t) p.settings, written := p.written ++ ["203 OK RECEIVING SETTINGS"] }
          with same | same | ⟨slot, voice, -, -, same⟩
        · rw [same]
        · rw [same, refreshVoices_started]
        · rw [same]
          exact refreshVoices_started false
      rw [same]
      exact kept
    | speak =>
      intro text member
      simp only [turn, handle, cmdSpeak, Process.writeLines] at member
      split at member
      · exact kept text member
      · split at member
        · exact kept text member
        · rename_i filled
          rcases List.mem_append.mp member with old | new
          · exact kept text old
          · rw [List.mem_singleton.mp new]
            exact ⟨filled, strip_strip _⟩
    | _ => exact kept
  | listVoices line =>
    have same : (turn t reader world p (.listVoices line)).started = p.started := refreshVoices_started true
    rw [same]
    exact kept
  | debug line =>
    have same : (turn t reader world p (.debug line)).started = p.started := (cmdDebug_cache line).2.2
    rw [same]
    exact kept
  | _ => exact kept

theorem Sound.resolveSlot {offered : String → Prop} (sound : Sound offered p.settings)
    (all : ∀ v ∈ (refreshVoices false o p).voicesCache, offered v.id) : Sound offered (resolveSlot t o p).settings := by
  rcases @resolveSlot_cases t o p with same | same | ⟨slot, voice, -, fits, same⟩
  · rw [same]
    exact sound
  · rw [same, refreshVoices_settings]
    exact sound
  · rw [same]
    obtain ⟨v, member, -, rfl⟩ := fits.gender
    exact ⟨all v member, sound.names, sound.language⟩

theorem Grounded.turn {past : List Command} (grounded : Grounded world past p) (command : Command) :
    Grounded world (past ++ [command]) (turn t reader world p command) := by
  have here : (past ++ [command]).length = p.turn + 1 := by rw [grounded.count, List.length_append,
    List.length_singleton]
  have cached : Cached world p.turn p := grounded.count ▸ grounded.cache
  have sound : Sound (Offered world (past ++ [command])) p.settings :=
    grounded.sound.imp fun _ offered => offered.concat command
  have fetched (force : Bool) (r : Process) (held : Cached world p.turn r) :
      ∀ v ∈ (refreshVoices force (world p.turn) r).voicesCache, Offered world (past ++ [command]) v.id := by
    have later := held.refresh force
    rw [← here] at later
    exact later.offered
  refine ⟨here.symm, ?_, here ▸ cached.turn command, turn_started command grounded.started⟩
  by_cases set : ∃ body, command = .block .set body
  · obtain ⟨body, rfl⟩ := set
    have applied : Sound (Offered world (past ++ [.block .set body])) (body.foldl (applyLine t) p.settings) := by
      apply sound.foldl_applyLine
      intro line member val named
      exact .inr (.inl ⟨body, by simp, line, member, named⟩)
    exact @Sound.resolveSlot t _ { p.writeLines ["203 OK RECEIVING SETTINGS"] with
      settings := body.foldl (applyLine t) p.settings } _ applied (fetched false _ cached)
  · by_cases list : ∃ line, command = .listVoices line
    · obtain ⟨line, rfl⟩ := list
      exact sound.listed (fetched true p cached)
    · rw [turn_settings command (fun body same => set ⟨body, same⟩) fun line same => list ⟨line, same⟩]
      exact sound

theorem grounded_start : Grounded world [] cmdInit where
  count := rfl
  sound := ⟨.inl rfl, fun _ _ found => (nomatch found), by decide⟩
  cache := .inl rfl
  started _ member := nomatch member

theorem grounded_session (commands : List Command) : Grounded world commands (session t reader world cmdInit commands) := by
  induction commands using List.reverseRecOn with
  | nil => exact grounded_start
  | append_singleton commands command ih =>
    rw [session_append]
    exact ih.turn command

theorem speed_bounds (s : ModuleState) : 1 / 2 ≤ s.speed ∧ s.speed ≤ 3 / 2 := by
  have low : ((-100 : Int) : ℚ) ≤ (max (-100) (min 100 s.rate) : Int) := Int.cast_le.mpr (le_max_left _ _)
  have high : ((max (-100) (min 100 s.rate) : Int) : ℚ) ≤ (100 : Int) :=
    Int.cast_le.mpr (max_le (by decide) (min_le_left _ _))
  unfold ModuleState.speed
  push_cast at low high ⊢
  constructor <;> linarith

/-- The settings as the worker may find them: after these commands, and these lines of a SET that has begun. -/
def seen (t : Text) (reader : Reader) (world : Nat → Occasion) (past : List Command) (begun : List Chars) : ModuleState :=
  begun.foldl (applyLine t) (session t reader world cmdInit past).settings

/-- Whatever speechd sends, and whenever the worker looks at the settings: it asks for a voice that was
offered, at a speed within bounds, in some language, for a text that is not blank. -/
theorem session_asks (t : Text) (reader : Reader) (world : Nat → Occasion) (first second third : List Command)
    (begun begunSecond begunThird : List Chars) :
    ∀ text ∈ (session t reader world cmdInit first).started,
      let asked := runRequest text (seen t reader world first begun) (seen t reader world (first ++ second) begunSecond)
        (seen t reader world (first ++ second ++ third) begunThird)
      (Offered world first asked.voice ∨ ∃ line ∈ begun, settingOf line = some ("synthesis_voice", asked.voice)) ∧
        (1 / 2 ≤ asked.speed ∧ asked.speed ≤ 3 / 2) ∧ asked.lang ≠ "" ∧ asked.text ≠ [] ∧ strip asked.text = asked.text := by
  intro text member
  have sound (past : List Command) (lines : List Chars) :
      Sound (fun voice => Offered world past voice ∨ ∃ line ∈ lines, settingOf line = some ("synthesis_voice", voice))
        (seen t reader world past lines) := by
    have before := (@grounded_session t reader world past).sound
    apply (before.imp fun _ offered => Or.inl offered).foldl_applyLine
    intro line inside voice named
    exact .inr ⟨line, inside, named⟩
  have language := (sound (first ++ second ++ third) begunThird).language
  refine ⟨(sound first begun).voice, speed_bounds _, ?_, (@grounded_session t reader world first).started text member⟩
  rw [runRequest, if_neg language]
  exact language

/-- The worker looks while a SET is being read that picks another voice. -/
theorem greeting_asked : "Hello.".toList ∈ (session ascii noParser steady cmdInit [.block .speak ["Hello.\n".toList]]).started ∧
    (seen ascii noParser steady [.block .speak ["Hello.\n".toList]] ["synthesis_voice=Amy\n".toList]).voiceName = "Amy" ∧
    (Offered steady [.block .speak ["Hello.\n".toList]] "Amy" ∨
      ∃ line ∈ ["synthesis_voice=Amy\n".toList], settingOf line = some ("synthesis_voice", "Amy")) := by
  have member : "Hello.".toList ∈ (session ascii noParser steady cmdInit [.block .speak ["Hello.\n".toList]]).started := by
    decide
  have voice : (seen ascii noParser steady [.block .speak ["Hello.\n".toList]]
      ["synthesis_voice=Amy\n".toList]).voiceName = "Amy" := by decide
  have asked := (session_asks ascii noParser steady _ [] [] ["synthesis_voice=Amy\n".toList] [] [] _ member).1
  rw [runRequest, voice] at asked
  exact ⟨member, voice, asked⟩

/-- The daemon has answered so at the last of so many commands, or before that: then less than a minute ago,
or it does not answer now. -/
def Recent (world : Nat → Occasion) (last : Nat) (voices : List Voice) : Prop :=
  (world last).answer = some voices ∨ ∃ k < last, (world k).answer = some voices ∧
    ((world last).now - (world k).later < 60 ∨ (world last).answer = none)

theorem recent_refreshVoices {n : Nat} (cached : Cached world n p)
    (filled : (refreshVoices false (world n) p).voicesCache ≠ []) :
    Recent world n (refreshVoices false (world n) p).voicesCache := by
  have before : p.voicesCache ≠ [] → ∃ k < n, (world k).answer = some p.voicesCache ∧ p.voicesCacheTime = (world k).later :=
    cached.resolve_left
  unfold refreshVoices at *
  split
  · rename_i young
    obtain ⟨k, earlier, answered, time⟩ := before young.2.1
    exact .inr ⟨k, earlier, answered, .inl (time ▸ young.2.2)⟩
  · rename_i stale
    rw [if_neg stale] at filled
    split
    · rename_i voices answered
      exact .inl answered
    · rename_i unanswered
      rw [unanswered] at filled
      obtain ⟨k, earlier, answered, -⟩ := before filled
      exact .inr ⟨k, earlier, answered, .inr unanswered⟩

theorem fits_resolveSlot {slot : String} (unpinned : p.settings.explicitVoiceName = false)
    (requested : p.settings.slotRequest = some slot) (filled : slot ≠ "")
    (named : ∀ v ∈ (resolveSlot t o p).voicesCache, v.id ≠ "")
    (some_voice : ∃ v ∈ (resolveSlot t o p).voicesCache, inSlot slot v = true) :
    (resolveSlot t o p).voicesCache = (refreshVoices false o p).voicesCache ∧
      (resolveSlot t o p).settings.language = p.settings.language ∧
      Fits t slot p.settings.language (resolveSlot t o p).voicesCache (resolveSlot t o p).settings.voiceName := by
  have goes : ¬(p.settings.explicitVoiceName = true ∨ slot = "") := by simp [unpinned, filled]
  unfold resolveSlot at *
  simp only [requested, if_neg goes, refreshVoices_settings] at *
  split
  · rename_i missed
    simp only [missed] at some_voice
    obtain ⟨voice, found⟩ := @findVoiceForSlot_of_mem t slot p.settings.language _ some_voice
    cases missed.symm.trans found
  · rename_i voice found
    have fits := fits_findVoiceForSlot found
    simp only [found] at named
    split
    · rename_i none
      rw [if_pos none] at named
      obtain ⟨v, member, -, same⟩ := fits.gender
      exact absurd (same.trans none) (named v member)
    · exact ⟨rfl, rfl, fits⟩

theorem resolveSlot_slot : (resolveSlot t o p).settings.explicitVoiceName = p.settings.explicitVoiceName ∧
    (resolveSlot t o p).settings.slotRequest = p.settings.slotRequest := by
  rcases @resolveSlot_cases t o p with same | same | ⟨slot, voice, -, -, same⟩
  · rw [same]
    exact ⟨rfl, rfl⟩
  · rw [same, refreshVoices_settings]
    exact ⟨rfl, rfl⟩
  · rw [same]
    exact ⟨rfl, rfl⟩

/-- After each SET that leaves a slot in charge: the voice is one of that slot in the list that the module
goes by, of the language if there is one, and the list is recent. -/
theorem session_slot (t : Text) (reader : Reader) (world : Nat → Occasion) (commands : List Command)
    (body : List Chars) (slot : String) :
    let q := session t reader world cmdInit (commands ++ [.block .set body])
    q.settings.explicitVoiceName = false → q.settings.slotRequest = some slot → slot ≠ "" →
      (∀ v ∈ q.voicesCache, v.id ≠ "") → (∃ v ∈ q.voicesCache, inSlot slot v = true) →
      Fits t slot q.settings.language q.voicesCache q.settings.voiceName ∧
        Recent world commands.length q.voicesCache := by
  have grounded := @grounded_session t reader world commands
  intro q unpinned requested filled named some_voice
  have last : q = turn t reader world (session t reader world cmdInit commands) (.block .set body) :=
    session_append commands [.block .set body]
  generalize session t reader world cmdInit commands = p at grounded last
  have applied : Cached world commands.length { p.writeLines ["203 OK RECEIVING SETTINGS"] with
    settings := body.foldl (applyLine t) p.settings } := grounded.cache
  have now : world p.turn = world commands.length := by rw [grounded.count]
  generalize before : { p.writeLines ["203 OK RECEIVING SETTINGS"] with
    settings := body.foldl (applyLine t) p.settings } = r at applied
  have settings : q.settings = (resolveSlot t (world commands.length) r).settings := by
    rw [last, ← now, ← before]
    rfl
  have cache : q.voicesCache = (resolveSlot t (world commands.length) r).voicesCache := by
    rw [last, ← now, ← before]
    rfl
  obtain ⟨explicit, slots⟩ := @resolveSlot_slot t (world commands.length) r
  rw [settings, explicit] at unpinned
  rw [settings, slots] at requested
  rw [cache] at named some_voice ⊢
  rw [settings]
  obtain ⟨fetched, language, fits⟩ := fits_resolveSlot unpinned requested filled named some_voice
  rw [language]
  refine ⟨fits, ?_⟩
  rw [fetched] at some_voice ⊢
  obtain ⟨v, member, -⟩ := some_voice
  exact recent_refreshVoices applied (List.ne_nil_of_mem member)

theorem amy_fits_slot : Fits ascii "FEMALE1" "en-gb" amyAndNone "amy.piper" :=
  (session_slot ascii noParser steady [] ["voice=female1\n".toList, "language=en-gb\n".toList] "FEMALE1"
    (by decide) (by decide) (by decide) (by decide) (by decide)).1

end Speechd

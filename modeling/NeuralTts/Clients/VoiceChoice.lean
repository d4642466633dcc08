import NeuralTts.Daemon.Control
import NeuralTts.Speechd.Session

/-! How the clients choose among the voices that the daemon lists on its control socket, and what the
daemon makes of the choice. -/

namespace Clients

open Daemon Library

def listVoicesRequest : Json := .object [("op".toList, .str "list-voices")]

def isOk (reply : Json) : Bool := ((reply.get "ok").map Json.truthy).getD false

/-- `fetch_voices` of `neural-tts-say`; `none` is what it raises, or a reply of another shape. -/
def fetchVoices (reply : Option Json) : Option (List Json) := do
  let reply ← reply
  if isOk reply then
    match reply.get "voices" with
    | some (.array voices) => some voices
    | some _ => none
    | none => some []
  else none

/-- What `_refresh_voices` of `sd-neural-tts` puts into its cache, if anything. -/
def refreshed (reply : Option Json) : Option (List Json) := do
  let reply ← reply
  if isOk reply then
    match reply.get "voices" with
    | some (.array voices) => some voices
    | _ => none
  else none

/-- `resolve_voice`; `none` is a `SystemExit`. -/
def resolveVoice (requested : Option String) (voices : List Json) : Option Json :=
  match requested.filter (· ≠ "") with
  | some id => voices.find? fun v => (v.get "id").bind Json.asText = some id
  | none => voices.head?

/-- A row of the reply as the clients read it: the voice, and the provider shown beside it. -/
def readRow (row : Json) : Option (Voice × Option String) := do
  let v ← Voice.fromJson row
  let provider ← optionalText (row.get "provider")
  return (v, provider)

/-- The daemon sends requests for this voice on to this provider, under the id that the provider itself gave
to the voice in its latest list. -/
def Owned (history : List VoiceIndex.Update) (v : Voice) (provider : String) : Prop :=
  (VoiceIndex.after history).providerFor v.id = some provider ∧
    ∃ raw ∈ (VoiceIndex.latest history provider).getD [],
      (VoiceIndex.after history).localIdFor v.id = raw.id ∧ v = { raw with id := v.id }

section

variable {client daemon : Room} {idx : VoiceIndex} {v : Voice} {ops : ControlOps} {reply : Json}

theorem proper_optional (shown : Option String) : Json.Proper ((shown.map Json.str).getD .null) := by
  cases shown with
  | none => exact .null
  | some shown => exact .string _

theorem proper_row (idx : VoiceIndex) (v : Voice) : Json.Proper (idx.row v) := by
  have keys : ((v.members ++ [("provider".toList, ((idx.providerFor v.id).map Json.str).getD .null)]).map
      Prod.fst).Nodup := by
    have names : ["id".toList, "language".toList, "gender".toList, "display_name".toList, "extra_languages".toList,
        "provider".toList].Nodup := by decide
    exact names
  have extra : Json.Proper (.array (v.extraLanguages.map Json.str)) := by
    constructor
    intro item member
    obtain ⟨text, -, rfl⟩ := List.mem_map.mp member
    exact .string _
  apply Json.Proper.object keys
  simp only [Voice.members, List.cons_append, List.nil_append, List.forall_mem_cons]
  exact ⟨.string _, .string _, .string _, proper_optional _, extra, proper_optional _, List.forall_mem_nil _⟩

theorem length_le_dumpsItems (items : List Json) : items.length ≤ (Json.dumpsItems items).length := by
  induction items with
  | nil => exact Nat.zero_le _
  | cons item items ih =>
    simp only [Json.dumpsItems, List.length_cons, List.length_append]
    omega

theorem length_le_dumps (items : List Json) : items.length ≤ (Json.dumps (.array items)).length := by
  cases items with
  | nil => exact Nat.zero_le _
  | cons item items =>
    have rest := length_le_dumpsItems items
    simp only [Json.dumps, List.length_cons, List.length_append]
    omega

/-- In a reply that fits a frame the count of the voices has few digits. -/
theorem length_allVoices_lt (fits : (jsonBody idx.listVoicesReply).length < 256 ^ 4) :
    idx.allVoices.length < 10 ^ Json.maxStrDigits := by
  have rows := length_le_dumps (idx.allVoices.map idx.row)
  have within : (Json.dumps (.array (idx.allVoices.map idx.row))).length ≤ (Json.dumps idx.listVoicesReply).length := by
    simp only [VoiceIndex.listVoicesReply, Json.dumps, Json.dumpsMembers, List.length_cons, List.length_append]
    omega
  have body := length_le_encodeUtf8 (Json.dumps idx.listVoicesReply)
  have few : (256 : Nat) ^ 4 ≤ 10 ^ 10 := by decide
  have many : 10 ^ 10 ≤ 10 ^ Json.maxStrDigits := Nat.pow_le_pow_right (by decide) (by decide)
  rw [List.length_map] at rows
  rw [jsonBody] at fits
  omega

theorem proper_listVoicesReply (fits : (jsonBody idx.listVoicesReply).length < 256 ^ 4) :
    Json.Proper idx.listVoicesReply := by
  have keys : ["ok".toList, "voices_count".toList, "voices".toList].Nodup := by decide
  have rows : Json.Proper (.array (idx.allVoices.map idx.row)) := by
    constructor
    intro row member
    obtain ⟨v, -, rfl⟩ := List.mem_map.mp member
    exact proper_row idx v
  have count : Json.Proper (.natural idx.allVoices.length) := Json.proper_natural (length_allVoices_lt fits)
  rw [VoiceIndex.listVoicesReply]
  constructor
  · exact keys
  · simp only [List.forall_mem_cons]
    exact ⟨.bool true, count, rows, List.forall_mem_nil _⟩

theorem depth_optional (shown : Option String) : ((shown.map Json.str).getD .null).depth = 0 := by
  cases shown <;> rfl

theorem depth_row (idx : VoiceIndex) (v : Voice) : (idx.row v).depth ≤ 2 := by
  have texts : Json.depthItems (v.extraLanguages.map Json.str) ≤ 0 := by
    apply Json.depthItems_le
    intro item member
    obtain ⟨text, -, rfl⟩ := List.mem_map.mp member
    exact Nat.le_refl 0
  have string (s : String) : (Json.str s).depth = 0 := rfl
  simp only [VoiceIndex.row, Voice.members, List.cons_append, List.nil_append, Json.depth, Json.depthMembers, string,
    depth_optional]
  omega

theorem depth_listVoicesReply (idx : VoiceIndex) : idx.listVoicesReply.depth ≤ 4 := by
  have rows : Json.depthItems (idx.allVoices.map idx.row) ≤ 2 := by
    apply Json.depthItems_le
    intro row member
    obtain ⟨v, -, rfl⟩ := List.mem_map.mp member
    exact depth_row idx v
  have count : (Json.natural idx.allVoices.length).depth = 0 := rfl
  simp only [VoiceIndex.listVoicesReply, Json.depth, Json.depthMembers, count]
  omega

theorem proper_listVoicesRequest : Json.Proper listVoicesRequest := by
  have keys : ["op".toList].Nodup := by decide
  rw [listVoicesRequest]
  constructor
  · exact keys
  · simp only [List.forall_mem_cons]
    exact ⟨.string _, List.forall_mem_nil _⟩

theorem control_listVoices (listed : ops.listVoices = .ok reply) (proper : Json.Proper reply)
    (shallow : reply.depth ≤ 8) (fits : (jsonBody reply).length < 256 ^ 4) :
    controlRequest client (handleControlConnection daemon ops) listVoicesRequest = some reply := by
  have short : (jsonBody listVoicesRequest).length ≤ maxControlFrame := by decide +kernel
  have small : (jsonBody listVoicesRequest).length < 256 ^ 4 := by
    unfold maxControlFrame at short
    omega
  have flat : listVoicesRequest.depth ≤ 8 := by decide
  have replied : ops.reply listVoicesRequest = reply := by
    have named : ops.outcome (listVoicesRequest.get "op") = ops.listVoices := by rfl
    rw [ControlOps.reply, named, listed]
  apply controlRequest_writes proper ⟨flat.trans client.writes_few, small⟩ ⟨shallow.trans daemon.writes_few, fits⟩
    (shallow.trans client.reads_few)
  rw [handleControlConnection, readJson_frame proper_listVoicesRequest small (flat.trans daemon.reads_few), if_pos short]
  exact congrArg (writeJson daemon) replied

theorem readRow_row (idx : VoiceIndex) (v : Voice) : readRow (idx.row v) = some (v, idx.providerFor v.id) := by
  have provider : (idx.row v).get "provider" = some (((idx.providerFor v.id).map Json.str).getD .null) := by
    simp only [VoiceIndex.row, Voice.members, List.cons_append, List.nil_append, Json.get_cons, String.reduceEq, if_true,
      if_false]
  rw [readRow, VoiceIndex.row, fromJson_members, ← VoiceIndex.row, provider, optionalText_str]
  rfl

theorem id_row (idx : VoiceIndex) (v : Voice) : ((idx.row v).get "id").bind Json.asText = some v.id := by
  simp only [VoiceIndex.row, Voice.members, List.cons_append, Json.get_cons, if_true, Option.bind_some, Json.asText_str]

theorem owned_of_mem_allVoices (history : List VoiceIndex.Update)
    (member : v ∈ (VoiceIndex.after history).allVoices) : ∃ provider, Owned history v provider := by
  have current := VoiceIndex.current_after history
  have raw := VoiceIndex.rawList_after history
  rw [VoiceIndex.allVoices, List.mem_flatMap] at member
  obtain ⟨provider, -, member⟩ := member
  unfold Owned
  rw [current.rebuilt] at member ⊢
  generalize (VoiceIndex.after history).byProviderRaw = lists at raw member ⊢
  obtain ⟨w, listed, rfl⟩ := (VoiceIndex.mem_voicesFor_rebuild lists).mp member
  refine ⟨provider, (VoiceIndex.providerFor_rebuild lists _ _).mpr ⟨w, listed, rfl⟩, w, ?_, ?_, ?_⟩
  · rw [← raw]
    exact VoiceIndex.mem_offers.mp (VoiceIndex.mem_offers_of_listed lists listed)
  · exact VoiceIndex.localIdFor_rebuild lists listed rfl
  · exact VoiceIndex.publicOf_eq _ _

theorem mem_allVoices_of_providerFor (history : List VoiceIndex.Update) {id provider : String}
    (found : (VoiceIndex.after history).providerFor id = some provider) :
    ∃ v ∈ (VoiceIndex.after history).allVoices, v.id = id := by
  have current := VoiceIndex.current_after history
  rw [current.rebuilt] at found ⊢
  generalize (VoiceIndex.after history).byProviderRaw = lists at found ⊢
  obtain ⟨v, listed, same⟩ := List.mem_map.mp ((VoiceIndex.mem_voicesFor_iff_providerFor lists id provider).mpr found)
  refine ⟨v, List.mem_flatMap.mpr ⟨provider, ?_, listed⟩, same⟩
  rw [VoiceIndex.mem_sortedKeys]
  by_contra absent
  rw [VoiceIndex.voicesFor, AList.lookup_eq_none.mpr absent] at listed
  cases listed

theorem mapM_readRow (idx : VoiceIndex) (voices : List Voice) :
    (voices.map idx.row).mapM readRow = some (voices.map fun v => (v, idx.providerFor v.id)) := by
  induction voices with
  | nil => rfl
  | cons v rest ih =>
    rw [List.map_cons, List.mapM_cons, readRow_row, ih]
    rfl

/-- `resolve_voice` turns down only what the daemon would turn down, or an empty list. -/
theorem resolveVoice_cases (history : List VoiceIndex.Update) (requested : Option String) :
    match resolveVoice requested ((VoiceIndex.after history).allVoices.map (VoiceIndex.after history).row) with
    | some row => (∃ v ∈ (VoiceIndex.after history).allVoices, row = (VoiceIndex.after history).row v) ∧
        ∀ id, requested = some id → id ≠ "" → (row.get "id").bind Json.asText = some id
    | none => (∃ id, requested = some id ∧ id ≠ "" ∧ (VoiceIndex.after history).providerFor id = none) ∨
        (VoiceIndex.after history).allVoices = [] := by
  unfold resolveVoice
  split
  · rename_i asked row resolved
    split at resolved
    · rename_i id filtered
      obtain ⟨rfl, -⟩ := Option.filter_eq_some_iff.mp filtered
      have found := List.find?_some resolved
      obtain ⟨v, member, same⟩ := List.mem_map.mp (List.mem_of_find?_eq_some resolved)
      refine ⟨⟨v, member, same.symm⟩, ?_⟩
      intro other same _
      cases same
      exact of_decide_eq_true found
    · rename_i filtered
      obtain ⟨v, member, same⟩ := List.mem_map.mp (List.mem_of_mem_head? resolved)
      refine ⟨⟨v, member, same.symm⟩, ?_⟩
      intro id same nonempty
      subst same
      simp [nonempty] at filtered
  · rename_i resolved
    split at resolved
    · rename_i id filtered
      obtain ⟨rfl, nonempty⟩ := Option.filter_eq_some_iff.mp filtered
      refine .inl ⟨id, rfl, of_decide_eq_true nonempty, ?_⟩
      by_contra known
      obtain ⟨provider, found⟩ := Option.ne_none_iff_exists'.mp known
      obtain ⟨v, member, rfl⟩ := mem_allVoices_of_providerFor history found
      have missed := List.find?_eq_none.mp resolved _ (List.mem_map_of_mem member)
      exact missed (decide_eq_true (id_row _ v))
    · right
      rw [List.head?_eq_none_iff, List.map_eq_nil_iff] at resolved
      exact resolved

/-- Whatever was indexed, and whatever voice is asked for: the clients read the index's own list off the
control socket, what they choose from it or show of it the daemon sends on to its owner, under the owner's
own id, and `neural-tts-say` turns down only a voice that the daemon does not know. -/
theorem choices_owned (client daemon : Room) (history : List VoiceIndex.Update) (ops : ControlOps)
    (listed : ops.listVoices = .ok (VoiceIndex.after history).listVoicesReply)
    (fits : (jsonBody (VoiceIndex.after history).listVoicesReply).length < 256 ^ 4) :
    ∃ rows, fetchVoices (controlRequest client (handleControlConnection daemon ops) listVoicesRequest) = some rows ∧
      refreshed (controlRequest client (handleControlConnection daemon ops) listVoicesRequest) = some rows ∧
      rows.mapM readRow = some ((VoiceIndex.after history).allVoices.map fun v =>
        (v, (VoiceIndex.after history).providerFor v.id)) ∧
      (∀ requested,
        match resolveVoice requested rows with
        | some row => (∃ v provider, readRow row = some (v, some provider) ∧ Owned history v provider) ∧
            ∀ id, requested = some id → id ≠ "" → (row.get "id").bind Json.asText = some id
        | none => (∃ id, requested = some id ∧ id ≠ "" ∧ (VoiceIndex.after history).providerFor id = none) ∨
            (VoiceIndex.after history).allVoices = []) ∧
      ∀ (t : Speechd.Text) (line : String) (settings : Speechd.ModuleState),
        ∀ row ∈ (Speechd.cmdListVoices t (VoiceIndex.after history).allVoices line settings).2,
          ∃ v provider, v.id = row.voiceId ∧ Owned history v provider := by
  have reply := @control_listVoices client daemon _ _ listed (proper_listVoicesReply fits)
    ((depth_listVoicesReply _).trans (by decide)) fits
  refine ⟨_, ?_, ?_, mapM_readRow _ (VoiceIndex.after history).allVoices, ?_, ?_⟩
  · rw [reply]
    rfl
  · rw [reply]
    rfl
  · intro requested
    have cases := resolveVoice_cases history requested
    split at cases
    · obtain ⟨⟨v, member, rfl⟩, named⟩ := cases
      obtain ⟨provider, owned⟩ := owned_of_mem_allVoices history member
      refine ⟨⟨v, provider, ?_, owned⟩, named⟩
      rw [readRow_row, owned.1]
    · exact cases
  · intro t line settings row written
    unfold Speechd.cmdListVoices at written
    split at written
    · cases written
    · refine @Speechd.listVoices_rows t (fun id => ∃ v provider, v.id = id ∧ Owned history v provider) _ _ ?_ row written
      intro v member
      obtain ⟨provider, owned⟩ := owned_of_mem_allVoices history member
      exact ⟨v, provider, rfl, owned⟩

def twoHearts : List VoiceIndex.Update :=
  [.set "omnivoice" [⟨"heart", "en", .female, none, []⟩],
    .set "kokoro-onnx" [⟨"heart", "en-US", .female, some "Heart", ["en-AU"]⟩]]

def twoHeartsOps : ControlOps :=
  let listed := Except.ok (VoiceIndex.after twoHearts).listVoicesReply
  ⟨.ok .null, listed, listed, .ok .null, fun _ => .ok ""⟩

theorem twoHearts_chosen : ∃ rows,
    fetchVoices (controlRequest roomy (handleControlConnection roomy twoHeartsOps) listVoicesRequest) = some rows ∧
      rows.mapM readRow = some [(⟨"heart.kokoro-onnx", "en-US", .female, some "Heart", ["en-AU"]⟩, some "kokoro-onnx"),
        (⟨"heart.omnivoice", "en", .female, none, []⟩, some "omnivoice")] := by
  have fits : (jsonBody (VoiceIndex.after twoHearts).listVoicesReply).length < 256 ^ 4 := by decide +kernel
  obtain ⟨rows, fetched, -, read, -⟩ := choices_owned roomy roomy twoHearts twoHeartsOps rfl fits
  have shown : ((VoiceIndex.after twoHearts).allVoices.map fun v => (v, (VoiceIndex.after twoHearts).providerFor v.id)) =
      [(⟨"heart.kokoro-onnx", "en-US", .female, some "Heart", ["en-AU"]⟩, some "kokoro-onnx"),
        (⟨"heart.omnivoice", "en", .female, none, []⟩, some "omnivoice")] := by
    decide +kernel
  rw [shown] at read
  exact ⟨rows, fetched, read⟩

end

end Clients

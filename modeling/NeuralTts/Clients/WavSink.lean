import Mathlib.Algebra.Order.Ring.Int
import NeuralTts.Daemon.Protocol
import NeuralTts.Library.Collect
import NeuralTts.Library.File

/-! How `neural-tts-say` writes a WAV file (`WavSink`). -/

namespace Clients

open Daemon Library

/-- The exceptions that `cmd_say` tells apart, and any other. -/
inductive Raised
  | fileNotFoundError
  | connectionRefusedError
  | runtimeError (message : String)
  /-- `IOError`; `socket.timeout` is one. -/
  | osError (message : String)
  | structError
  | other (name : String)
deriving DecidableEq

def littleEndian : Nat → Nat → Bytes
  | 0, _ => []
  | width + 1, n => UInt8.ofNat n :: littleEndian width (n / 256)

/-- `struct.pack` of a little-endian format, a width in bytes and a value for each field. -/
def pack {σ : Type} (fields : List (Nat × Int)) : EStateM Raised σ Bytes :=
  if ∀ field ∈ fields, 0 ≤ field.2 ∧ field.2 < 256 ^ field.1 then
    pure (fields.flatMap fun field => littleEndian field.1 field.2.toNat)
  else throw .structError

def unpack (raw : Bytes) : Nat := raw.foldr (fun byte n => byte.toNat + 256 * n) 0

/-- `open(path, "wb")`, of a file or of a pipe. -/
def openWb (seekable : Bool) : File UInt8 := ⟨[], 0, !seekable, seekable⟩

def ascii (name : List Char) : Bytes := name.map fun c => c.val.toUInt8

/-- The fields of the format chunk: PCM, mono, of 16 bits. -/
def fmtChunk (rate : Int) : List (Nat × Int) :=
  let byteRate := rate * 1 * 2
  [(4, 16), (2, 1), (2, 1), (4, rate), (4, byteRate), (2, 2), (2, 16)]

structure WavSink where
  f : File UInt8
  rate : Int
  dataBytes : Nat
  seekable : Bool

namespace WavSink

def fWrite (bytes : Bytes) : EStateM Raised WavSink Unit := modify fun s => { s with f := s.f.write 0 bytes }

def fSeek (position : Nat) : EStateM Raised WavSink Unit := modify fun s => { s with f := s.f.seek position }

def writeHeader (placeholder : Bool) : EStateM Raised WavSink Unit := do
  let s ← get
  let dataSize : Nat := if placeholder then 0xFFFFFFFF else s.dataBytes
  let riffSize : Nat := if placeholder then 0xFFFFFFFF else 36 + s.dataBytes
  fWrite (ascii ['R', 'I', 'F', 'F'])
  fWrite (← pack [(4, riffSize)])
  fWrite (ascii ['W', 'A', 'V', 'E'])
  fWrite (ascii ['f', 'm', 't', ' '])
  fWrite (← pack (fmtChunk s.rate))
  fWrite (ascii ['d', 'a', 't', 'a'])
  fWrite (← pack [(4, dataSize)])

/-- `WavSink(fileobj, rate)`: the sink, as far as it got if `__init__` raises. -/
def init (fileobj : File UInt8) (rate : Int) : EStateM.Result Raised WavSink Unit :=
  (writeHeader (!fileobj.seekable)).run ⟨fileobj, rate, 0, fileobj.seekable⟩

def write (pcm : Bytes) : EStateM Raised WavSink Unit := do
  fWrite pcm
  modify fun s => { s with dataBytes := s.dataBytes + pcm.length }

def close : EStateM Raised WavSink Unit := do
  let s ← get
  if s.seekable then
    fSeek 4
    fWrite (← pack [(4, (36 + s.dataBytes : Nat))])
    fSeek 40
    fWrite (← pack [(4, s.dataBytes)])

end WavSink

@[simp] theorem length_littleEndian (width n : Nat) : (littleEndian width n).length = width := by
  induction width generalizing n with
  | zero => rfl
  | succ width ih => rw [littleEndian, List.length_cons, ih]

theorem littleEndian_ne_nil {width n : Nat} : littleEndian (width + 1) n ≠ [] := List.cons_ne_nil _ _

theorem unpack_littleEndian {width n : Nat} (fits : n < 256 ^ width) : unpack (littleEndian width n) = n := by
  induction width generalizing n with
  | zero =>
    have none : n = 0 := by simpa using fits
    rw [none]
    rfl
  | succ width ih =>
    have rest : unpack (littleEndian width (n / 256)) = n / 256 := ih (by rw [Nat.pow_succ] at fits; omega)
    change (UInt8.ofNat n).toNat + 256 * unpack (littleEndian width (n / 256)) = n
    rw [rest, UInt8.toNat_ofNat']
    omega

@[simp] theorem length_ascii (name : List Char) : (ascii name).length = name.length := List.length_map ..

/-- What stands between the two sizes. -/
def between (rate : Int) : Bytes :=
  ascii ['W', 'A', 'V', 'E'] ++ (ascii ['f', 'm', 't', ' '] ++
    ((fmtChunk rate).flatMap (fun field => littleEndian field.1 field.2.toNat) ++ ascii ['d', 'a', 't', 'a']))

@[simp] theorem length_between (rate : Int) : (between rate).length = 32 := by
  simp [between, fmtChunk]

def header (rate : Int) (riffSize dataSize : Nat) : Bytes :=
  ascii ['R', 'I', 'F', 'F'] ++ littleEndian 4 riffSize ++ between rate ++ littleEndian 4 dataSize

@[simp] theorem length_header (rate : Int) (riffSize dataSize : Nat) : (header rate riffSize dataSize).length = 44 := by
  simp [header]

/-- The size fields of a WAV file declare all of it, and `pcm` is its body. -/
structure Describes (content pcm : Bytes) : Prop where
  riffSize : unpack ((content.drop 4).take 4) + 8 = content.length
  dataSize : unpack ((content.drop 40).take 4) = pcm.length
  body : content.drop 44 = pcm

variable {σ : Type} {s t : WavSink} {file : File UInt8} {rate : Int} {total : Nat} {pcm : Bytes} {writes : List Bytes}

theorem pack_run_of_fits {fields : List (Nat × Int)}
    (fits : ∀ field ∈ fields, 0 ≤ field.2 ∧ field.2 < 256 ^ field.1) (state : σ) : (pack fields).run state =
      .ok (fields.flatMap fun field => littleEndian field.1 field.2.toNat) state := by
  rw [pack, if_pos fits]
  rfl

theorem pack_run_of_not {fields : List (Nat × Int)}
    (overflows : ¬∀ field ∈ fields, 0 ≤ field.2 ∧ field.2 < 256 ^ field.1) (state : σ) : (pack fields).run state = .error .structError state := by
  rw [pack, if_neg overflows]
  rfl

theorem size_run_of_fits {n : Nat} (fits : n < 2 ^ 32) (state : σ) :
    (pack [(4, (n : Int))]).run state = .ok (littleEndian 4 n) state := by
  have small : ∀ field ∈ [(4, (n : Int))], 0 ≤ field.2 ∧ field.2 < 256 ^ field.1 := by
    intro field member
    rw [List.mem_singleton.mp member]
    dsimp only
    omega
  rw [pack_run_of_fits small, List.flatMap_singleton, Int.toNat_natCast]

theorem size_run_of_overflow {n : Nat} (overflows : 2 ^ 32 ≤ n) (state : σ) :
    (pack [(4, (n : Int))]).run state = .error .structError state := by
  refine pack_run_of_not (fun fits => ?_) state
  have bound := (fits (4, n) (List.mem_singleton_self _)).2
  dsimp only at bound
  omega

theorem header_assoc (rate : Int) (riffSize dataSize : Nat) : header rate riffSize dataSize =
    ascii ['R', 'I', 'F', 'F'] ++ (littleEndian 4 riffSize ++ (ascii ['W', 'A', 'V', 'E'] ++
      (ascii ['f', 'm', 't', ' '] ++ ((fmtChunk rate).flatMap (fun field => littleEndian field.1 field.2.toNat) ++
        (ascii ['d', 'a', 't', 'a'] ++ littleEndian 4 dataSize))))) := by
  simp only [header, between, List.append_assoc]

theorem riffSize_header {riffSize dataSize : Nat} (fits : riffSize < 2 ^ 32) :
    unpack (((header rate riffSize dataSize ++ pcm).drop 4).take 4) = riffSize := by
  have rest : (header rate riffSize dataSize ++ pcm).drop 4 =
      littleEndian 4 riffSize ++ (between rate ++ littleEndian 4 dataSize ++ pcm) := by
    simp only [header, List.append_assoc]
    exact List.drop_left' rfl
  rw [rest, List.take_left' (length_littleEndian 4 riffSize), unpack_littleEndian fits]

theorem dataSize_header {riffSize dataSize : Nat} (fits : dataSize < 2 ^ 32) :
    unpack (((header rate riffSize dataSize ++ pcm).drop 40).take 4) = dataSize := by
  have rest : (header rate riffSize dataSize ++ pcm).drop 40 = littleEndian 4 dataSize ++ pcm := by
    rw [header, List.append_assoc _ (littleEndian 4 dataSize) pcm]
    exact List.drop_left' (by simp)
  rw [rest, List.take_left' (length_littleEndian 4 dataSize), unpack_littleEndian fits]

theorem body_header {riffSize dataSize : Nat} : (header rate riffSize dataSize ++ pcm).drop 44 = pcm :=
  List.drop_left' (length_header rate riffSize dataSize)

theorem header_ne_nil {riffSize dataSize : Nat} : header rate riffSize dataSize ++ pcm ≠ [] := by
  intro none
  have length := congrArg List.length none
  simp at length

theorem Describes.length_eq {content : Bytes} (described : Describes content pcm) (holds : 44 ≤ content.length) :
    content.length = 44 + pcm.length := by
  rw [← described.body, List.length_drop]
  omega

namespace WavSink

/-- The sizes that the constructor writes: none yet, or placeholders in a pipe. -/
def firstSizes (seekable : Bool) : Nat × Nat := if seekable then (36, 0) else (0xFFFFFFFF, 0xFFFFFFFF)

theorem fmtChunk_fits_iff :
    (∀ field ∈ fmtChunk rate, 0 ≤ field.2 ∧ field.2 < 256 ^ field.1) ↔ 0 ≤ rate ∧ 2 * rate < 2 ^ 32 := by
  simp only [fmtChunk, List.forall_mem_cons, List.not_mem_nil, false_implies, implies_true, and_true]
  omega

theorem init_of_fits (file : File UInt8) (rate : Int) (fits : 0 ≤ rate ∧ 2 * rate < 2 ^ 32) : init file rate =
    .ok () ⟨file.write 0 (header rate (firstSizes file.seekable).1 (firstSizes file.seekable).2), rate, 0,
      file.seekable⟩ := by
  have middle := pack_run_of_fits (σ := WavSink) (fmtChunk_fits_iff.mpr fits)
  have sizes (n : Nat) (small : n < 2 ^ 32) := size_run_of_fits (σ := WavSink) small
  rw [header_assoc]
  simp only [← File.write_write]
  cases same : file.seekable <;>
    simp only [init, writeHeader, EStateM.run_bind, EStateM.run_get, fWrite, EStateM.run_modify, same, middle,
      Bool.not_false, Bool.not_true, Bool.false_eq_true, ↓reduceIte, firstSizes, sizes 0xFFFFFFFF (by decide),
      sizes 0 (by decide), sizes (36 + 0) (by decide)]

theorem fits_of_init (made : init file rate = .ok () s) : 0 ≤ rate ∧ 2 * rate < 2 ^ 32 := by
  by_contra large
  have middle := pack_run_of_not (σ := WavSink) (mt fmtChunk_fits_iff.mp large)
  have sizes (n : Nat) (small : n < 2 ^ 32) := size_run_of_fits (σ := WavSink) small
  cases same : file.seekable <;>
    simp only [init, writeHeader, EStateM.run_bind, EStateM.run_get, fWrite, EStateM.run_modify, same, middle,
      Bool.not_false, Bool.not_true, Bool.false_eq_true, ↓reduceIte, sizes 0xFFFFFFFF (by decide),
      sizes (36 + 0) (by decide), reduceCtorEq] at made

theorem write_run : (write pcm).run s =
    .ok () { s with f := s.f.write 0 pcm, dataBytes := s.dataBytes + pcm.length } := rfl

theorem writes_run : (forM writes write).run s =
    .ok () { s with f := s.f.write 0 writes.flatten, dataBytes := s.dataBytes + writes.flatten.length } := by
  induction writes generalizing s with
  | nil => rfl
  | cons pcm writes ih =>
    rw [List.forM_cons, EStateM.run_bind, write_run]
    simp only [ih, File.write_write, List.flatten_cons, List.length_append, Nat.add_assoc]

def patched (f : File UInt8) (total : Nat) : File UInt8 :=
  (((f.seek 4).write 0 (littleEndian 4 (36 + total))).seek 40).write 0 (littleEndian 4 total)

theorem fWrite_run {bytes : Bytes} : (fWrite bytes).run s = .ok () { s with f := s.f.write 0 bytes } := rfl

theorem fSeek_run {position : Nat} : (fSeek position).run s = .ok () { s with f := s.f.seek position } := rfl

theorem close_run_of_fits (seekable : s.seekable = true) (fits : 36 + s.dataBytes < 2 ^ 32) :
    close.run s = .ok () { s with f := patched s.f s.dataBytes } := by
  rw [close, run_bind_ok (EStateM.run_get s), if_pos seekable, run_bind_ok fSeek_run,
    run_bind_ok (size_run_of_fits fits _), run_bind_ok fWrite_run, run_bind_ok fSeek_run,
    run_bind_ok (size_run_of_fits (by omega) _)]
  rfl

theorem close_run_of_overflow (seekable : s.seekable = true) (overflows : 2 ^ 32 ≤ 36 + s.dataBytes) :
    close.run s = .error .structError { s with f := s.f.seek 4 } := by
  rw [close, run_bind_ok (EStateM.run_get s), if_pos seekable, run_bind_ok fSeek_run]
  exact run_bind_error (size_run_of_overflow overflows _)

theorem length_patched (file : File UInt8) (total : Nat) : (patched file total).content.length =
    if file.appends then file.content.length + 8 else max file.content.length 44 := by
  cases appends : file.appends <;>
    simp [patched, File.length_content_write, littleEndian_ne_nil, File.seek, File.offset, appends, Nat.add_assoc]

def streamed (file : File UInt8) (rate : Int) (pcm : Bytes) : File UInt8 := file.write 0 (header rate 36 0 ++ pcm)

theorem length_streamed (file : File UInt8) (rate : Int) (pcm : Bytes) : (streamed file rate pcm).content.length =
    max file.content.length (file.offset + (44 + pcm.length)) := by
  rw [streamed, File.length_content_write header_ne_nil, List.length_append, length_header]

theorem content_streamed (start : file.offset = 0) (covered : file.content.length ≤ 44 + pcm.length) :
    (streamed file rate pcm).content = header rate 36 0 ++ pcm :=
  File.content_write_whole header_ne_nil start (by simpa using covered)

theorem content_patched {riffSize dataSize : Nat} (appends : file.appends = false)
    (whole : file.content = header rate riffSize dataSize ++ pcm) :
    (patched file total).content = header rate (36 + total) total ++ pcm := by
  have first : ((file.seek 4).write 0 (littleEndian 4 (36 + total))).content =
      ascii ['R', 'I', 'F', 'F'] ++ littleEndian 4 (36 + total) ++ (between rate ++ littleEndian 4 dataSize ++ pcm) := by
    refine File.content_write_middle (littleEndian 4 riffSize) littleEndian_ne_nil ?_ ?_ (by simp)
    · simp only [File.seek, whole, header, List.append_assoc]
    · simp [File.offset, File.seek, appends]
  rw [patched, header]
  refine File.content_write_middle (littleEndian 4 dataSize) littleEndian_ne_nil ?_ ?_ (by simp)
  · exact first.trans (by simp only [List.append_assoc])
  · simp [File.offset, File.seek, appends]

/-- A closed sink describes what was written if and only if it had the file to itself. -/
theorem describes_patched_iff (fits : 36 + pcm.length < 2 ^ 32) :
    Describes (patched (streamed file rate pcm) pcm.length).content pcm ↔
      file.appends = false ∧ file.offset = 0 ∧ file.content.length ≤ 44 + pcm.length := by
  constructor
  · intro described
    have length := length_patched (streamed file rate pcm) pcm.length
    have same : (streamed file rate pcm).appends = file.appends := File.write_appends
    rw [same, length_streamed] at length
    cases appends : file.appends with
    | true =>
      simp only [appends, ↓reduceIte] at length
      have exact_length := described.length_eq (by omega)
      omega
    | false =>
      simp only [appends, Bool.false_eq_true, ↓reduceIte] at length
      have exact_length := described.length_eq (by omega)
      refine ⟨rfl, ?_, ?_⟩ <;> omega
  · rintro ⟨appends, start, covered⟩
    have whole : (patched (streamed file rate pcm) pcm.length).content =
        header rate (36 + pcm.length) pcm.length ++ pcm :=
      content_patched (File.write_appends.trans appends) (content_streamed start covered)
    rw [whole]
    refine ⟨?_, ?_, body_header⟩
    · rw [riffSize_header fits, List.length_append, length_header]
      omega
    · exact dataSize_header (by omega)

theorem describes_streamed_iff : Describes (streamed file rate pcm).content pcm ↔
    pcm = [] ∧ file.offset = 0 ∧ file.content.length ≤ 44 + pcm.length := by
  have length := length_streamed file rate pcm
  constructor
  · intro described
    have exact_length := described.length_eq (by omega)
    have start : file.offset = 0 := by omega
    have covered : file.content.length ≤ 44 + pcm.length := by omega
    have declared := described.dataSize
    rw [content_streamed start covered, dataSize_header (by decide)] at declared
    exact ⟨List.eq_nil_of_length_eq_zero declared.symm, start, covered⟩
  · rintro ⟨rfl, start, covered⟩
    rw [content_streamed start covered]
    refine ⟨?_, ?_, body_header⟩
    · rw [riffSize_header (by decide), List.length_append, length_header, List.length_nil]
    · exact dataSize_header (by decide)

theorem write_streamed {more : Bytes} :
    (streamed file rate pcm).write 0 more = streamed file rate (pcm ++ more) := by
  rw [streamed, File.write_write, List.append_assoc, streamed]

theorem eq_of_init (seekable : file.seekable = true) (made : init file rate = .ok () s) :
    s = ⟨streamed file rate [], rate, 0, true⟩ := by
  have same := made.symm.trans (init_of_fits file rate (fits_of_init made))
  simp only [seekable, firstSizes, ↓reduceIte] at same
  cases same
  rw [streamed, List.append_nil]

theorem writes_of_init (seekable : file.seekable = true) (made : init file rate = .ok () s) :
    (forM writes write).run s =
      .ok () ⟨streamed file rate writes.flatten, rate, writes.flatten.length, true⟩ := by
  rw [writes_run, eq_of_init seekable made, write_streamed, List.nil_append, Nat.zero_add]

theorem not_closed_of_overflow (seekable : file.seekable = true) (made : init file rate = .ok () s)
    (overflows : 2 ^ 32 ≤ 36 + writes.flatten.length) : (do forM writes write; close).run s ≠ .ok () t := by
  rw [EStateM.run_bind, writes_of_init seekable made]
  dsimp only
  rw [close_run_of_overflow rfl overflows]
  exact nofun

/-- When `close` succeeds and leaves a file that describes what was written. -/
theorem closes_described_iff (writes : List Bytes) (seekable : file.seekable = true) (made : init file rate = .ok () s) :
    (∃ t, (do forM writes write; close).run s = .ok () t ∧ Describes t.f.content writes.flatten) ↔
      36 + writes.flatten.length < 2 ^ 32 ∧ file.appends = false ∧ file.offset = 0 ∧
        file.content.length ≤ 44 + writes.flatten.length := by
  by_cases fits : 36 + writes.flatten.length < 2 ^ 32
  · rw [EStateM.run_bind, writes_of_init seekable made]
    dsimp only
    rw [close_run_of_fits rfl fits]
    constructor
    · rintro ⟨t, same, described⟩
      cases same
      exact ⟨fits, (describes_patched_iff fits).mp described⟩
    · rintro ⟨-, alone⟩
      exact ⟨_, rfl, (describes_patched_iff fits).mpr alone⟩
  · constructor
    · rintro ⟨t, closed, -⟩
      exact absurd closed (not_closed_of_overflow seekable made (Nat.le_of_not_lt fits))
    · rintro ⟨smaller, -⟩
      exact absurd smaller fits

/-- Two writes to a file that was just opened. -/
theorem twoWrites_closed :
    ∃ s t, init (openWb true) 24000 = .ok () s ∧ (do forM [[1, 2], [3, 4]] write; close).run s = .ok () t ∧
      Describes t.f.content [1, 2, 3, 4] := by
  have made := init_of_fits (openWb true) 24000 (by decide)
  obtain ⟨t, closed, described⟩ := (closes_described_iff [[1, 2], [3, 4]] rfl made).mpr (by decide)
  exact ⟨_, t, made, closed, described⟩

/-- With so much PCM the sizes do not fit, and `close` raises. -/
theorem longBook_unclosed :
    ∃ s, init (openWb true) 24000 = .ok () s ∧
      ¬∃ t, (do forM (List.replicate (2 ^ 20) (List.replicate 4096 0)) write; close).run s = .ok () t ∧
        Describes t.f.content (List.replicate (2 ^ 20) (List.replicate 4096 0)).flatten := by
  have made := init_of_fits (openWb true) 24000 (by decide)
  refine ⟨_, made, ?_⟩
  rintro ⟨t, closed, -⟩
  refine not_closed_of_overflow rfl made ?_ closed
  simp only [List.length_flatten, List.map_replicate, List.length_replicate, List.sum_replicate_nat]
  omega

end WavSink

end Clients

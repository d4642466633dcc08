import NeuralTts.Library.Dict
import NeuralTts.Library.PyText
import Mathlib.Algebra.Group.Nat.Hom

/-! JSON text as Python's `json` writes it, with the separators `,` and `:` and nothing but ASCII, and as
it reads it. -/

namespace Library

/-- A number is kept as its literal. -/
inductive Json
  | null
  | bool (value : Bool)
  | number (literal : List Char)
  | string (text : List Char)
  | array (items : List Json)
  | object (members : List (List Char × Json))

namespace Json

/-- `ESCAPE_DCT`, without the escapes by number. -/
def escapes : List (Char × Char) :=
  [('"', '"'), ('\\', '\\'), ('\n', 'n'), ('\r', 'r'), ('\t', 't'), ('\x0c', 'f'), ('\x08', 'b')]

/-- The UTF-16 code units of a character. -/
def units (c : Char) : List Nat :=
  if c.toNat < 0x10000 then [c.toNat]
  else [0xd800 + (c.toNat - 0x10000) / 0x400, 0xdc00 + (c.toNat - 0x10000) % 0x400]

def escapeUnit (n : Nat) : List Char :=
  ['\\', 'u', Nat.digitChar (n / 4096), Nat.digitChar (n / 256 % 16), Nat.digitChar (n / 16 % 16),
    Nat.digitChar (n % 16)]

def escapeChar (c : Char) : List Char :=
  match escapes.lookup c with
  | some letter => ['\\', letter]
  | none => if 0x20 ≤ c.toNat ∧ c.toNat ≤ 0x7e then [c] else (units c).flatMap escapeUnit

def quote (text : List Char) : List Char := '"' :: (text.flatMap escapeChar ++ ['"'])

mutual

def dumps : Json → List Char
  | .null => "null".toList
  | .bool true => "true".toList
  | .bool false => "false".toList
  | .number literal => literal
  | .string text => quote text
  | .array [] => ['[', ']']
  | .array (item :: items) => '[' :: (dumps item ++ dumpsItems items)
  | .object [] => ['\x7b', '\x7d']
  | .object ((key, value) :: members) => '\x7b' :: (quote key ++ ':' :: (dumps value ++ dumpsMembers members))

def dumpsItems : List Json → List Char
  | [] => [']']
  | item :: items => ',' :: (dumps item ++ dumpsItems items)

def dumpsMembers : List (List Char × Json) → List Char
  | [] => ['\x7d']
  | (key, value) :: members => ',' :: (quote key ++ ':' :: (dumps value ++ dumpsMembers members))

end

mutual

def depth : Json → Nat
  | .array items => depthItems items + 1
  | .object members => depthMembers members + 1
  | _ => 0

def depthItems : List Json → Nat
  | [] => 0
  | item :: items => max (depth item) (depthItems items)

def depthMembers : List (List Char × Json) → Nat
  | [] => 0
  | (_, value) :: members => max (depth value) (depthMembers members)

end

def isWhite (c : Char) : Bool := c = ' ' || c = '\t' || c = '\n' || c = '\r'

def skip (s : List Char) : List Char := s.dropWhile isWhite

def hexValue (c : Char) : Option Nat :=
  if '0' ≤ c ∧ c ≤ '9' then some (c.toNat - 48)
  else if 'a' ≤ c ∧ c ≤ 'f' then some (c.toNat - 87)
  else if 'A' ≤ c ∧ c ≤ 'F' then some (c.toNat - 55)
  else none

def readUnit (a b c d : Char) : Option Nat := do
  let a ← hexValue a
  let b ← hexValue b
  let c ← hexValue c
  let d ← hexValue d
  return 4096 * a + 256 * b + 16 * c + d

def unescape (letter : Char) : Option Nat :=
  if letter = '/' then some '/'.toNat
  else (escapes.find? fun escape => escape.2 = letter).map fun escape => escape.1.toNat

/-- A string after its opening quote, as code points and code units. -/
def readUnits : List Char → Option (List Nat × List Char)
  | '"' :: rest => some ([], rest)
  | '\\' :: 'u' :: a :: b :: c :: d :: rest => do
    let n ← readUnit a b c d
    let (ns, rest) ← readUnits rest
    return (n :: ns, rest)
  | '\\' :: letter :: rest => do
    let n ← unescape letter
    let (ns, rest) ← readUnits rest
    return (n :: ns, rest)
  | c :: rest =>
    if c.toNat < 0x20 then none
    else do
      let (ns, rest) ← readUnits rest
      return (c.toNat :: ns, rest)
  | [] => none

def Surrogate (n : Nat) : Prop := 0xd800 ≤ n ∧ n ≤ 0xdfff

instance (n : Nat) : Decidable (Surrogate n) := inferInstanceAs (Decidable (_ ∧ _))

def Pair (high low : Nat) : Prop := (0xd800 ≤ high ∧ high ≤ 0xdbff) ∧ 0xdc00 ≤ low ∧ low ≤ 0xdfff

instance (high low : Nat) : Decidable (Pair high low) := inferInstanceAs (Decidable (_ ∧ _))

/-- Pairs of surrogates are put together; one that is left over is no character. -/
def join : List Nat → Option (List Char)
  | [] => some []
  | [n] => if Surrogate n then none else some [Char.ofNat n]
  | high :: low :: rest =>
    if Pair high low then
      (join rest).map fun text => Char.ofNat (0x10000 + (high - 0xd800) * 0x400 + (low - 0xdc00)) :: text
    else if Surrogate high then none
    else (join (low :: rest)).map fun text => Char.ofNat high :: text

def readString (s : List Char) : Option (List Char × List Char) := do
  let (ns, rest) ← readUnits s
  let text ← join ns
  return (text, rest)

def digits (s : List Char) : List Char × List Char := (s.takeWhile Char.isDigit, s.dropWhile Char.isDigit)

def readWhole : List Char → Option (List Char × List Char)
  | '0' :: rest => some (['0'], rest)
  | s => if (digits s).1 = [] then none else some (digits s)

def readFraction : List Char → List Char × List Char
  | '.' :: rest => if (digits rest).1 = [] then ([], '.' :: rest) else ('.' :: (digits rest).1, (digits rest).2)
  | s => ([], s)

def readSign (signs : List Char) : List Char → List Char × List Char
  | c :: rest => if c ∈ signs then ([c], rest) else ([], c :: rest)
  | [] => ([], [])

def readExponent : List Char → List Char × List Char
  | c :: rest =>
    let (sign, after) := readSign ['+', '-'] rest
    if (c = 'e' ∨ c = 'E') ∧ (digits after).1 ≠ [] then (c :: (sign ++ (digits after).1), (digits after).2)
    else ([], c :: rest)
  | [] => ([], [])

def readNumber (s : List Char) : Option (List Char × List Char) := do
  let (sign, s) := readSign ['-'] s
  let (whole, s) ← readWhole s
  let (fraction, s) := readFraction s
  let (exponent, s) := readExponent s
  return (sign ++ (whole ++ (fraction ++ exponent)), s)

def constants : List (List Char × Json) :=
  [("null".toList, .null), ("true".toList, .bool true), ("false".toList, .bool false),
    ("NaN".toList, .number "NaN".toList), ("Infinity".toList, .number "Infinity".toList),
    ("-Infinity".toList, .number "-Infinity".toList)]

def maxStrDigits : Nat := 4300

/-- An integer of so many digits that `int` raises a `ValueError`. -/
def tooLong (literal : List Char) : Bool :=
  literal.all (fun c => c = '-' || c.isDigit) && decide (maxStrDigits < (literal.filter Char.isDigit).length)

def readScalar (s : List Char) : Option (Json × List Char) :=
  match readNumber s with
  | some (literal, rest) => if tooLong literal then none else some (.number literal, rest)
  | none => (constants.find? fun constant => constant.1.isPrefixOf s).map fun constant =>
      (constant.2, s.drop constant.1.length)

/-- `dict(pairs)`: of two members with one key the later gives the value. -/
def distinct (members : List (List Char × Json)) : List (List Char × Json) :=
  (members.foldl (fun (d : Dict (List Char) Json) member => d.set member.1 member.2) ∅).entries.map
    fun entry => (entry.1, entry.2)

/-- The key of a member and the colon, with what follows them. -/
def readKey : List Char → Option (List Char × List Char)
  | '"' :: rest => do
    let (key, rest) ← readString rest
    match skip rest with
    | ':' :: rest => some (key, skip rest)
    | _ => none
  | _ => none

mutual

/-- `scan_once`, where there is room for so many arrays and objects in one another: one more is a
`RecursionError`. -/
def value : Nat → Nat → List Char → Option (Json × List Char)
  | 0, _, _ | _, _, [] => none
  | fuel + 1, room, c :: rest =>
    if c = '"' then (readString rest).map fun (text, rest) => (.string text, rest)
    else if (c = '[' ∨ c = '\x7b') ∧ room = 0 then none
    else if c = '[' then
      match skip rest with
      | ']' :: rest => some (.array [], rest)
      | rest => do
        let (item, rest) ← value fuel (room - 1) rest
        let (items, rest) ← items fuel (room - 1) rest
        return (.array (item :: items), rest)
    else if c = '\x7b' then
      match skip rest with
      | '\x7d' :: rest => some (.object [], rest)
      | rest => do
        let (key, rest) ← readKey rest
        let (item, rest) ← value fuel (room - 1) rest
        let (more, rest) ← members fuel (room - 1) rest
        return (.object (distinct ((key, item) :: more)), rest)
    else readScalar (c :: rest)

/-- The rest of an array, after an item. -/
def items : Nat → Nat → List Char → Option (List Json × List Char)
  | 0, _, _ => none
  | fuel + 1, room, s =>
    match skip s with
    | ']' :: rest => some ([], rest)
    | ',' :: rest => do
      let (item, rest) ← value fuel room (skip rest)
      let (more, rest) ← items fuel room rest
      return (item :: more, rest)
    | _ => none

/-- The rest of an object, after a member. -/
def members : Nat → Nat → List Char → Option (List (List Char × Json) × List Char)
  | 0, _, _ => none
  | fuel + 1, room, s =>
    match skip s with
    | '\x7d' :: rest => some ([], rest)
    | ',' :: rest => do
      let (key, rest) ← readKey (skip rest)
      let (item, rest) ← value fuel room rest
      let (more, rest) ← members fuel room rest
      return ((key, item) :: more, rest)
    | _ => none

end

/-- `json.loads`; each level of nesting and each item takes a character, so the fuel is enough. -/
def loads (room : Nat) (s : List Char) : Option Json :=
  match value (s.length + 1) room (skip s) with
  | some (read, rest) => if skip rest = [] then some read else none
  | none => none

-- The equations of the readers, made once and not by every proof that unfolds one.
attribute [grind =] escapeChar readUnits join readWhole readFraction readSign readExponent readString value

section

variable {c : Char} {s rest text literal : List Char} {n : Nat} {ns : List Nat}

theorem hexValue_digitChar (small : n < 16) : hexValue (Nat.digitChar n) = some n := by
  have all : ∀ n < 16, hexValue (Nat.digitChar n) = some n := by decide
  exact all n small

theorem readUnit_digits (small : n < 0x10000) :
    readUnit (Nat.digitChar (n / 4096)) (Nat.digitChar (n / 256 % 16)) (Nat.digitChar (n / 16 % 16))
      (Nat.digitChar (n % 16)) = some n := by
  have first : n / 4096 < 16 := by omega
  have whole : 4096 * (n / 4096) + 256 * (n / 256 % 16) + 16 * (n / 16 % 16) + n % 16 = n := by omega
  simp only [readUnit, hexValue_digitChar first, hexValue_digitChar (Nat.mod_lt _ (by decide : 0 < 16)),
    Option.pure_def, Option.bind_eq_bind, Option.bind_some, whole]

theorem readUnits_unit (small : n < 0x10000) (rest : List Char) :
    readUnits (escapeUnit n ++ rest) = (readUnits rest).map fun read => (n :: read.1, read.2) := by
  rw [escapeUnit]
  simp only [List.cons_append, List.nil_append]
  rw [readUnits, readUnit_digits small]
  cases readUnits rest <;> rfl

theorem of_lookup_escapes {letter : Char} (found : escapes.lookup c = some letter) :
    letter ≠ 'u' ∧ unescape letter = some c.toNat ∧ units c = [c.toNat] := by
  have all : ∀ escape ∈ escapes,
      escape.2 ≠ 'u' ∧ unescape escape.2 = some escape.1.toNat ∧ units escape.1 = [escape.1.toNat] := by
    decide
  obtain ⟨front, back, split, -⟩ := List.lookup_eq_some_iff.mp found
  exact all (c, letter) (by rw [split]; simp)

theorem of_lookup_escapes_none (missing : escapes.lookup c = none) : c ≠ '"' ∧ c ≠ '\\' := by
  constructor
  · rintro rfl
    cases missing
  · rintro rfl
    cases missing

theorem toNat_bounds (c : Char) : c.toNat < 0xd800 ∨ 0xdfff < c.toNat ∧ c.toNat < 0x110000 := c.valid

theorem units_lt (c : Char) : ∀ n ∈ units c, n < 0x10000 := by
  have bounds := toNat_bounds c
  intro n member
  rw [units] at member
  split at member
  · rw [List.mem_singleton] at member
    omega
  · rename_i large
    have high : (c.toNat - 0x10000) / 0x400 < 0x400 := by omega
    have low : (c.toNat - 0x10000) % 0x400 < 0x400 := Nat.mod_lt _ (by decide)
    rcases List.mem_pair.mp member with same | same
    · omega
    · omega

theorem readUnits_units (small : ∀ n ∈ ns, n < 0x10000) (rest : List Char) :
    readUnits (ns.flatMap escapeUnit ++ rest) = (readUnits rest).map fun read => (ns ++ read.1, read.2) := by
  induction ns with
  | nil =>
    rw [List.flatMap_nil, List.nil_append]
    cases readUnits rest <;> rfl
  | cons n ns ih =>
    rw [List.forall_mem_cons] at small
    rw [List.flatMap_cons, List.append_assoc, readUnits_unit small.1, ih small.2]
    cases readUnits rest <;> rfl

theorem readUnits_escapeChar (c : Char) (rest : List Char) :
    readUnits (escapeChar c ++ rest) = (readUnits rest).map fun read => (units c ++ read.1, read.2) := by
  rw [escapeChar]
  split
  · rename_i letter found
    obtain ⟨other, back, single⟩ := of_lookup_escapes found
    simp only [List.cons_append, List.nil_append]
    rw [readUnits, back, single]
    · cases readUnits rest <;> rfl
    · intro a b c d after same
      exact absurd same other
  · rename_i missing
    obtain ⟨noQuote, noEscape⟩ := of_lookup_escapes_none missing
    split
    · rename_i plain
      have single : units c = [c.toNat] := if_pos (by omega)
      rw [List.singleton_append, readUnits, if_neg (by omega), single]
      · cases readUnits rest <;> rfl
      · exact noQuote
      · intro a b c d after same
        exact absurd same noEscape
      · intro letter after same
        exact absurd same noEscape
    · exact readUnits_units (units_lt c) rest

theorem join_units (c : Char) (ns : List Nat) : join (units c ++ ns) = (join ns).map fun text => c :: text := by
  have bounds := toNat_bounds c
  rw [units]
  split
  · have single : ¬Surrogate c.toNat := by
      rintro ⟨low, high⟩
      omega
    rw [List.singleton_append]
    cases ns with
    | nil =>
      simp only [join, if_neg single, Char.ofNat_toNat]
      rfl
    | cons n ns =>
      have unpaired : ¬Pair c.toNat n := by
        rintro ⟨⟨low, high⟩, -⟩
        omega
      rw [join, if_neg unpaired, if_neg single, Char.ofNat_toNat]
  · have pair : Pair (0xd800 + (c.toNat - 0x10000) / 0x400) (0xdc00 + (c.toNat - 0x10000) % 0x400) := by
      have high : (c.toNat - 0x10000) / 0x400 < 0x400 := by omega
      have low : (c.toNat - 0x10000) % 0x400 < 0x400 := Nat.mod_lt _ (by decide)
      refine ⟨⟨?_, ?_⟩, ?_, ?_⟩ <;> omega
    have whole : 0x10000 + (0xd800 + (c.toNat - 0x10000) / 0x400 - 0xd800) * 0x400 +
        (0xdc00 + (c.toNat - 0x10000) % 0x400 - 0xdc00) = c.toNat := by
      omega
    rw [List.cons_append, List.singleton_append, join, if_pos pair, whole, Char.ofNat_toNat]

theorem readUnits_escaped (text rest : List Char) :
    readUnits (text.flatMap escapeChar ++ '"' :: rest) = some (text.flatMap units, rest) := by
  induction text with
  | nil => rw [List.flatMap_nil, List.nil_append, readUnits, List.flatMap_nil]
  | cons c text ih =>
    rw [List.flatMap_cons, List.append_assoc, readUnits_escapeChar, ih, List.flatMap_cons]
    rfl

theorem join_flatMap_units (text : List Char) : join (text.flatMap units) = some text := by
  induction text with
  | nil => rw [List.flatMap_nil, join]
  | cons c text ih =>
    rw [List.flatMap_cons, join_units, ih]
    rfl

theorem readString_escaped (text rest : List Char) :
    readString (text.flatMap escapeChar ++ '"' :: rest) = some (text, rest) := by
  rw [readString, readUnits_escaped]
  simp only [Option.bind_eq_bind, Option.bind_some, join_flatMap_units]
  rfl

/-- What may follow a value: nothing of a number. -/
def Stops (rest : List Char) : Prop := ∀ c after, rest = c :: after → c = ',' ∨ c = ']' ∨ c = '\x7d'

theorem stops_nil : Stops [] := nofun

theorem Stops.ne {d : Char} (stops : Stops (d :: rest)) : d.isDigit = false ∧ d ≠ '.' ∧ d ≠ 'e' ∧ d ≠ 'E' ∧ d ≠ '-' ∧
    d ≠ '0' := by
  rcases stops d rest rfl with rfl | rfl | rfl <;> decide

theorem digits_append (stops : Stops rest) (s : List Char) :
    digits (s ++ rest) = ((digits s).1, (digits s).2 ++ rest) := by
  induction s with
  | nil =>
    cases rest with
    | nil => rfl
    | cons d rest => simp [digits, stops.ne.1]
  | cons d s ih =>
    rw [digits, digits, Prod.mk.injEq] at ih
    cases digit : d.isDigit with
    | true => simp [digits, digit, ih.1, ih.2]
    | false => simp [digits, digit]

theorem readWhole_append (stops : Stops rest) (s : List Char) :
    readWhole (s ++ rest) = (readWhole s).map fun read => (read.1, read.2 ++ rest) := by
  have other (s : List Char) (plain : ∀ after, s = '0' :: after → False)
      (plain' : ∀ after, s ++ rest = '0' :: after → False) :
      readWhole (s ++ rest) = (readWhole s).map fun read => (read.1, read.2 ++ rest) := by
    rw [readWhole, readWhole, digits_append stops]
    · split <;> rfl
    · exact plain
    · exact plain'
  cases s with
  | nil =>
    apply other
    · exact nofun
    · intro after same
      rw [List.nil_append] at same
      subst same
      exact stops.ne.2.2.2.2.2 rfl
  | cons d s =>
    by_cases zero : d = '0'
    · subst zero
      rfl
    · apply other
      · intro after same
        cases same
        exact zero rfl
      · intro after same
        cases same
        exact zero rfl

theorem readFraction_append (stops : Stops rest) (s : List Char) :
    readFraction (s ++ rest) = ((readFraction s).1, (readFraction s).2 ++ rest) := by
  cases s with
  | nil =>
    cases rest with
    | nil => rfl
    | cons d rest =>
      rw [List.nil_append, readFraction]
      · rfl
      · intro after same
        cases same
        exact stops.ne.2.1 rfl
  | cons d s =>
    by_cases point : d = '.'
    · subst point
      rw [List.cons_append, readFraction, readFraction, digits_append stops]
      split <;> rfl
    · rw [List.cons_append, readFraction, readFraction]
      · rfl
      · intro after same
        cases same
        exact point rfl
      · intro after same
        cases same
        exact point rfl

theorem readSign_append {signs : List Char} (absent : ∀ d after, rest = d :: after → d ∉ signs) (s : List Char) :
    readSign signs (s ++ rest) = ((readSign signs s).1, (readSign signs s).2 ++ rest) := by
  cases s with
  | nil =>
    cases rest with
    | nil => rfl
    | cons d rest =>
      rw [List.nil_append, readSign, if_neg (absent d rest rfl)]
      rfl
  | cons d s =>
    rw [List.cons_append, readSign, readSign]
    split <;> rfl

theorem readExponent_append (stops : Stops rest) (s : List Char) :
    readExponent (s ++ rest) = ((readExponent s).1, (readExponent s).2 ++ rest) := by
  have unsigned : ∀ d after, rest = d :: after → d ∉ ['+', '-'] := by
    intro d after same
    subst same
    rcases stops d after rfl with rfl | rfl | rfl <;> decide
  cases s with
  | nil =>
    cases rest with
    | nil => rfl
    | cons d rest =>
      have other : ¬(d = 'e' ∨ d = 'E') := by
        rintro (same | same)
        · exact stops.ne.2.2.1 same
        · exact stops.ne.2.2.2.1 same
      rw [List.nil_append, readExponent]
      simp only [other, false_and, if_false]
      rfl
  | cons d s =>
    rw [List.cons_append, readExponent, readExponent]
    simp only [readSign_append unsigned, digits_append stops]
    split <;> rfl

theorem readNumber_append (stops : Stops rest) (s : List Char) :
    readNumber (s ++ rest) = (readNumber s).map fun read => (read.1, read.2 ++ rest) := by
  have unsigned : ∀ d after, rest = d :: after → d ∉ ['-'] := by
    intro d after same
    subst same
    rw [List.mem_singleton]
    exact stops.ne.2.2.2.2.1
  simp only [readNumber, readSign_append unsigned, readWhole_append stops]
  cases readWhole (readSign ['-'] s).2 with
  | none => rfl
  | some read =>
    simp only [Option.map_some, Option.bind_eq_bind, Option.bind_some, readFraction_append stops,
      readExponent_append stops]
    rfl

theorem readNumber_head (read : readNumber s = some (literal, rest)) :
    ∃ d after, s = d :: after ∧ (d = '-' ∨ d.isDigit = true) := by
  cases s with
  | nil => cases read
  | cons d s =>
    refine ⟨d, s, rfl, ?_⟩
    by_contra neither
    rw [not_or, Bool.not_eq_true] at neither
    have unsigned : readSign ['-'] (d :: s) = ([], d :: s) := if_neg (by simp [neither.1])
    have none : readWhole (d :: s) = none := by
      rw [readWhole]
      · simp [digits, neither.2]
      · intro after same
        cases same
        exact absurd neither.2 (by decide)
    rw [readNumber, unsigned] at read
    simp [none] at read

end

/-- What Python's values give: a number has a literal of the grammar, and no more digits than can be written
and read, an object has one value for a key. -/
inductive Proper : Json → Prop
  | null : Proper .null
  | bool (value : Bool) : Proper (.bool value)
  | number {literal : List Char} (whole : readNumber literal = some (literal, [])) (short : tooLong literal = false) :
    Proper (.number literal)
  | string (text : List Char) : Proper (.string text)
  | array {items : List Json} (each : ∀ item ∈ items, Proper item) : Proper (.array items)
  | object {members : List (List Char × Json)} (keys : (members.map Prod.fst).Nodup)
      (each : ∀ member ∈ members, Proper member.2) : Proper (.object members)

def Reads (v : Json) : Prop :=
  ∀ fuel room rest, (dumps v).length ≤ fuel → depth v ≤ room → Stops rest →
    value fuel room (dumps v ++ rest) = some (v, rest)

section

variable {v : Json} {c : Char} {s rest key : List Char}

theorem skip_cons (solid : isWhite c = false) (s : List Char) : skip (c :: s) = c :: s := by
  simp [skip, solid]

theorem depthItems_le {items : List Json} {n : Nat} (each : ∀ item ∈ items, depth item ≤ n) : depthItems items ≤ n := by
  induction items with
  | nil => exact Nat.zero_le n
  | cons item items ih =>
    rw [List.forall_mem_cons] at each
    rw [depthItems, Nat.max_le]
    exact ⟨each.1, ih each.2⟩

theorem dumps_head (proper : Proper v) : ∃ c s, dumps v = c :: s ∧ isWhite c = false ∧ c ≠ ']' := by
  cases proper with
  | null => exact ⟨'n', _, rfl, by decide, by decide⟩
  | bool value => cases value with
    | true => exact ⟨'t', _, rfl, by decide, by decide⟩
    | false => exact ⟨'f', _, rfl, by decide, by decide⟩
  | number whole =>
    obtain ⟨d, after, rfl, head⟩ := readNumber_head whole
    refine ⟨d, after, by rw [dumps], ?_⟩
    rcases head with rfl | digit
    · decide
    · constructor
      · rw [Bool.eq_false_iff]
        intro white
        simp only [isWhite, Bool.or_eq_true, decide_eq_true_eq] at white
        rcases white with ((rfl | rfl) | rfl) | rfl <;> exact absurd digit (by decide)
      · rintro rfl
        exact absurd digit (by decide)
  | string text => exact ⟨'"', _, by rw [dumps, quote], by decide, by decide⟩
  | @array items each =>
    cases items with
    | nil => exact ⟨'[', _, by rw [dumps], by decide, by decide⟩
    | cons item items => exact ⟨'[', _, by rw [dumps], by decide, by decide⟩
  | @object members keys each =>
    cases members with
    | nil => exact ⟨'\x7b', _, by rw [dumps], by decide, by decide⟩
    | cons member members => exact ⟨'\x7b', _, by rw [dumps], by decide, by decide⟩

theorem skip_dumps (proper : Proper v) (rest : List Char) : skip (dumps v ++ rest) = dumps v ++ rest := by
  obtain ⟨c, s, starts, solid, -⟩ := dumps_head proper
  rw [starts, List.cons_append, skip_cons solid]

theorem readKey_quote (key s : List Char) (solid : skip s = s) : readKey (quote key ++ ':' :: s) = some (key, s) := by
  have colon : isWhite ':' = false := by decide
  rw [quote, List.cons_append, List.append_assoc, List.singleton_append, readKey, readString_escaped]
  simp [skip_cons colon, solid]

theorem distinct_self {members : List (List Char × Json)} (keys : (members.map Prod.fst).Nodup) :
    distinct members = members := by
  have entries (members : List (List Char × Json)) (d : Dict (List Char) Json) (keys : (members.map Prod.fst).Nodup)
      (fresh : ∀ member ∈ members, member.1 ∉ d) :
      (members.foldl (fun (d : Dict (List Char) Json) member => d.set member.1 member.2) d).entries =
        d.entries ++ members.map fun member => ⟨member.1, member.2⟩ := by
    induction members generalizing d with
    | nil => simp
    | cons member members ih =>
      obtain ⟨apart, keys⟩ := List.nodup_cons.mp keys
      rw [List.forall_mem_cons] at fresh
      rw [List.foldl_cons, ih _ keys, Dict.entries_set_of_notMem fresh.1, List.append_assoc]
      · rfl
      · intro later inside there
        rcases (Dict.mem_set _ _ _ _).mp there with same | old
        · exact apart (List.mem_map.mpr ⟨later, inside, same⟩)
        · exact fresh.2 later inside old
  rw [distinct, entries members ∅ keys fun _ _ => AList.notMem_empty _, AList.empty_entries, List.nil_append,
    List.map_map]
  exact List.map_id members

theorem value_array_nil (fuel room : Nat) (rest : List Char) :
    value (fuel + 1) (room + 1) (dumps (.array []) ++ rest) = some (.array [], rest) := by
  have solid : isWhite ']' = false := by decide
  simp [dumps, value, skip_cons solid]

theorem stops_items (items : List Json) (rest : List Char) : Stops (dumpsItems items ++ rest) := by
  cases items with
  | nil =>
    intro c after same
    cases same
    exact .inr (.inl rfl)
  | cons item items =>
    intro c after same
    cases same
    exact .inl rfl

theorem stops_members (members : List (List Char × Json)) (rest : List Char) :
    Stops (dumpsMembers members ++ rest) := by
  cases members with
  | nil =>
    intro c after same
    cases same
    exact .inr (.inr rfl)
  | cons member members =>
    intro c after same
    cases same
    exact .inl rfl

theorem items_dumps {list : List Json} (proper : ∀ item ∈ list, Proper item) (reads : ∀ item ∈ list, Reads item)
    (fuel room : Nat) (rest : List Char) (enough : (dumpsItems list).length ≤ fuel) (shallow : depthItems list ≤ room) :
    items fuel room (dumpsItems list ++ rest) = some (list, rest) := by
  have close : isWhite ']' = false := by decide
  have comma : isWhite ',' = false := by decide
  induction list generalizing fuel with
  | nil =>
    obtain ⟨fuel, rfl⟩ : ∃ less, fuel = less + 1 := Nat.exists_eq_add_of_le' enough
    simp [dumpsItems, items, skip_cons close]
  | cons item list ih =>
    rw [List.forall_mem_cons] at proper reads
    simp only [dumpsItems, List.length_cons, List.length_append] at enough
    rw [depthItems, Nat.max_le] at shallow
    obtain ⟨fuel, rfl⟩ : ∃ less, fuel = less + 1 := ⟨fuel - 1, by omega⟩
    have first := reads.1 fuel room (dumpsItems list ++ rest) (by omega) shallow.1 (stops_items list rest)
    simp only [dumpsItems, List.cons_append, List.append_assoc, items, skip_cons comma, skip_dumps proper.1, first,
      ih proper.2 reads.2 fuel (by omega) shallow.2, Option.bind_eq_bind, Option.bind_some]
    rfl

theorem members_dumps {list : List (List Char × Json)} (proper : ∀ member ∈ list, Proper member.2)
    (reads : ∀ member ∈ list, Reads member.2) (fuel room : Nat) (rest : List Char)
    (enough : (dumpsMembers list).length ≤ fuel) (shallow : depthMembers list ≤ room) :
    members fuel room (dumpsMembers list ++ rest) = some (list, rest) := by
  have close : isWhite '\x7d' = false := by decide
  have comma : isWhite ',' = false := by decide
  have quoted (key s : List Char) : skip (quote key ++ s) = quote key ++ s := skip_cons (by decide) _
  induction list generalizing fuel with
  | nil =>
    obtain ⟨fuel, rfl⟩ : ∃ less, fuel = less + 1 := Nat.exists_eq_add_of_le' enough
    simp [dumpsMembers, members, skip_cons close]
  | cons member list ih =>
    obtain ⟨key, item⟩ := member
    rw [List.forall_mem_cons] at proper reads
    simp only [dumpsMembers, List.length_cons, List.length_append] at enough
    rw [depthMembers, Nat.max_le] at shallow
    obtain ⟨fuel, rfl⟩ : ∃ less, fuel = less + 1 := ⟨fuel - 1, by omega⟩
    have short : item.dumps.length ≤ fuel := by omega
    have first := reads.1 fuel room (dumpsMembers list ++ rest) short shallow.1 (stops_members list rest)
    have solid := skip_dumps proper.1 (dumpsMembers list ++ rest)
    simp only [dumpsMembers, List.cons_append, List.append_assoc, members, skip_cons comma, quoted,
      readKey_quote key _ solid, first, ih proper.2 reads.2 fuel (by omega) shallow.2, Option.bind_eq_bind,
      Option.bind_some]
    rfl

theorem value_scalar {fuel room : Nat} (other : c ≠ '"' ∧ c ≠ '[' ∧ c ≠ '\x7b') (s : List Char) :
    value (fuel + 1) room (c :: s) = readScalar (c :: s) := by
  rw [value, if_neg other.1, if_neg (by simp [other.2]), if_neg other.2.1, if_neg other.2.2]

theorem readNumber_none (unsigned : c ≠ '-') (letter : c.isDigit = false) (s : List Char) :
    readNumber (c :: s) = none := by
  rw [Option.eq_none_iff_forall_ne_some]
  rintro ⟨literal, rest⟩ read
  obtain ⟨d, after, same, head⟩ := readNumber_head read
  cases same
  rcases head with rfl | digit
  · exact unsigned rfl
  · rw [letter] at digit
    cases digit

theorem value_array {fuel room : Nat} {t : List Char} (skipped : skip s = t) (other : ∀ after, t ≠ ']' :: after) :
    value (fuel + 1) (room + 1) ('[' :: s) = (value fuel room t).bind fun (item, rest) =>
      (items fuel room rest).bind fun (items, rest) => some (.array (item :: items), rest) := by
  rw [value, if_neg (by decide), if_neg (by simp), if_pos rfl, skipped]
  split
  · rename_i rest
    exact absurd rfl (other rest)
  · rfl

theorem value_object {fuel room : Nat} {t : List Char} (skipped : skip s = t) (other : ∀ after, t ≠ '\x7d' :: after) :
    value (fuel + 1) (room + 1) ('\x7b' :: s) = (readKey t).bind fun (key, rest) =>
      (value fuel room rest).bind fun (item, rest) => (members fuel room rest).bind fun (more, rest) =>
        some (.object (distinct ((key, item) :: more)), rest) := by
  rw [value, if_neg (by decide), if_neg (by simp), if_neg (by decide), if_pos rfl, skipped]
  split
  · rename_i rest
    exact absurd rfl (other rest)
  · rfl

theorem Reads.of_cons {d : Char} (starts : dumps v = d :: s)
    (reads : ∀ fuel room rest, s.length ≤ fuel → depth v ≤ room → Stops rest →
      value (fuel + 1) room (d :: (s ++ rest)) = some (v, rest)) : Reads v := by
  intro fuel room rest enough shallow stops
  rw [starts, List.length_cons] at enough
  obtain ⟨fuel, rfl⟩ : ∃ less, fuel = less + 1 := ⟨fuel - 1, by omega⟩
  rw [starts, List.cons_append]
  exact reads fuel room rest (by omega) shallow stops

theorem Reads.of_nested {n : Nat} {d : Char} (starts : dumps v = d :: s) (nested : depth v = n + 1)
    (reads : ∀ fuel room rest, s.length ≤ fuel → n ≤ room → Stops rest →
      value (fuel + 1) (room + 1) (d :: (s ++ rest)) = some (v, rest)) : Reads v := by
  apply Reads.of_cons starts
  intro fuel room rest enough shallow stops
  rw [nested] at shallow
  obtain ⟨room, rfl⟩ : ∃ less, room = less + 1 := ⟨room - 1, by omega⟩
  exact reads fuel room rest enough (Nat.le_of_succ_le_succ shallow) stops

theorem Proper.reads (proper : Proper v) : Reads v := by
  induction proper with
  | null =>
    apply Reads.of_cons (d := 'n') (s := ['u', 'l', 'l']) rfl
    intro fuel room rest _ _ _
    rw [value_scalar (by decide), readScalar, readNumber_none (by decide) (by decide)]
    rfl
  | bool value =>
    cases value with
    | true =>
      apply Reads.of_cons (d := 't') (s := ['r', 'u', 'e']) rfl
      intro fuel room rest _ _ _
      rw [value_scalar (by decide), readScalar, readNumber_none (by decide) (by decide)]
      rfl
    | false =>
      apply Reads.of_cons (d := 'f') (s := ['a', 'l', 's', 'e']) rfl
      intro fuel room rest _ _ _
      rw [value_scalar (by decide), readScalar, readNumber_none (by decide) (by decide)]
      rfl
  | @number literal whole short =>
    obtain ⟨d, after, rfl, head⟩ := readNumber_head whole
    apply Reads.of_cons (d := d) (s := after) (by rw [dumps])
    intro fuel room rest _ _ stops
    have other : d ≠ '"' ∧ d ≠ '[' ∧ d ≠ '\x7b' := by
      rcases head with rfl | digit
      · decide
      · refine ⟨?_, ?_, ?_⟩ <;> (rintro rfl; exact absurd digit (by decide))
    rw [value_scalar other, readScalar, ← List.cons_append, readNumber_append stops, whole, Option.map_some]
    simp only [short]
    rfl
  | string text =>
    apply Reads.of_cons (d := '"') (s := text.flatMap escapeChar ++ ['"']) (by rw [dumps, quote])
    intro fuel room rest _ _ _
    rw [value, if_pos rfl, List.append_assoc, List.singleton_append, readString_escaped]
    rfl
  | @array list each ih =>
    cases list with
    | nil =>
      apply Reads.of_nested (n := 0) (d := '[') (s := [']']) (by rw [dumps]) rfl
      intro fuel room rest _ _ _
      have read := value_array_nil fuel room rest
      rwa [dumps] at read
    | cons item list =>
      rw [List.forall_mem_cons] at each ih
      apply Reads.of_nested (d := '[') (s := dumps item ++ dumpsItems list) (by rw [dumps]) (by rw [depth])
      intro fuel room rest enough shallow _
      rw [List.length_append] at enough
      rw [depthItems, Nat.max_le] at shallow
      obtain ⟨d, s, starts, solid, other⟩ := dumps_head each.1
      have first := ih.1 fuel room (dumpsItems list ++ rest) (by omega) shallow.1 (stops_items list rest)
      have later := items_dumps each.2 ih.2 fuel room rest (by omega) shallow.2
      have unclosed : ∀ after, dumps item ++ (dumpsItems list ++ rest) ≠ ']' :: after := by
        intro after same
        rw [starts] at same
        cases same
        exact other rfl
      rw [List.append_assoc, value_array (skip_dumps each.1 _) unclosed, first]
      simp only [Option.bind_some, later]
  | @object list keys each ih =>
    cases list with
    | nil =>
      have solid : isWhite '\x7d' = false := by decide
      apply Reads.of_nested (n := 0) (d := '\x7b') (s := ['\x7d']) (by rw [dumps]) rfl
      intro fuel room rest _ _ _
      simp [value, skip_cons solid]
    | cons member list =>
      obtain ⟨key, item⟩ := member
      rw [List.forall_mem_cons] at each ih
      apply Reads.of_nested (d := '\x7b') (s := quote key ++ ':' :: (dumps item ++ dumpsMembers list)) (by rw [dumps])
        (by rw [depth])
      intro fuel room rest enough shallow _
      rw [depthMembers, Nat.max_le] at shallow
      simp only [List.length_append, List.length_cons] at enough
      have short : item.dumps.length ≤ fuel := by omega
      have first := ih.1 fuel room (dumpsMembers list ++ rest) short shallow.1 (stops_members list rest)
      have later := members_dumps each.2 ih.2 fuel room rest (by omega) shallow.2
      have start := readKey_quote key _ (skip_dumps each.1 (dumpsMembers list ++ rest))
      have quoted (s : List Char) : skip (quote key ++ s) = quote key ++ s := skip_cons (by decide) _
      simp only [List.append_assoc, List.cons_append]
      rw [value_object (quoted _) nofun, start]
      simp only [Option.bind_some, first, later, distinct_self keys]

theorem loads_dumps {room : Nat} (proper : Proper v) (shallow : depth v ≤ room) : loads room (dumps v) = some v := by
  have read := proper.reads ((dumps v).length + 1) room [] (by omega) shallow stops_nil
  have solid := skip_dumps proper []
  rw [List.append_nil] at read solid
  rw [loads, solid, read]
  rfl

end

/-- `str(n)` -/
def natural (n : Nat) : Json := .number (Nat.toDigits 10 n)

theorem toDigits_head (n : Nat) : ∃ d after, Nat.toDigits 10 n = d :: after ∧ (d = '0' → n = 0 ∧ after = []) := by
  induction n using Nat.strongRecOn with
  | ind n ih =>
    by_cases small : n < 10
    · refine ⟨Nat.digitChar n, [], Nat.toDigits_of_lt_base small, ?_⟩
      intro zero
      exact ⟨Nat.digitChar_eq_zero.mp zero, rfl⟩
    · obtain ⟨d, after, digits, head⟩ := ih (n / 10) (by omega)
      refine ⟨d, after ++ [Nat.digitChar (n % 10)], ?_, ?_⟩
      · rw [Nat.toDigits_of_base_le (by decide) (by omega), digits, List.cons_append]
      · intro zero
        have none := (head zero).1
        omega

theorem readWhole_digits {d : Char} {after : List Char} (all : ∀ c ∈ d :: after, c.isDigit = true)
    (head : d = '0' → after = []) : readWhole (d :: after) = some (d :: after, []) := by
  by_cases zero : d = '0'
  · rw [zero, head zero]
    rfl
  · have whole : digits (d :: after) = (d :: after, []) := by
      rw [digits, List.takeWhile_eq_self_iff.mpr all, List.dropWhile_eq_nil_iff.mpr all]
    rw [readWhole, whole, if_neg (List.cons_ne_nil d after)]
    intro after same
    cases same
    exact zero rfl

theorem tooLong_natural {n : Nat} (small : n < 10 ^ maxStrDigits) : tooLong (Nat.toDigits 10 n) = false := by
  have few : (Nat.toDigits 10 n).length ≤ maxStrDigits :=
    (Nat.length_toDigits_le_iff (by decide) (by decide)).mpr small
  have fewer := (List.filter_sublist (p := Char.isDigit) (l := Nat.toDigits 10 n)).length_le
  rw [tooLong, decide_eq_false (by omega), Bool.and_false]

theorem proper_natural {n : Nat} (small : n < 10 ^ maxStrDigits) : Proper (natural n) := by
  have short := tooLong_natural small
  have all : ∀ c ∈ Nat.toDigits 10 n, c.isDigit = true :=
    fun c member => Nat.isDigit_of_mem_toDigits (by decide) (by decide) member
  obtain ⟨d, after, starts, head⟩ := toDigits_head n
  rw [natural, starts]
  rw [starts] at all short
  have unsigned : readSign ['-'] (d :: after) = ([], d :: after) := by
    apply if_neg
    rw [List.mem_singleton]
    rintro rfl
    exact absurd (all '-' List.mem_cons_self) (by decide)
  refine Proper.number ?_ short
  rw [readNumber, unsigned]
  simp only [readWhole_digits all fun zero => (head zero).2, Option.bind_eq_bind, Option.bind_some]
  simp [readFraction, readExponent]

def isObject : Json → Bool
  | .object _ => true
  | _ => false

/-- The value of a key of an object. -/
def get (key : String) : Json → Option Json
  | .object members => (members.find? fun member => member.1 = key.toList).map Prod.snd
  | _ => none

theorem get_cons (name key : String) (v : Json) (members : List (List Char × Json)) :
    (object ((name.toList, v) :: members)).get key = if name = key then some v else (object members).get key := by
  simp only [get, List.find?_cons, String.toList_inj]
  by_cases same : name = key
  · rw [decide_eq_true same, if_pos same, Option.map_some]
  · rw [decide_eq_false same, if_neg same]

def truthy : Json → Bool
  | .null => false
  | .bool value => value
  | .number literal => (literal.takeWhile fun c => c ≠ 'e' ∧ c ≠ 'E').any fun c => c ≠ '-' ∧ c ≠ '0' ∧ c ≠ '.'
  | .string text => text ≠ []
  | .array items => !items.isEmpty
  | .object members => !members.isEmpty

def str (s : String) : Json := .string s.toList

def asText : Json → Option String
  | .string text => some (String.ofList text)
  | _ => none

@[simp] theorem asText_str (s : String) : asText (str s) = some s := by
  rw [str, asText, String.ofList_toList]

end Json

end Library

import NeuralTts.Library.PyLines
import NeuralTts.Speechd.Dialogue

/-! The text that `sd-neural-tts` takes out of an utterance (`_extract_ssml_text`), over the parser of
`xml.etree.ElementTree`. -/

namespace Speechd

open Library PyText

/-- The children of an `ET.Element`, each with its text, its own children and its tail; an absent text
or tail is an empty one. -/
inductive Children
  | nil
  | cons (text : Chars) (children : Children) (tail : Chars) (rest : Children)
deriving DecidableEq

structure Element where
  text : Chars
  children : Children
deriving DecidableEq

def Children.depth : Children → Nat
  | .nil => 0
  | .cons _ children _ rest => max (children.depth + 1) rest.depth

/-- What `walk` appends to `parts` for these children, where it can be called so many times in itself;
`none` is a `RecursionError`. -/
def Children.walk : Children → Nat → Option (List Chars)
  | .nil, _ => some []
  | .cons .., 0 => none
  | .cons text children tail rest, room + 1 => do
    let inside ← children.walk room
    let others ← rest.walk (room + 1)
    return (if text = [] then [] else [text]) ++ inside ++ (if tail = [] then [] else [tail]) ++ others

def Element.walk (elem : Element) : Nat → Option (List Chars)
  | 0 => none
  | room + 1 => do
    let inside ← elem.children.walk room
    return (if elem.text = [] then [] else [elem.text]) ++ inside

/-- What is left after a match of `<[^>]+>` at the start of the text. -/
def tagAt : Chars → Option Chars
  | '<' :: c :: rest =>
    if c = '>' then none
    else
      match rest.dropWhile (· ≠ '>') with
      | '>' :: after => some after
      | _ => none
  | _ => none

theorem shape_of_tagAt {text after : Chars} (tag : tagAt text = some after) :
    ∃ c rest, text = '<' :: c :: rest ∧ c ≠ '>' ∧ '>' :: after <:+ rest := by
  unfold tagAt at tag
  split at tag
  · rename_i c rest
    split at tag
    · cases tag
    · rename_i first
      split at tag
      · rename_i left
        cases tag
        exact ⟨c, rest, rfl, first, left ▸ List.dropWhile_suffix _⟩
      · cases tag
  · cases tag

theorem length_of_tagAt {text after : Chars} (tag : tagAt text = some after) : after.length < text.length := by
  obtain ⟨c, rest, rfl, -, suffix⟩ := shape_of_tagAt tag
  have size := suffix.length_le
  simp only [List.length_cons] at size ⊢
  omega

/-- `re.sub(r"<[^>]+>", "", text)` -/
def stripTags (text : Chars) : Chars :=
  match _match : tagAt text with
  | some after => stripTags after
  | none =>
    match text with
    | [] => []
    | c :: rest => c :: stripTags rest
termination_by text.length
decreasing_by
  · exact length_of_tagAt _match
  · exact Nat.lt_succ_self _

/-- A match of `^\s*<` -/
def looksLikeXml (body : Chars) : Bool := ['<'].isPrefixOf (lstrip body)

/-- What is given to the parser. -/
def payload (body : Chars) : Chars :=
  if "<speak".toList.isPrefixOf (lstrip body) then body else "<speak>".toList ++ body ++ "</speak>".toList

/-- `ET.fromstring`, with `none` for a `ParseError`, and how many calls of `walk` Python has room for in one
another. -/
structure Reader where
  fromstring : Chars → Option Element
  room : Nat

def extractSsmlText (reader : Reader) (body : Chars) : Option Chars :=
  if looksLikeXml body then
    match reader.fromstring (payload body) with
    | some root => (root.walk reader.room).map List.flatten
    | none => some (stripTags body)
  else some body

/-- Character data as it stands: no markup begins in it, and no line ends are to be normalized. -/
structure Data where
  chars : Chars
  plain : ∀ c ∈ chars, c ≠ '<' ∧ c ≠ '&' ∧ c ≠ '\r'

structure Name where
  chars : Chars
  filled : chars ≠ []
  letters : ∀ c ∈ chars, c.isAlpha = true

structure Attribute where
  name : Name
  value : Chars
  plain : ∀ c ∈ value, c ≠ '<' ∧ c ≠ '>' ∧ c ≠ '&' ∧ c ≠ '"'

/-- Elements one after another, each with the data after it: with content of its own, or self-closing. -/
inductive Markup
  | nil
  | element (name : Name) (attributes : List Attribute) (text : Data) (inner : Markup) (tail : Data) (rest : Markup)
  | empty (name : Name) (attributes : List Attribute) (tail : Data) (rest : Markup)

def Attribute.render (a : Attribute) : Chars := ' ' :: a.name.chars ++ "=\"".toList ++ a.value ++ ['"']

def tag (inside : Chars) : Chars := '<' :: inside ++ ['>']

def startTag (name : Name) (attributes : List Attribute) : Chars :=
  name.chars ++ attributes.flatMap Attribute.render

namespace Markup

def render : Markup → Chars
  | nil => []
  | element name attributes text inner tail rest =>
    tag (startTag name attributes) ++ text.chars ++ inner.render ++ tag ('/' :: name.chars) ++ tail.chars ++ rest.render
  | empty name attributes tail rest => tag (startTag name attributes ++ ['/']) ++ tail.chars ++ rest.render

def data : Markup → Chars
  | nil => []
  | element _ _ text inner tail rest => text.chars ++ inner.data ++ tail.chars ++ rest.data
  | empty _ _ tail rest => tail.chars ++ rest.data

def depth : Markup → Nat
  | nil => 0
  | element _ _ _ inner _ rest => max (inner.depth + 1) rest.depth
  | empty _ _ _ rest => max 1 rest.depth

/-- The tree that a parser makes of it. -/
def children : Markup → Children
  | nil => .nil
  | element _ _ text inner tail rest => .cons text.chars inner.children tail.chars rest.children
  | empty _ _ tail rest => .cons [] .nil tail.chars rest.children

def root (before : Data) : Markup → Option Element
  | element _ _ text inner tail nil =>
    if before.chars.all isSpace && tail.chars.all isSpace then some ⟨text.chars, inner.children⟩ else none
  | empty _ _ tail nil => if before.chars.all isSpace && tail.chars.all isSpace then some ⟨[], .nil⟩ else none
  | _ => none

end Markup

def TagFree (text : Chars) : Prop := ∀ before after, text = before ++ after → tagAt after = none

theorem stripTags_of_some {text after : Chars} (tag : tagAt text = some after) : stripTags text = stripTags after := by
  rw [stripTags]
  split
  · rename_i after' same
    cases tag.symm.trans same
    rfl
  · rename_i none
    cases tag.symm.trans none

theorem stripTags_nil : stripTags [] = [] := by
  rw [stripTags]
  rfl

theorem stripTags_cons {c : Char} {rest : Chars} (none : tagAt (c :: rest) = none) :
    stripTags (c :: rest) = c :: stripTags rest := by
  rw [stripTags]
  split
  · rename_i some
    cases none.symm.trans some
  · rfl

theorem tagAt_of_ne {c : Char} (rest : Chars) (other : c ≠ '<') : tagAt (c :: rest) = none := by
  unfold tagAt
  split
  · rename_i same
    exact absurd (List.cons.inj same).1 other
  · rfl

theorem stripTags_sublist (text : Chars) : (stripTags text).Sublist text := by
  induction text using stripTags.induct with
  | case1 text after tag ih =>
    obtain ⟨c, rest, rfl, -, suffix⟩ := shape_of_tagAt tag
    rw [stripTags_of_some tag]
    have inside := ih.trans ((List.sublist_cons_self '>' after).trans suffix.sublist)
    exact (inside.cons c).cons '<'
  | case2 =>
    rw [stripTags_nil]
  | case3 c rest none ih =>
    rw [stripTags_cons none]
    exact ih.cons_cons c

theorem tagAt_of_notMem {rest : Chars} (unclosed : '>' ∉ rest.drop 1) : tagAt ('<' :: rest) = none := by
  cases found : tagAt ('<' :: rest) with
  | none => rfl
  | some after =>
    obtain ⟨c, more, same, -, suffix⟩ := shape_of_tagAt found
    obtain ⟨-, rfl⟩ := List.cons.inj same
    exact absurd (suffix.subset List.mem_cons_self) unclosed

theorem tagAt_none_cases {rest : Chars} (none : tagAt ('<' :: rest) = none) :
    (∃ more, rest = '>' :: more) ∨ '>' ∉ rest := by
  cases rest with
  | nil => exact .inr List.not_mem_nil
  | cons c more =>
    by_cases first : c = '>'
    · exact .inl ⟨more, by rw [first]⟩
    · right
      intro member
      rw [tagAt, if_neg first] at none
      split at none
      · cases none
      · rename_i other
        have inside : '>' ∈ more := (List.mem_cons.mp member).resolve_left (Ne.symm first)
        obtain ⟨after, left⟩ : ∃ after, more.dropWhile (· ≠ '>') = '>' :: after := by
          cases left : more.dropWhile (· ≠ '>') with
          | nil => simpa using List.dropWhile_eq_nil_iff.mp left '>' inside
          | cons d after =>
            have head := @List.head_dropWhile_not _ (· ≠ '>') more (by rw [left]; exact List.cons_ne_nil d after)
            simp only [left, List.head_cons, decide_eq_false_iff_not, not_not] at head
            exact ⟨after, by rw [head]⟩
        exact other after left

theorem tagFree_stripTags (text : Chars) : TagFree (stripTags text) := by
  induction text using stripTags.induct with
  | case1 text after tag ih =>
    rw [stripTags_of_some tag]
    exact ih
  | case2 =>
    intro before after same
    rw [stripTags_nil] at same
    rw [(List.append_eq_nil_iff.mp same.symm).2]
    rfl
  | case3 c rest none ih =>
    rw [stripTags_cons none]
    intro before after same
    cases before with
    | cons d before => exact ih before after (List.cons.inj same).2
    | nil =>
      rw [← List.nil_append after, ← same]
      by_cases opens : c = '<'
      · subst opens
        rcases tagAt_none_cases none with ⟨more, rfl⟩ | unclosed
        · rw [stripTags_cons (tagAt_of_ne more (by decide))]
          rfl
        · apply tagAt_of_notMem
          exact fun member => unclosed ((stripTags_sublist rest).subset (List.mem_of_mem_drop member))
      · exact tagAt_of_ne _ opens

theorem TagFree.stripTags {text : Chars} (free : TagFree text) : stripTags text = text := by
  induction text with
  | nil => exact stripTags_nil
  | cons c rest ih =>
    rw [stripTags_cons (free [] (c :: rest) rfl), ih]
    intro before after same
    exact free (c :: before) after (by rw [same, List.cons_append])

/-- What is left of a text, which is never more than it had, has no tags to drop. -/
theorem stripTags_cleans (text : Chars) : TagFree (stripTags text) ∧ (stripTags text).Sublist text ∧
    stripTags (stripTags text) = stripTags text :=
  ⟨tagFree_stripTags text, stripTags_sublist text, (tagFree_stripTags text).stripTags⟩

end Speechd

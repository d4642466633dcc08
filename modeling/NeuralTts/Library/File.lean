import Mathlib.Data.List.Basic

/-! An open file: its content and the position at which the next write goes. -/

namespace Library

universe u

structure File (β : Type u) where
  content : List β
  position : Nat
  /-- Every write goes to the end: a file opened to append, or a pipe. -/
  appends : Bool
  seekable : Bool

namespace File

variable {β : Type u}

def offset (f : File β) : Nat := if f.appends then f.content.length else f.position

def seek (position : Nat) (f : File β) : File β := { f with position := position }

/-- The content up to `start`, past the end of which a gap is filled. -/
def upTo (gap : β) (content : List β) (start : Nat) : List β :=
  content.take start ++ List.replicate (start - content.length) gap

def overlay (gap : β) (content : List β) (start : Nat) (items : List β) : List β :=
  upTo gap content start ++ items ++ content.drop (start + items.length)

/-- To write nothing changes nothing, even past the end. -/
def write (gap : β) (items : List β) (f : File β) : File β :=
  match items with
  | [] => f
  | _ :: _ => { f with
      content := overlay gap f.content f.offset items
      position := f.offset + items.length }

variable {gap : β} {f : File β} {content front old new rest items more : List β} {start : Nat}

@[simp] theorem length_upTo : (upTo gap content start).length = start := by
  simp only [upTo, List.length_append, List.length_take, List.length_replicate]
  omega

theorem upTo_of_le (inside : start ≤ content.length) : upTo gap content start = content.take start := by
  rw [upTo, Nat.sub_eq_zero_of_le inside, List.replicate_zero, List.append_nil]

theorem length_overlay :
    (overlay gap content start items).length = max content.length (start + items.length) := by
  simp only [overlay, List.length_append, length_upTo, List.length_drop]
  omega

theorem overlay_same_length (same : old.length = new.length) :
    overlay gap (front ++ old ++ rest) front.length new = front ++ new ++ rest := by
  have inside : front.length ≤ (front ++ old ++ rest).length := by
    simp only [List.length_append]
    omega
  have after : (front ++ old ++ rest).drop (front.length + new.length) = rest := by
    rw [← same, ← List.length_append, List.drop_left]
  rw [overlay, upTo_of_le inside, after, List.append_assoc front old rest, List.take_left]

theorem overlay_whole (covered : content.length ≤ items.length) : overlay gap content 0 items = items := by
  rw [overlay, upTo_of_le (Nat.zero_le _), Nat.zero_add, List.drop_eq_nil_of_le covered, List.append_nil]
  rfl

theorem overlay_overlay :
    overlay gap (overlay gap content start items) (start + items.length) more =
      overlay gap content start (items ++ more) := by
  have reach : (upTo gap content start ++ items).length = start + items.length := by simp
  have first : upTo gap (overlay gap content start items) (start + items.length) =
      upTo gap content start ++ items := by
    rw [upTo_of_le (by rw [length_overlay]; omega), overlay, ← reach, List.take_left]
  have last : (overlay gap content start items).drop (start + items.length + more.length) =
      content.drop (start + (items ++ more).length) := by
    rw [overlay, ← List.drop_drop, ← reach, List.drop_left, reach, List.drop_drop, List.length_append, Nat.add_assoc]
  rw [overlay, first, last, overlay, List.append_assoc _ items more]

@[simp] theorem write_nil : f.write gap [] = f := rfl

theorem write_of_ne_nil (some_item : items ≠ []) :
    f.write gap items = { f with
      content := overlay gap f.content f.offset items
      position := f.offset + items.length } := by
  cases items with
  | nil => exact absurd rfl some_item
  | cons item items => rfl

@[simp] theorem write_appends : (f.write gap items).appends = f.appends := by cases items <;> rfl

@[simp] theorem write_seekable : (f.write gap items).seekable = f.seekable := by cases items <;> rfl

theorem offset_write : (f.write gap items).offset = f.offset + items.length := by
  cases items with
  | nil => rfl
  | cons item items =>
    rw [write_of_ne_nil (List.cons_ne_nil item items)]
    unfold offset
    cases f.appends with
    | true =>
      simp only [↓reduceIte, length_overlay]
      omega
    | false => rfl

theorem write_write : (f.write gap items).write gap more = f.write gap (items ++ more) := by
  by_cases none : items = []
  · rw [none, write_nil, List.nil_append]
  · by_cases nothing : more = []
    · rw [nothing, write_nil, List.append_nil]
    · have both : items ++ more ≠ [] := by simp [none]
      rw [write_of_ne_nil nothing, offset_write, write_of_ne_nil both, write_of_ne_nil none, overlay_overlay,
        List.length_append, Nat.add_assoc]

theorem length_content_write (some_item : items ≠ []) :
    (f.write gap items).content.length = max f.content.length (f.offset + items.length) := by
  rw [write_of_ne_nil some_item, length_overlay]

theorem content_write_whole (some_item : items ≠ []) (start : f.offset = 0)
    (covered : f.content.length ≤ items.length) : (f.write gap items).content = items := by
  rw [write_of_ne_nil some_item, start, overlay_whole covered]

theorem content_write_middle (old : List β) (some_item : new ≠ []) (whole : f.content = front ++ old ++ rest)
    (there : f.offset = front.length) (same : old.length = new.length) :
    (f.write gap new).content = front ++ new ++ rest := by
  rw [write_of_ne_nil some_item, whole, there, overlay_same_length same]

end File

end Library

import Mathlib.Data.List.Infix
import NeuralTts.Cloning.VoiceScan
import NeuralTts.Daemon.Fnmatch

/-! The patterns that the providers sweep their caches on disk by. -/

namespace Cloning

open Daemon

/-- The matching of `glob`, which raises for some patterns. -/
abbrev Globbing := Text → Option (Text → Bool)

/-- `Path.glob` in one directory, for a pattern with a star in it. -/
def pathGlob : Globbing := fun pattern =>
  if ['*', '*'] <:+: pattern then none else some (Glob.accepts (Glob.read pattern))

theorem pathGlob_eq_some {pattern : Text} {hits : Text → Bool} (globbed : pathGlob pattern = some hits) :
    hits = Glob.accepts (Glob.read pattern) := by
  unfold pathGlob at globbed
  split at globbed
  · cases globbed
  · exact (Option.some.inj globbed).symm

/-- As a pattern, `pattern` matches the text or a part of it that ends before a separator. -/
def Claims (sep : Char) (pattern text : Text) : Prop :=
  ∃ s, Glob.accepts (Glob.read pattern) s = true ∧ (s = text ∨ s ++ [sep] <+: text)

variable {sep : Char} {pattern text body suffix : Text}

theorem accepts_iff_claims (pattern text : Text) (literal : Glob.Literal (sep :: suffix))
    (closed : ']' ∉ sep :: suffix) (last : sep ∉ body) :
    Glob.accepts (Glob.read (pattern ++ sep :: '*' :: suffix)) (text ++ sep :: (body ++ suffix)) = true ↔
      Claims sep pattern text := by
  rw [Glob.accepts_star_between literal closed]
  constructor
  · rintro ⟨s, x, same, matched⟩
    refine ⟨s, matched, ?_⟩
    have whole : text ++ sep :: body ++ suffix = s ++ sep :: x ++ suffix := by simpa using same
    have stems : text ++ sep :: body = s ++ sep :: x := List.append_cancel_right whole
    rcases List.append_eq_append_iff.mp stems with ⟨between, rfl, rest⟩ | ⟨between, rfl, rest⟩
    · cases between with
      | nil => exact .inl (List.append_nil _)
      | cons c between =>
        obtain ⟨-, rfl⟩ := List.cons.inj rest
        exact absurd (List.mem_append_right _ List.mem_cons_self) last
    · cases between with
      | nil => exact .inl (List.append_nil _).symm
      | cons c between =>
        obtain ⟨rfl, -⟩ := List.cons.inj rest
        exact .inr ⟨between, by simp⟩
  · rintro ⟨s, matched, rfl | ⟨rest, rfl⟩⟩
    · exact ⟨s, body, rfl, matched⟩
    · exact ⟨s, rest ++ sep :: body, by simp, matched⟩

theorem claims_literal (literal : Glob.Literal pattern) :
    Claims sep pattern text ↔ pattern = text ∨ pattern ++ [sep] <+: text := by
  simp only [Claims, Glob.read_literal literal, Glob.accepts_literal, exists_eq_left]

end Cloning

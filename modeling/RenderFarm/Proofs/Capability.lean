import RenderFarm.Capability
import RenderFarm.Proofs.Case
import RenderFarm.Proofs.Text

/-!
Names looked up in a list of the backend. A name that is written in full is found wherever it stands, before any name
that only has the text in it; and a name that was found is found again under its own spelling, at the same place.
-/

namespace RenderFarm

/-- A candidate is the name that was asked for, up to letter case and to blanks around what was asked for. -/
def Named (c value : String) : Prop :=
  Text.lower c = Text.lower (Text.trim value)

/-- A candidate has what was asked for in it, up to letter case and to blanks around what was asked for. -/
def Mentions (c value : String) : Prop :=
  (Text.lower (Text.trim value)).toList <:+: (Text.lower c).toList

/-- The candidate at a place of a list is the one to choose: the first that is the name, or the first that has it in it
where none is the name. -/
inductive Best (value : String) (before : List String) (c : String) (after : List String) : Prop
  | whole (named : Named c value) (first : ∀ d ∈ before, ¬ Named d value)
  | part (mentions : Mentions c value) (first : ∀ d ∈ before, ¬ Mentions d value)
    (unnamed : ∀ d ∈ before ++ c :: after, ¬ Named d value)

variable {value c d : String} {candidates before after : List String}

theorem Named.mentions (named : Named c value) : Mentions c value := by
  rw [Mentions, ← named]

theorem lower_trim_eq_empty_iff : (Text.lower (Text.trim value)).isEmpty ↔ ∀ ch ∈ value.toList, Chars.isBlank ch := by
  rw [String.isEmpty_iff, ← String.toList_eq_nil_iff, Text.lower, Text.trim, String.toList_ofList, String.toList_ofList,
    Chars.lower_eq_nil_iff, Chars.trim_eq_nil_iff]

/-- Two searches, of which the second counts where the first finds nothing. -/
theorem matchName?_eq (value : String) (candidates : List String) : matchName? value candidates =
    if (Text.lower (Text.trim value)).isEmpty then none
    else (candidates.find? fun c => Text.lower c == Text.lower (Text.trim value)).or
      (candidates.find? fun c => Text.contains (Text.lower c) (Text.lower (Text.trim value))) := by
  unfold matchName?
  dsimp only
  split
  · rfl
  · cases candidates.find? fun c => Text.lower c == Text.lower (Text.trim value) <;> rfl

theorem find?_named_eq_some : (candidates.find? fun c => Text.lower c == Text.lower (Text.trim value)) = some c ↔
    Named c value ∧ ∃ before after, candidates = before ++ c :: after ∧ ∀ d ∈ before, ¬ Named d value := by
  simp only [List.find?_eq_some_iff_append, beq_iff_eq, Bool.not_eq_true', beq_eq_false_iff_ne, Named, ne_eq]

theorem find?_named_eq_none : (candidates.find? fun c => Text.lower c == Text.lower (Text.trim value)) = none ↔
    ∀ d ∈ candidates, ¬ Named d value := by
  simp only [List.find?_eq_none, beq_iff_eq, Named]

theorem find?_mentions_eq_some :
    (candidates.find? fun c => Text.contains (Text.lower c) (Text.lower (Text.trim value))) = some c ↔
      Mentions c value ∧ ∃ before after, candidates = before ++ c :: after ∧ ∀ d ∈ before, ¬ Mentions d value := by
  simp only [List.find?_eq_some_iff_append, Bool.not_eq_true', Bool.eq_false_iff, ne_eq, Text.contains,
    Chars.contains_iff, Mentions]

theorem find?_mentions_eq_none :
    (candidates.find? fun c => Text.contains (Text.lower c) (Text.lower (Text.trim value))) = none ↔
      ∀ d ∈ candidates, ¬ Mentions d value := by
  simp only [List.find?_eq_none, Text.contains, Chars.contains_iff, Mentions]

/-- What is found is the best candidate, at its place. -/
theorem matchName?_eq_some_iff : matchName? value candidates = some c ↔
    ¬ (∀ ch ∈ value.toList, Chars.isBlank ch) ∧
      ∃ before after, candidates = before ++ c :: after ∧ Best value before c after := by
  rw [matchName?_eq, ← lower_trim_eq_empty_iff]
  split
  · rename_i blank
    simp [blank]
  · rename_i written
    rw [Option.or_eq_some_iff, find?_named_eq_some, find?_named_eq_none, find?_mentions_eq_some]
    constructor
    · rintro (⟨named, before, after, split, first⟩ | ⟨unnamed, mentions, before, after, split, first⟩)
      · exact ⟨written, before, after, split, .whole named first⟩
      · exact ⟨written, before, after, split, .part mentions first (split ▸ unnamed)⟩
    · rintro ⟨-, before, after, split, ⟨named, first⟩ | ⟨mentions, first, unnamed⟩⟩
      · exact .inl ⟨named, before, after, split, first⟩
      · exact .inr ⟨split ▸ unnamed, mentions, before, after, split, first⟩

theorem matchName?_eq_none_iff : matchName? value candidates = none ↔
    (∀ ch ∈ value.toList, Chars.isBlank ch) ∨ ∀ d ∈ candidates, ¬ Mentions d value := by
  rw [matchName?_eq, ← lower_trim_eq_empty_iff]
  split
  · rename_i blank
    simp [blank]
  · rename_i written
    rw [Option.or_eq_none_iff, find?_named_eq_none, find?_mentions_eq_none]
    constructor
    · rintro ⟨-, unmentioned⟩
      exact .inr unmentioned
    · rintro (blank | unmentioned)
      · exact absurd blank written
      · exact ⟨fun d mem named => unmentioned d mem named.mentions, unmentioned⟩

/-- The best candidate has what was asked for in it. -/
theorem Best.mentions (best : Best value before c after) : Mentions c value := by
  obtain ⟨named, -⟩ | ⟨mentions, -, -⟩ := best
  · exact named.mentions
  · exact mentions

/-- The best candidate is the best one for its own name: one before it that is the same up to letter case would have
been found in its stead. -/
theorem Best.again (best : Best value before c after) (trimmed : Text.trim c = c) : Best c before c after := by
  have own : Named c c := by rw [Named, trimmed]
  refine .whole own fun d mem named => ?_
  rw [Named, trimmed] at named
  obtain ⟨whole, first⟩ | ⟨mentions, first, -⟩ := best
  · exact first d mem (named.trans whole)
  · refine first d mem ?_
    rwa [Mentions, named]

/-- A candidate that has something in it is not blank. -/
theorem not_blank_of_mentions (written : ¬ ∀ ch ∈ value.toList, Chars.isBlank ch) (mentions : Mentions c value)
    (trimmed : Text.trim c = c) : ¬ ∀ ch ∈ c.toList, Chars.isBlank ch := by
  rw [← lower_trim_eq_empty_iff, String.isEmpty_iff, ← String.toList_eq_nil_iff] at written ⊢
  rw [trimmed]
  intro nothing
  rw [Mentions, nothing, List.infix_nil] at mentions
  exact written mentions

theorem matchName?_again (trimmed : ∀ c ∈ candidates, Text.trim c = c) (found : matchName? value candidates = some c) :
    matchName? c candidates = some c := by
  obtain ⟨written, before, after, split, best⟩ := matchName?_eq_some_iff.mp found
  have own := trimmed c (by simp [split])
  exact matchName?_eq_some_iff.mpr
    ⟨not_blank_of_mentions written best.mentions own, before, after, split, best.again own⟩

end RenderFarm

import Mathlib.Data.Nat.Digits.Defs
import RenderFarm.Naming.Filename
import RenderFarm.Output
import RenderFarm.Proofs.Digits
import RenderFarm.Proofs.Files.Components
import RenderFarm.Proofs.Text
import RenderFarm.Proofs.Trimming

/-!
What names of output files are made of. Neither the name of a folder nor that of a file holds a slash, and an
extension holds no dot, so a name is one component of a path and its extension is what follows the last dot.
-/

namespace RenderFarm

/-! ## Digits -/

theorem slash_not_mem_dateText (d : Date) : '/' ∉ d.text.toList := by
  have plain : ∀ width n, '/' ∉ (padded width n).toList := not_mem_padded (by decide)
  have year : '/' ∉ (yearText d.year).toList := by
    unfold yearText
    split
    · exact plain _ _
    · split <;> simp [plain]
  unfold Date.text
  simp [year, plain]

/-- An integer is written in digits, and a dash when it is negative. -/
theorem mem_intRepr {n : Int} {c : Char} (mem : c ∈ (toString n).toList) : c = '-' ∨ c.isDigit := by
  change c ∈ (Int.repr n).toList at mem
  rw [Int.repr_eq_if] at mem
  split at mem
  · rw [Nat.toList_repr] at mem
    exact .inr (isDigit_of_mem_toDigits mem)
  · rw [String.toList_append, List.mem_append, Nat.toList_repr] at mem
    exact mem.imp (fun dash => List.mem_singleton.mp dash) isDigit_of_mem_toDigits

theorem slash_not_mem_intRepr (n : Int) : '/' ∉ (toString n).toList :=
  fun mem => (mem_intRepr mem).elim (by decide) (by decide)

theorem intRepr_ne_empty (n : Int) : toString n ≠ "" := by
  change Int.repr n ≠ ""
  rw [Int.repr_eq_if]
  split
  · exact Nat.repr_ne_empty
  · simp

/-! ## Names in paths -/

namespace Path

variable {p : Path} {s : String}

theorem slash_not_mem_of_name (mem : .name s ∈ p.components) : '/' ∉ s.toList := by
  rw [components_eq, List.mem_append] at mem
  obtain leads | mem := mem
  · exact absurd leads (name_not_mem_lead s p)
  · obtain ⟨t, among, part⟩ := List.mem_filterMap.mp mem
    obtain ⟨chars, inside, rfl⟩ := List.mem_map.mp among
    rw [← eq_of_ofPart?_eq_name part, String.toList_ofList]
    exact Chars.not_mem_of_mem_splitOn inside

theorem slash_not_mem_of_fileName? (named : p.fileName? = some s) : '/' ∉ s.toList := by
  unfold fileName? at named
  split at named
  · rename_i last
    cases named
    exact slash_not_mem_of_name (List.mem_of_getLast? last)
  · cases named

/-- A file name without an extension is its own stem; any other is its stem, a dot and its extension, which has no
dot. -/
theorem splitName_cases (s : String) :
    splitName s = (s, none) ∨
      ∃ stem ext, splitName s = (stem, some ext) ∧ s = stem ++ "." ++ ext ∧ '.' ∉ ext.toList := by
  unfold splitName
  split
  · exact .inl rfl
  · rename_i stem ext _ cut
    obtain ⟨text, plain⟩ := Chars.eq_of_cutLast? cut
    refine .inr ⟨_, _, rfl, ?_, by simpa using plain⟩
    rw [← String.toList_inj, text]
    simp
  · exact .inl rfl

/-- What follows the last dot of a name is its extension, unless nothing comes before. -/
theorem splitName_of_dot {stem ext : String} (some' : stem ≠ "") (plain : '.' ∉ ext.toList) :
    splitName (stem ++ "." ++ ext) = (stem, some ext) := by
  have cut : Chars.cutLast? ['.'] (stem ++ "." ++ ext).toList = some (stem.toList, ext.toList) := by
    have text : (stem ++ "." ++ ext).toList = stem.toList ++ '.' :: ext.toList := by simp
    rw [text, Chars.cutLast?_append plain]
  obtain ⟨c, rest, chars⟩ := List.exists_cons_of_ne_nil (fun none => some' (String.toList_eq_nil_iff.mp none))
  unfold splitName
  rw [cut, chars]
  dsimp only
  rw [← chars, String.ofList_toList, String.ofList_toList]

theorem slash_not_mem_of_stem? (named : p.stem? = some s) : '/' ∉ s.toList := by
  obtain ⟨name, file, rfl⟩ := Option.map_eq_some_iff.mp named
  have plain := slash_not_mem_of_fileName? file
  obtain whole | ⟨stem, ext, split, rfl, _⟩ := splitName_cases name
  · rwa [whole]
  · rw [split]
    simp at plain
    exact plain.1

/-- An extension holds no slash and no dot. -/
theorem not_mem_of_extension? (named : p.extension? = some s) : '/' ∉ s.toList ∧ '.' ∉ s.toList := by
  obtain ⟨name, file, ext⟩ := Option.bind_eq_some_iff.mp named
  have plain := slash_not_mem_of_fileName? file
  obtain whole | ⟨stem, ext', split, rfl, dotless⟩ := splitName_cases name
  · rw [whole] at ext
    cases ext
  · rw [split] at ext
    obtain rfl := Option.some.inj ext
    simp at plain
    exact ⟨plain.2, dotless⟩

end Path

theorem slash_not_mem_templateStem (j : Job) : '/' ∉ j.templateStem.toList := by
  unfold Job.templateStem
  cases stem : j.templatePath.bind Path.stem? with
  | none => decide
  | some s =>
    obtain ⟨path, _, named⟩ := Option.bind_eq_some_iff.mp stem
    exact Path.slash_not_mem_of_stem? named

/-! ## Names of files -/

namespace Naming

/-- Digits are not special in paths. -/
theorem isPathChar_of_isDigit {c : Char} (digit : c.isDigit) : isPathChar c = false := by
  have bounds := Chars.toNat_of_isDigit digit
  by_contra special
  simp only [isPathChar, Bool.not_eq_false, Bool.or_eq_true, beq_iff_eq] at special
  rcases special with (((((((rfl | rfl) | rfl) | rfl) | rfl) | rfl) | rfl) | rfl) | rfl <;> simp at bounds

/-- The text of a seed has at most a sign and nineteen digits. -/
theorem length_seed_le (seed : Int64) : (toString seed.toInt).length ≤ 20 := by
  have digits (n : Nat) (fits : n < 10 ^ 19) : n.repr.length ≤ 19 := Nat.repr_length n 19 (by decide) fits
  have low := seed.le_toInt
  have high := seed.toInt_lt
  change (Int.repr seed.toInt).length ≤ 20
  rw [Int.repr_eq_if]
  split
  · exact Nat.le_succ_of_le (digits seed.toInt.toNat (by omega))
  · have text := digits (-seed.toInt).toNat (by omega)
    have sign : "-".length = 1 := rfl
    rw [String.length_append]
    omega

/-- **The stem of a file name.** It is not empty, has at most the greatest length, and holds none of the characters that
are special in paths. -/
theorem render_fits (template : String) (v : Values) :
    render template v ≠ "" ∧ (render template v).length ≤ maxLength ∧
      ∀ c ∈ (render template v).toList, isPathChar c = false := by
  unfold render
  dsimp only
  split
  · refine ⟨intRepr_ne_empty _, Nat.le_trans (length_seed_le v.seed) (by decide), fun c mem => ?_⟩
    obtain rfl | digit := mem_intRepr mem
    · decide
    · exact isPathChar_of_isDigit digit
  · rename_i some
    refine ⟨fun empty => some (by simpa using empty), ?_, fun c mem => ?_⟩
    · rw [← String.length_toList, String.toList_ofList]
      exact List.length_take_le _ _
    · rw [String.toList_ofList] at mem
      -- Cutting and trimming only leave characters out.
      have kept := (Chars.trimBy_infix _ _).subset (List.mem_of_mem_take mem)
      simpa using (List.mem_filter.mp kept).2

/-- The stem of a file name is not empty and holds no slash. -/
theorem render_plain (template : String) (v : Values) :
    render template v ≠ "" ∧ '/' ∉ (render template v).toList := by
  obtain ⟨some, -, plain⟩ := render_fits template v
  exact ⟨some, fun slash => absurd (plain '/' slash) (by decide)⟩

end Naming

namespace Output

/-- The stem of an image is not empty and holds no slash. -/
theorem stem_plain (job : Job) (r : ImageRecord) : stem job r ≠ "" ∧ '/' ∉ (stem job r).toList :=
  Naming.render_plain _ _

/-- The extension of a file holds no slash and no dot. -/
theorem extension_plain (image : Path) : '/' ∉ (extension image).toList ∧ '.' ∉ (extension image).toList := by
  unfold extension
  cases named : image.extension? with
  | none => decide
  | some ext =>
    obtain ⟨slashless, dotless⟩ := Path.not_mem_of_extension? named
    simp only [Option.map_some, Option.getD_some, Text.lower, String.toList_ofList]
    exact ⟨fun mem => slashless (Chars.mem_of_mem_lower (by decide) (by decide) mem),
      fun mem => dotless (Chars.mem_of_mem_lower (by decide) (by decide) mem)⟩

end Output

end RenderFarm

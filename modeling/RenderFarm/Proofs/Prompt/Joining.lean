import Mathlib.Data.List.Basic
import RenderFarm.Compile.Pass

/-!
Joining fragments. Adding a fragment to the text so far is an associative operation, and the empty text is neutral:
whether the delimiter is put in depends on how the later text starts, and that does not change when more is added
behind it. So a list is joined part by part, and empty fragments do not count.
-/

namespace RenderFarm

namespace Prompt

/-! ## Adding a fragment -/

variable {delimiter out fragment : List Char}

theorem appendFragment_nil_left (delimiter fragment : List Char) : appendFragment delimiter [] fragment = fragment := by
  cases fragment with
  | nil => rfl
  | cons c fragment => rfl

theorem appendFragment_nil_right (delimiter out : List Char) : appendFragment delimiter out [] = out :=
  rfl

/-- Between two texts stands the delimiter, or nothing if the later one attaches. -/
theorem appendFragment_filled (filled : out ≠ []) (filled' : fragment ≠ []) :
    appendFragment delimiter out fragment =
      out ++ (if attaches fragment then [] else delimiter) ++ fragment := by
  unfold appendFragment
  rw [if_neg (by simpa using filled'), List.isEmpty_eq_false_iff.mpr filled, Bool.false_or]
  split
  · rw [List.append_nil]
  · rfl

theorem attaches_iff {s : List Char} : attaches s ↔ s.head? = some ',' ∨ s.head? = some ';' := by
  cases s with
  | nil => simp [attaches]
  | cons c s =>
    unfold attaches
    split <;> simp_all

/-- Whether a text attaches is decided by how it starts. -/
theorem attaches_append (filled : fragment ≠ []) (s : List Char) : attaches (fragment ++ s) = attaches fragment := by
  rw [Bool.eq_iff_iff, attaches_iff, attaches_iff, List.head?_append_of_ne_nil _ filled]

theorem appendFragment_assoc (delimiter a b c : List Char) :
    appendFragment delimiter (appendFragment delimiter a b) c =
      appendFragment delimiter a (appendFragment delimiter b c) := by
  by_cases a_nil : a = []
  · rw [a_nil, appendFragment_nil_left, appendFragment_nil_left]
  by_cases b_nil : b = []
  · rw [b_nil, appendFragment_nil_left, appendFragment_nil_right]
  by_cases c_nil : c = []
  · rw [c_nil, appendFragment_nil_right, appendFragment_nil_right]
  have start : attaches (b ++ ((if attaches c then [] else delimiter) ++ c)) = attaches b := attaches_append b_nil _
  rw [appendFragment_filled a_nil b_nil, appendFragment_filled b_nil c_nil,
    appendFragment_filled (by simp [a_nil]) c_nil, appendFragment_filled a_nil (by simp [b_nil])]
  simp only [List.append_assoc, start]

instance (delimiter : List Char) : Std.Associative (appendFragment delimiter) :=
  ⟨appendFragment_assoc delimiter⟩

/-! ## Joining a list -/

/-- A list is joined in two parts. -/
theorem joinChars_append (xs ys : List (List Char)) (delimiter : List Char) :
    joinChars (xs ++ ys) delimiter = appendFragment delimiter (joinChars xs delimiter) (joinChars ys delimiter) := by
  have carried : ys.foldl (appendFragment delimiter) (appendFragment delimiter (joinChars xs delimiter) []) =
      appendFragment delimiter (joinChars xs delimiter) (joinChars ys delimiter) := List.foldl_assoc
  rw [← carried, appendFragment_nil_right]
  exact List.foldl_append

theorem joinChars_cons (x : List Char) (xs : List (List Char)) (delimiter : List Char) :
    joinChars (x :: xs) delimiter = appendFragment delimiter x (joinChars xs delimiter) := by
  rw [← List.singleton_append, joinChars_append]
  exact congrArg (appendFragment delimiter · _) (appendFragment_nil_left delimiter x)

theorem joinChars_filter (xs : List (List Char)) (delimiter : List Char) :
    joinChars (xs.filter (!·.isEmpty)) delimiter = joinChars xs delimiter := by
  induction xs with
  | nil => rfl
  | cons x xs ih =>
    cases x with
    | nil => rw [List.filter_cons_of_neg (by decide), ih, joinChars_cons, appendFragment_nil_left]
    | cons c x => rw [List.filter_cons_of_pos rfl, joinChars_cons, joinChars_cons, ih]

/-- Lists that are joined each on its own, and then with one another, are joined as one list. -/
theorem joinChars_flatten (lists : List (List (List Char))) (delimiter : List Char) :
    joinChars (lists.map (joinChars · delimiter)) delimiter = joinChars lists.flatten delimiter := by
  induction lists with
  | nil => rfl
  | cons xs lists ih => rw [List.map_cons, joinChars_cons, ih, List.flatten_cons, joinChars_append]

theorem toList_join (xs : List String) (delimiter : String) :
    (join xs delimiter).toList = joinChars (xs.map String.toList) delimiter.toList :=
  String.toList_ofList

/-- Fragments are joined alike when their characters are. -/
theorem join_eq_of_chars {xs ys : List String} {delimiter : String}
    (same : joinChars (xs.map String.toList) delimiter.toList = joinChars (ys.map String.toList) delimiter.toList) :
    join xs delimiter = join ys delimiter :=
  congrArg String.ofList same

theorem toList_join_pair (x y delimiter : String) :
    (join [x, y] delimiter).toList = appendFragment delimiter.toList x.toList y.toList := by
  rw [toList_join, List.map_cons, List.map_singleton, joinChars_cons, joinChars_cons]
  rfl

theorem join_singleton (x delimiter : String) : join [x] delimiter = x := by
  rw [← String.toList_inj, toList_join, List.map_singleton, joinChars_cons]
  rfl

/-- Two fragments are joined by the delimiter, unless the second one starts with a comma or a semicolon. -/
theorem join_pair {x y : String} (filled : x ≠ "") (filled' : y ≠ "") (delimiter : String) :
    join [x, y] delimiter =
      if y.toList.head? = some ',' ∨ y.toList.head? = some ';' then x ++ y else x ++ delimiter ++ y := by
  have chars : appendFragment delimiter.toList x.toList y.toList =
      x.toList ++ (if attaches y.toList then [] else delimiter.toList) ++ y.toList :=
    appendFragment_filled (by simpa using filled) (by simpa using filled')
  rw [← String.toList_inj, toList_join_pair, chars]
  simp only [attaches_iff]
  split
  · rw [List.append_nil, String.toList_append]
  · rw [String.toList_append, String.toList_append]

theorem join_append (xs ys : List String) (delimiter : String) :
    join (xs ++ ys) delimiter = join [join xs delimiter, join ys delimiter] delimiter := by
  rw [← String.toList_inj, toList_join_pair, toList_join, toList_join, toList_join, List.map_append, joinChars_append]

theorem join_filter (xs : List String) (delimiter : String) :
    join (xs.filter (· ≠ "")) delimiter = join xs delimiter := by
  refine join_eq_of_chars ?_
  have filled : xs.filter (· ≠ "") = xs.filter ((!·.isEmpty) ∘ String.toList) :=
    List.filter_congr fun x _ => by rw [Bool.eq_iff_iff]; simp
  rw [filled, ← List.filter_map, joinChars_filter]

theorem join_flatten (lists : List (List String)) (delimiter : String) :
    join (lists.map (join · delimiter)) delimiter = join lists.flatten delimiter := by
  refine join_eq_of_chars ?_
  have chars : (lists.map (join · delimiter)).map String.toList =
      (lists.map (List.map String.toList)).map (joinChars · delimiter.toList) := by
    rw [List.map_map, List.map_map]
    exact List.map_congr_left fun xs _ => toList_join xs delimiter
  rw [chars, joinChars_flatten, List.map_flatten]

end Prompt

namespace Compile

/-- Where the sections are joined by the delimiter that joins their tokens, a prompt is one list of tokens. -/
theorem promptOf_flat {control : RunControl} {sections : List Section} {picks : List (List String)}
    (same : ∀ s ∈ sections, s.delimiter = control.delimiter) (enough : picks.length ≤ sections.length) :
    promptOf control sections picks = Prompt.clean (Prompt.join picks.flatten control.delimiter) := by
  have fragments : (picks.zip sections).map (fun pair => Prompt.join pair.1 pair.2.delimiter) =
      picks.map (Prompt.join · control.delimiter) := by
    calc (picks.zip sections).map (fun pair => Prompt.join pair.1 pair.2.delimiter)
        = ((picks.zip sections).map Prod.fst).map (Prompt.join · control.delimiter) := by
          rw [List.map_map]
          exact List.map_congr_left fun pair mem =>
            congrArg (Prompt.join pair.1) (same pair.2 (List.of_mem_zip mem).2)
      _ = picks.map (Prompt.join · control.delimiter) := by rw [List.map_fst_zip enough]
  rw [← Prompt.join_flatten, ← fragments]
  rfl

end Compile

namespace Prompt

open Compile (promptOf)

/-- **Fragments are joined part by part.** A single fragment is left as it is, and two are joined by the delimiter,
unless the second one starts with a comma or a semicolon. A list is joined like the two texts that its parts are joined
to; empty fragments may be left out or put in anywhere. So the tokens of all sections are joined as one list when the
sections are joined by the same delimiter, and so is the prompt of a template whose sections have the delimiter of the
run. -/
theorem join_part_by_part (delimiter : String) :
    (join [] delimiter = "" ∧ (∀ x, join [x] delimiter = x) ∧
      ∀ x y, x ≠ "" → y ≠ "" → join [x, y] delimiter =
        if y.toList.head? = some ',' ∨ y.toList.head? = some ';' then x ++ y else x ++ delimiter ++ y) ∧
    (∀ xs ys, join (xs ++ ys) delimiter = join [join xs delimiter, join ys delimiter] delimiter) ∧
    (∀ xs, join (xs.filter (· ≠ "")) delimiter = join xs delimiter) ∧
    (∀ xs ys, join (xs ++ "" :: ys) delimiter = join (xs ++ ys) delimiter) ∧
    (∀ draws : List (List String), join (draws.map (join · delimiter)) delimiter = join draws.flatten delimiter) ∧
    ∀ control sections picks, control.delimiter = delimiter → (∀ s ∈ sections, s.delimiter = delimiter) →
      picks.length ≤ sections.length → promptOf control sections picks = clean (join picks.flatten delimiter) := by
  refine ⟨⟨rfl, fun x => join_singleton x delimiter, fun x y filled filled' => join_pair filled filled' delimiter⟩,
    fun xs ys => join_append xs ys delimiter, fun xs => join_filter xs delimiter, fun xs ys => ?_,
    fun draws => join_flatten draws delimiter, ?_⟩
  · rw [← join_filter (xs ++ "" :: ys), ← join_filter (xs ++ ys), List.filter_append, List.filter_append,
      List.filter_cons_of_neg (by decide)]
  · rintro control sections picks rfl same enough
    exact Compile.promptOf_flat same enough

/-- A token that is empty and one that starts with a comma, in sections with the delimiter of the run. -/
theorem castle_joined_flat :
    let sections : List Section :=
      [⟨["a castle", ""], 2, 2, " ", by decide⟩, ⟨[", at night", "stormy"], 2, 2, " ", by decide⟩]
    (∀ s ∈ sections, s.delimiter = " ") ∧
      promptOf {} sections [["a castle", ""], [", at night", "stormy"]] = "a castle, at night stormy" ∧
      join ["a castle", "stormy"] " " = "a castle stormy" := by
  intro sections
  have same : ∀ s ∈ sections, s.delimiter = " " := by decide
  obtain ⟨⟨-, -, pair⟩, -, -, -, -, flat⟩ := join_part_by_part " "
  refine ⟨same, ?_, ?_⟩
  · rw [flat {} sections _ rfl same (by decide)]
    decide +kernel
  · rw [pair "a castle" "stormy" (by decide) (by decide)]
    decide +kernel

end Prompt

end RenderFarm

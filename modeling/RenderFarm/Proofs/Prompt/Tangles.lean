import RenderFarm.Proofs.Prompt.Tidy
import RenderFarm.Proofs.Replacement

/-!
What one pass of tidying leaves. A prompt is looked at as its parts between commas: parts that are empty or a single
blank are merged away, though not all of a longer run; then the other parts lose one "and" at their ends, and one "and"
after each "by". So there are eight tangles, of which a pass leaves a fault, and it leaves one of no other text.
-/

namespace RenderFarm.Prompt

open Chars (splitOn replace closed withoutSuffix Merges Merged)

variable {s t : List Char}

/-! ## The parts between commas -/

def dangling : List Char := [' ', 'a', 'n', 'd']

theorem dangling_ne_nil : dangling ≠ [] := by decide

def byWord : List Char := ['b', 'y']

def andWord : List Char := ['a', 'n', 'd']

/-- Drops a gap between commas, and one of the commas with it. -/
def mergeGap (gap s : List Char) : List Char :=
  replace (',' :: closed ',' [gap]) [','] s

/-- Drops "and" before commas. -/
def undangled (s : List Char) : List Char :=
  replace (dangling ++ [',']) [','] s

/-- Drops "and" after "by" where both are words with blanks around them. -/
def unlinked (s : List Char) : List Char :=
  replace (' ' :: closed ' ' [byWord, andWord]) (' ' :: closed ' ' [byWord]) s

theorem faults_eq : faults = [(',' :: closed ',' [[]], [',']), (',' :: closed ',' [[' ']], [',']),
    (dangling ++ [','], [',']), (' ' :: closed ' ' [byWord, andWord], ' ' :: closed ' ' [byWord])] := by
  decide +kernel

theorem sweep_eq (s : List Char) : sweep faults s = unlinked (undangled (mergeGap [' '] (mergeGap [] s))) := by
  rw [faults_eq]
  rfl

theorem merged_mergeGap {gap : List Char} (plain : ',' ∉ gap) (s : List Char) :
    Merged [gap] [] (splitOn ',' s) (splitOn ',' (mergeGap gap s)) :=
  Chars.merged_replace (by simpa using plain) (by simp) s

theorem splitOn_undangled (s : List Char) : splitOn ',' (undangled s) = Chars.stripped dangling (splitOn ',' s) :=
  Chars.splitOn_replace_followed dangling_ne_nil (by decide) s

theorem splitOn_unlinked (s : List Char) : splitOn ',' (unlinked s) = (splitOn ',' s).map unlinked :=
  Chars.splitOn_replace_within (List.cons_ne_nil _ _) (by decide) (by decide) s

theorem merged_unlinked (s : List Char) :
    Merged [byWord, andWord] [byWord] (splitOn ' ' s) (splitOn ' ' (unlinked s)) :=
  Chars.merged_replace (by decide) (by decide) s

/-- What becomes of a part that a comma follows. -/
def tidied (s : List Char) : List Char :=
  unlinked (withoutSuffix dangling s)

/-- What becomes of the parts of a text. Those between the first and the last one are merged, then all but the last lose
an "and" at their ends. -/
inductive Sweeps : List (List Char) → List (List Char) → Prop
  | one (part : List Char) : Sweeps [part] [unlinked part]
  | between (first last : List Char) {parts merged left : List (List Char)} (merges : Merges [[]] [] parts merged)
      (merges' : Merges [[' ']] [] merged left) :
      Sweeps (first :: (parts ++ [last])) ((first :: left).map tidied ++ [unlinked last])

theorem sweeps_of_merged {parts merged left : List (List Char)} (doubled : Merged [[]] [] parts merged)
    (close : Merged [[' ']] [] merged left) : Sweeps parts ((Chars.stripped dangling left).map unlinked) := by
  cases doubled with
  | one part =>
    generalize single : [part] = merged at close
    cases close with
    | one part' =>
      obtain rfl := List.singleton_inj.mp single
      exact .one part
    | between first last merges => simp at single
  | @between first last inner inner' merges =>
    generalize between : first :: (inner' ++ [last]) = merged at close
    cases close with
    | one part' => simp at between
    | @between first' last' inner'' left merges' =>
      obtain ⟨rfl, rfl, rfl⟩ : first = first' ∧ inner' = inner'' ∧ last = last' := by simpa using between
      have ends := Chars.stripped_concat dangling (first :: left) last
      rw [List.cons_append] at ends
      rw [ends, List.map_append, List.map_map]
      exact .between first last merges merges'

theorem sweeps_sweep (s : List Char) : Sweeps (splitOn ',' s) (splitOn ',' (sweep faults s)) := by
  rw [sweep_eq, splitOn_unlinked, splitOn_undangled]
  exact sweeps_of_merged (merged_mergeGap (by decide) s) (merged_mergeGap (by decide) _)

/-! ## Tangles -/

/-- Faults of which one pass leaves another one. -/
def tangles : List String :=
  [",,,", ", , ,", ", ,, ,", ", and,", ",  and,", " and and,", " by and by and ", " by and and "]

def Tangled (s : List Char) : Prop :=
  ∃ tangle ∈ tangles, tangle.toList <:+: s

/-- What stands between the commas of a text. -/
def gaps (s : List Char) : List (List Char) :=
  (splitOn ',' s).tail.dropLast

/-- Gaps next to each other stand in a text with commas around them. -/
theorem gaps_infix_iff {ws : List (List Char)} (filled : ws ≠ []) (plain : ∀ w ∈ ws, ',' ∉ w) :
    ',' :: closed ',' ws <:+: s ↔ ws <:+: gaps s :=
  Chars.fenced_infix_iff filled plain s

theorem gap_infix_iff {gap : List Char} (plain : ',' ∉ gap) : ',' :: closed ',' [gap] <:+: s ↔ gap ∈ gaps s := by
  rw [gaps_infix_iff (List.cons_ne_nil _ _) (by simpa using plain), List.singleton_infix_iff]

theorem tangled_iff : Tangled s ↔
    [[], []] <:+: gaps s ∨ [[' '], [' ']] <:+: gaps s ∨ [[' '], [], [' ']] <:+: gaps s ∨ dangling ∈ gaps s ∨
      ' ' :: dangling ∈ gaps s ∨ (∃ part ∈ (splitOn ',' s).dropLast, dangling ++ dangling <:+ part) ∨
      (∃ part ∈ splitOn ',' s, " by and by and ".toList <:+: part) ∨
      ∃ part ∈ splitOn ',' s, " by and and ".toList <:+: part := by
  have texts : tangles.map String.toList = [',' :: closed ',' [[], []], ',' :: closed ',' [[' '], [' ']],
      ',' :: closed ',' [[' '], [], [' ']], ',' :: closed ',' [dangling], ',' :: closed ',' [' ' :: dangling],
      dangling ++ dangling ++ [','], " by and by and ".toList, " by and and ".toList] := by
    decide +kernel
  have listed : Tangled s ↔ ∃ tangle ∈ tangles.map String.toList, tangle <:+: s := by
    simp [Tangled]
  have words : ',' ∉ " by and by and ".toList ∧ ',' ∉ " by and and ".toList := by decide +kernel
  rw [listed, texts, ← gaps_infix_iff (by simp) (by decide), ← gaps_infix_iff (by simp) (by decide),
    ← gaps_infix_iff (by simp) (by decide), ← gap_infix_iff (by decide), ← gap_infix_iff (by decide),
    ← Chars.followed_infix_iff (by decide), ← Chars.infix_iff_part words.1, ← Chars.infix_iff_part words.2]
  simp only [List.mem_cons, List.not_mem_nil, or_false, exists_eq_or_imp, exists_eq_left]

theorem faulty_iff : (∃ fault ∈ faults, fault.1 <:+: s) ↔
    [] ∈ gaps s ∨ [' '] ∈ gaps s ∨ (∃ part ∈ (splitOn ',' s).dropLast, dangling <:+ part) ∨
      ∃ part ∈ splitOn ',' s, ' ' :: closed ' ' [byWord, andWord] <:+: part := by
  rw [faults_eq, ← gap_infix_iff (by decide), ← gap_infix_iff (by decide), ← Chars.followed_infix_iff (by decide),
    ← Chars.infix_iff_part (by decide)]
  simp only [List.mem_cons, List.not_mem_nil, or_false, exists_eq_or_imp, exists_eq_left]

/-! ## What becomes of a part -/

/-- After "by" a second "and" is left, and so is a second "by and". -/
theorem linked_unlinked_iff : ' ' :: closed ' ' [byWord, andWord] <:+: unlinked s ↔
    " by and by and ".toList <:+: s ∨ " by and and ".toList <:+: s := by
  have texts : " by and by and ".toList = ' ' :: closed ' ' [byWord, andWord, byWord, andWord] ∧
      " by and and ".toList = ' ' :: closed ' ' [byWord, andWord, andWord] := by decide +kernel
  have merged := merged_unlinked s
  rw [texts.1, texts.2, Chars.fenced_infix_iff (by simp) (by decide), Chars.fenced_infix_iff (by simp) (by decide),
    Chars.fenced_infix_iff (by simp) (by decide)]
  generalize splitOn ' ' s = words at merged ⊢
  generalize splitOn ' ' (unlinked s) = words' at merged ⊢
  cases merged with
  | one word => simp
  | between first last merges =>
    simp only [List.tail_cons, List.dropLast_concat]
    exact merges.pair_again (by decide)

/-- A part is left with a content without "by" as a word only when it is that content. -/
theorem unlinked_eq_iff (other : ¬ ' ' :: closed ' ' [byWord] <:+: t) : unlinked s = t ↔ s = t := by
  have none {u : List Char} (without : ¬ ' ' :: closed ' ' [byWord] <:+: u) :
      ¬ ' ' :: closed ' ' [byWord, andWord] <:+: u :=
    fun occurs => without (List.IsInfix.trans ⟨[], andWord ++ [' '], by decide⟩ occurs)
  constructor
  · rintro rfl
    by_cases occurs : ' ' :: closed ' ' [byWord, andWord] <:+: s
    · exact absurd (Chars.infix_replace (List.cons_ne_nil _ _) occurs) other
    · exact (Chars.replace_of_absent occurs).symm
  · rintro rfl
    exact Chars.replace_of_absent (none other)

theorem dangling_unlinked_iff : dangling <:+ unlinked s ↔ dangling <:+ s := by
  have merged := merged_unlinked s
  rw [show dangling = ' ' :: andWord from rfl, Chars.cut_suffix_iff (by decide), Chars.cut_suffix_iff (by decide)]
  generalize splitOn ' ' s = words at merged ⊢
  generalize splitOn ' ' (unlinked s) = words' at merged ⊢
  cases merged <;> simp

/-- A text that ends in "and" and a blank is left in a part, unless the part ends in two dangling "and". -/
theorem infix_withoutSuffix {word : List Char} (ends : dangling <:+ word) (occurs : word ++ [' '] <:+: s) :
    word ++ [' '] <:+: withoutSuffix dangling s ∨ dangling ++ dangling <:+ s := by
  obtain ⟨before, rfl, eq⟩ | ⟨-, eq⟩ := Chars.withoutSuffix_cases dangling_ne_nil s
  · rw [eq]
    obtain ⟨front, rest, whole⟩ := occurs
    obtain ⟨between, rfl, -⟩ | ⟨outside, reaches, inside⟩ := List.append_eq_append_iff.mp whole
    · exact .inl ⟨front, between, rfl⟩
    · -- It reaches into the last "and" by its blank, or not at all.
      cases outside with
      | nil => exact .inl ⟨front, [], by simpa using reaches⟩
      | cons c outside =>
        obtain ⟨rfl, letters⟩ := List.cons.inj inside
        obtain rfl | ⟨outside, d, rfl⟩ := List.eq_nil_or_concat' outside
        · rw [← List.append_assoc, List.append_cancel_right_eq] at reaches
          obtain ⟨word, rfl⟩ := ends
          exact .inr ⟨front ++ word, by simp [← reaches]⟩
        · rw [← List.append_assoc, ← List.cons_append, ← List.append_assoc] at reaches
          have last := congrArg List.getLast? reaches
          rw [List.getLast?_concat, List.getLast?_concat] at last
          obtain rfl := Option.some.inj last
          have blank : ' ' ∈ outside ++ [' '] ++ rest := by simp
          have letter : ' ' ∈ ['a', 'n', 'd'] := letters ▸ blank
          exact absurd letter (by decide)
  · exact .inl (eq.symm ▸ occurs)

theorem linked_of_tidied (occurs : ' ' :: closed ' ' [byWord, andWord] <:+: tidied s) :
    " by and by and ".toList <:+: s ∨ " by and and ".toList <:+: s := by
  have part := (Chars.withoutSuffix_prefix dangling_ne_nil s).isInfix
  exact (linked_unlinked_iff.mp occurs).imp (fun occurs => occurs.trans part) (fun occurs => occurs.trans part)

theorem linked_tidied (occurs : " by and by and ".toList <:+: s ∨ " by and and ".toList <:+: s) :
    ' ' :: closed ' ' [byWord, andWord] <:+: tidied s ∨ dangling ++ dangling <:+ s := by
  have texts : (" by and by and ".toList = " by and by and".toList ++ [' '] ∧ dangling <:+ " by and by and".toList) ∧
      " by and and ".toList = " by and and".toList ++ [' '] ∧ dangling <:+ " by and and".toList := by decide +kernel
  obtain ⟨⟨text, ends⟩, text', ends'⟩ := texts
  rw [tidied, linked_unlinked_iff]
  obtain occurs | occurs := occurs
  · rw [text] at occurs ⊢
    exact (infix_withoutSuffix ends occurs).imp_left .inl
  · rw [text'] at occurs ⊢
    exact (infix_withoutSuffix ends' occurs).imp_left .inr

theorem dangling_tidied_iff : dangling <:+ tidied s ↔ dangling ++ dangling <:+ s := by
  rw [tidied, dangling_unlinked_iff, Chars.suffix_withoutSuffix_iff dangling_ne_nil]

theorem tidied_eq_iff (apart : ¬ ' ' :: closed ' ' [byWord] <:+: t) (other : ¬ dangling <:+ t) :
    tidied s = t ↔ s = t ∨ s = t ++ dangling := by
  rw [tidied, unlinked_eq_iff apart, Chars.withoutSuffix_eq_iff dangling_ne_nil other]

section Between

variable {parts merged left : List (List Char)}

/-- A gap is left where there was the same one, or one with "and" behind it. -/
theorem mem_map_tidied {gap : List Char} (apart : ¬ ' ' :: closed ' ' [byWord] <:+: gap) (other : ¬ dangling <:+ gap) :
    gap ∈ left.map tidied ↔ gap ∈ left ∨ gap ++ dangling ∈ left := by
  simp only [List.mem_map, tidied_eq_iff apart other, and_or_left, exists_or, exists_eq_right]

variable (merges : Merges [[]] [] parts merged) (merges' : Merges [[' ']] [] merged left)

include merges merges'

/-- Every part that is neither empty nor a single blank is left. -/
theorem mem_left {part : List Char} (filled : part ≠ []) (other : part ≠ [' ']) : part ∈ left ↔ part ∈ parts := by
  rw [merges'.mem_other other, merges.mem_other filled]

theorem nil_mem_tidied_iff : [] ∈ left.map tidied ↔ [[], []] <:+: parts ∨ dangling ∈ parts := by
  rw [mem_map_tidied (by decide) (by decide), merges'.mem_other (by decide), merges.mem_self,
    mem_left merges merges' (by decide) (by decide), List.nil_append]

theorem blank_mem_tidied_iff : [' '] ∈ left.map tidied ↔
    ([[' '], [' ']] <:+: parts ∨ [[' '], [], [' ']] <:+: parts) ∨ ' ' :: dangling ∈ parts := by
  rw [mem_map_tidied (by decide) (by decide), merges'.mem_self, merges.pair_other (by decide),
    mem_left merges merges' (by decide) (by decide), List.singleton_append]

/-- A property of parts that neither the empty one nor a single blank has is found among the parts that are left. -/
theorem exists_mem_left_iff {p : List Char → Prop} (none : ¬ p []) (none' : ¬ p [' ']) (first : List Char) :
    (∃ part ∈ first :: left, p part) ↔ ∃ part ∈ first :: parts, p part := by
  have same (part : List Char) : part ∈ left ∧ p part ↔ part ∈ parts ∧ p part := by
    refine and_congr_left fun has => mem_left merges merges' ?_ ?_
    · rintro rfl
      exact none has
    · rintro rfl
      exact none' has
  simp only [List.mem_cons, or_and_right, exists_or, same]

theorem exists_dangling_tidied_iff (first : List Char) :
    (∃ part ∈ (first :: left).map tidied, dangling <:+ part) ↔
      ∃ part ∈ first :: parts, dangling ++ dangling <:+ part := by
  rw [← exists_mem_left_iff merges merges' (by decide) (by decide)]
  simp only [List.mem_map, exists_exists_and_eq_and, dangling_tidied_iff]

/-- Words are left of longer runs of them, but for those at the end of a part, where one more "and" dangles. -/
theorem exists_linked_tidied_iff (first : List Char) :
    (∃ part ∈ first :: parts, dangling ++ dangling <:+ part) ∨
        (∃ part ∈ (first :: left).map tidied, ' ' :: closed ' ' [byWord, andWord] <:+: part) ↔
      (∃ part ∈ first :: parts, dangling ++ dangling <:+ part) ∨
        ∃ part ∈ first :: parts, " by and by and ".toList <:+: part ∨ " by and and ".toList <:+: part := by
  have empty : ¬ (" by and by and ".toList <:+: [] ∨ " by and and ".toList <:+: []) ∧
      ¬ (" by and by and ".toList <:+: [' '] ∨ " by and and ".toList <:+: [' ']) := by decide +kernel
  rw [← exists_mem_left_iff merges merges' (by decide) (by decide),
    ← exists_mem_left_iff merges merges' empty.1 empty.2]
  simp only [List.mem_map, exists_exists_and_eq_and]
  constructor
  · rintro (dangles | ⟨part, mem, linked⟩)
    · exact .inl dangles
    · exact .inr ⟨part, mem, linked_of_tidied linked⟩
  · rintro (dangles | ⟨part, mem, occurs⟩)
    · exact .inl dangles
    · exact (linked_tidied occurs).symm.imp (fun twice => ⟨part, mem, twice⟩) fun linked => ⟨part, mem, linked⟩

end Between

/-- **What one pass leaves.** After the replacements there is a fault exactly when there was a tangle before. -/
theorem faulty_sweep_iff : (∃ fault ∈ faults, fault.1 <:+: sweep faults s) ↔ Tangled s := by
  have sweeps := sweeps_sweep s
  rw [faulty_iff, tangled_iff]
  unfold gaps
  generalize splitOn ',' s = parts at sweeps ⊢
  generalize splitOn ',' (sweep faults s) = left at sweeps ⊢
  cases sweeps with
  | one part => simp [linked_unlinked_iff]
  | @between first last parts merged left merges merges' =>
    have doubled := nil_mem_tidied_iff merges merges'
    have close := blank_mem_tidied_iff merges merges'
    have dangles := exists_dangling_tidied_iff merges merges' first
    have linked := exists_linked_tidied_iff merges merges' first
    have gaps : ((first :: left).map tidied ++ [unlinked last]).tail.dropLast = left.map tidied := by simp
    have all (p : List Char → Prop) (ps : List (List Char)) (part : List Char) :
        (∃ q ∈ ps ++ [part], p q) ↔ (∃ q ∈ ps, p q) ∨ p part := by simp [or_and_right, exists_or]
    have cons : first :: (parts ++ [last]) = (first :: parts) ++ [last] := rfl
    rw [gaps, List.tail_cons, cons, List.dropLast_concat, List.dropLast_concat, List.dropLast_concat, doubled, close,
      dangles, all, all, all, linked_unlinked_iff]
    simp only [and_or_left, exists_or] at linked
    grind

end RenderFarm.Prompt

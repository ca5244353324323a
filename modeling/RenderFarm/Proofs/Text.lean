import RenderFarm.Proofs.Trimming
import RenderFarm.Text.Case

/-!
Lists in text and letter case: an item of a list is not empty, a text without the separator is at most one item,
and lowering letters brings in no other characters than letters. What is cut off at the last occurrence of a
character does not hold it. Words that are written with a separator between them are read back.
-/

namespace RenderFarm

namespace Chars

/-- The code points of the blanks. -/
def blankCodes : List Nat :=
  [9, 10, 11, 12, 13, 0x20, 0x85, 0xA0, 0x1680, 0x2000, 0x2001, 0x2002, 0x2003, 0x2004, 0x2005, 0x2006, 0x2007,
    0x2008, 0x2009, 0x200A, 0x2028, 0x2029, 0x202F, 0x205F, 0x3000]

theorem mem_blankCodes {c : Char} (blank : isBlank c) : c.toNat ∈ blankCodes := by
  simp only [isBlank, Bool.or_eq_true, Bool.and_eq_true, decide_eq_true_eq, beq_iff_eq] at blank
  simp only [blankCodes, List.mem_cons, List.not_mem_nil, or_false]
  omega

/-- A text without the separator is a single part. -/
theorem splitOn_of_not_mem {sep : Char} {s : List Char} (none : sep ∉ s) : splitOn sep s = [s] := by
  induction s with
  | nil => rfl
  | cons c s ih =>
    rw [List.mem_cons, not_or] at none
    rw [splitOn, if_neg (Ne.symm none.1), ih none.2]

/-- A character that is not a letter comes from lowering itself only. -/
theorem eq_of_toLower {c d : Char} (low : c.toLower = d) (early : d.toNat < 'a'.toNat) : c = d := by
  subst low
  unfold Char.toLower at early ⊢
  split
  · rename_i upper
    rw [dif_pos upper] at early
    have least : 'A'.val.toNat ≤ c.val.toNat := upper.1
    have greatest : c.val.toNat ≤ 'Z'.val.toNat := upper.2
    have lowered : (c.val + ('a'.val - 'A'.val)).toNat < 'a'.toNat := early
    rw [UInt32.toNat_add] at lowered
    simp at least greatest lowered
    omega
  · rfl

theorem mem_of_mem_lowerAscii {c : Char} {s : List Char} (early : c.toNat < 'a'.toNat) (mem : c ∈ lowerAscii s) :
    c ∈ s := by
  obtain ⟨d, there, low⟩ := List.mem_map.mp mem
  exact eq_of_toLower low early ▸ there

/-- The lower-case form of a capital letter is a letter. -/
theorem le_shifted : ∀ run ∈ capitalRuns, (('a'.toNat : Nat) : Int) ≤ run.first + run.shift := by
  decide +kernel

/-- No character comes in by lowering but letters. -/
theorem eq_of_mem_lowerChar {c d : Char} (early : c.toNat < 'a'.toNat) (nonzero : c ≠ '\x00')
    (mem : c ∈ lowerChar d) : c = d := by
  unfold lowerChar at mem
  split at mem
  · rw [List.mem_singleton] at mem
    exact (eq_of_toLower mem.symm early).symm
  · split at mem
    · rcases List.mem_cons.mp mem with rfl | mem
      · exact absurd early (by decide)
      · rw [List.mem_singleton.mp mem] at early
        exact absurd early (by decide)
    · split at mem
      · rename_i run found
        rw [List.mem_singleton] at mem
        have holds := List.find?_some found
        have low := le_shifted run (List.mem_of_find?_eq_some found)
        have least : run.first ≤ d.toNat := by
          simp only [CapitalRun.holds, Bool.and_eq_true, decide_eq_true_eq] at holds
          exact holds.1.1
        have shifted : 'a'.toNat ≤ Int.toNat (d.toNat + run.shift) := by omega
        rw [mem] at early nonzero
        by_cases valid : (Int.toNat (d.toNat + run.shift)).isValidChar
        · rw [Char.ofNat, dif_pos valid] at early
          exact absurd shifted (Nat.not_le.mpr early)
        · rw [Char.ofNat, dif_neg valid] at nonzero
          exact absurd rfl nonzero
      · exact List.mem_singleton.mp mem

theorem mem_of_mem_lowerAfter {c : Char} (early : c.toNat < 'a'.toNat) (nonzero : c ≠ '\x00') {before s : List Char}
    (mem : c ∈ lowerAfter before s) : c ∈ s := by
  induction s generalizing before with
  | nil => cases mem
  | cons d s ih =>
    rw [lowerAfter, List.mem_append] at mem
    obtain here | later := mem
    · refine List.mem_cons.mpr (.inl ?_)
      split at here
      · split at here
        all_goals
          rw [List.mem_singleton.mp here] at early
          exact absurd early (by decide)
      · exact eq_of_mem_lowerChar early nonzero here
    · exact List.mem_cons_of_mem _ (ih later)

theorem mem_of_mem_lower {c : Char} (early : c.toNat < 'a'.toNat) (nonzero : c ≠ '\x00') {s : List Char}
    (mem : c ∈ lower s) : c ∈ s := by
  unfold lower at mem
  split at mem
  · exact mem_of_mem_lowerAscii early mem
  · exact mem_of_mem_lowerAfter early nonzero mem

theorem contains_iff {pat s : List Char} : contains pat s ↔ pat <:+: s := by
  induction s with
  | nil => simp [contains]
  | cons c s ih => rw [contains, Bool.or_eq_true, List.isPrefixOf_iff_prefix, ih, List.infix_cons_iff]

/-- The first occurrence of a character is the one that no other comes before. -/
theorem cut?_append {c : Char} {before : List Char} (first : c ∉ before) (rest : List Char) :
    cut? [c] (before ++ c :: rest) = some (before, rest) := by
  induction before with
  | nil => simp [cut?, stripPrefix?]
  | cons d before ih =>
    rw [List.mem_cons, not_or] at first
    simp [cut?, stripPrefix?, first.1, ih first.2]

theorem cut?_eq_none {c : Char} {s : List Char} (missing : c ∉ s) : cut? [c] s = none := by
  induction s with
  | nil => rfl
  | cons d s ih =>
    rw [List.mem_cons, not_or] at missing
    simp [cut?, stripPrefix?, missing.1, ih missing.2]

theorem cutLast?_eq_none_iff {c : Char} {s : List Char} : cutLast? [c] s = none ↔ c ∉ s := by
  induction s with
  | nil => simp [cutLast?, stripPrefix?]
  | cons d s ih =>
    unfold cutLast?
    cases later : cutLast? [c] s with
    | some p =>
      have mem : c ∈ s := Decidable.not_not.mp fun none => by simp [ih.mpr none] at later
      simp [mem]
    | none => simp [stripPrefix?, ih.mp later]

/-- The last occurrence of a character is the one that no other follows. -/
theorem cutLast?_append {c : Char} {rest : List Char} (last : c ∉ rest) (before : List Char) :
    cutLast? [c] (before ++ c :: rest) = some (before, rest) := by
  induction before with
  | nil => simp [cutLast?, cutLast?_eq_none_iff.mpr last, stripPrefix?]
  | cons d before ih => simp [cutLast?, ih]

theorem eq_of_cutLast? {c : Char} {s before rest : List Char} (cut : cutLast? [c] s = some (before, rest)) :
    s = before ++ c :: rest ∧ c ∉ rest := by
  induction s generalizing before with
  | nil => cases cut
  | cons d s ih =>
    unfold cutLast? at cut
    cases later : cutLast? [c] s with
    | some p =>
      obtain ⟨front, back⟩ := p
      obtain ⟨rfl, rfl⟩ : d :: front = before ∧ back = rest := by simpa [later] using cut
      obtain ⟨rfl, last⟩ := ih later
      exact ⟨rfl, last⟩
    | none =>
      rw [later] at cut
      by_cases here : c = d
      · obtain ⟨rfl, rfl⟩ : [] = before ∧ s = rest := by simpa [stripPrefix?, here] using cut
        exact ⟨by rw [here, List.nil_append], cutLast?_eq_none_iff.mp later⟩
      · simp [stripPrefix?, here] at cut

/-- A prefix is cut off a text when the text is the prefix and what is left. -/
theorem stripPrefix?_eq_some_iff {pat s rest : List Char} : stripPrefix? pat s = some rest ↔ s = pat ++ rest := by
  induction pat generalizing s with
  | nil => simp [stripPrefix?]
  | cons c pat ih =>
    cases s with
    | nil => simp [stripPrefix?]
    | cons d s =>
      rw [stripPrefix?]
      by_cases same : c = d
      · rw [if_pos same, ih, same, List.cons_append, List.cons_inj_right]
      · rw [if_neg same, List.cons_append, List.cons.injEq]
        simp [Ne.symm same]

theorem whole_of_cutLast? {pat s before rest : List Char} (cut : cutLast? pat s = some (before, rest)) :
    s = before ++ pat ++ rest := by
  induction s generalizing before with
  | nil =>
    obtain ⟨rest', stripped, parts⟩ := Option.map_eq_some_iff.mp cut
    obtain ⟨rfl, rfl⟩ : [] = before ∧ rest' = rest := by simpa using parts
    exact stripPrefix?_eq_some_iff.mp stripped
  | cons c s ih =>
    unfold cutLast? at cut
    split at cut
    · rename_i front back later
      obtain ⟨rfl, rfl⟩ : c :: front = before ∧ back = rest := by simpa using cut
      rw [ih later]
      rfl
    · obtain ⟨rest', stripped, parts⟩ := Option.map_eq_some_iff.mp cut
      obtain ⟨rfl, rfl⟩ : [] = before ∧ rest' = rest := by simpa using parts
      exact stripPrefix?_eq_some_iff.mp stripped

theorem isSome_stripPrefix? {pat s : List Char} : (stripPrefix? pat s).isSome = pat.isPrefixOf s := by
  rw [Bool.eq_iff_iff, Option.isSome_iff_exists, List.isPrefixOf_iff_prefix]
  simp only [stripPrefix?_eq_some_iff]
  exact ⟨fun ⟨rest, whole⟩ => ⟨rest, whole.symm⟩, fun ⟨rest, whole⟩ => ⟨rest, whole.symm⟩⟩

/-- A word is not empty and holds no character that words are cut at. -/
theorem of_mem_words {p : Char → Bool} {s word : List Char} (mem : word ∈ words p s) :
    word ≠ [] ∧ ∀ c ∈ word, p c = false := by
  induction s generalizing word with
  | nil => cases mem
  | cons c s ih =>
    unfold words at mem
    split at mem
    · exact ih mem
    · rename_i kept
      have single : [c] ≠ [] ∧ ∀ d ∈ [c], p d = false := ⟨List.cons_ne_nil _ _, by simpa using kept⟩
      split at mem
      · rwa [List.mem_singleton.mp mem]
      · split at mem
        · obtain rfl | mem := List.mem_cons.mp mem
          · exact single
          · exact ih mem
        · split at mem
          · rwa [List.mem_singleton.mp mem]
          · rename_i first rest found
            rw [found] at ih
            obtain rfl | mem := List.mem_cons.mp mem
            · obtain ⟨-, plain⟩ := ih List.mem_cons_self
              exact ⟨List.cons_ne_nil _ _, List.forall_mem_cons.mpr ⟨by simpa using kept, plain⟩⟩
            · exact ih (List.mem_cons_of_mem _ mem)

/-- A word goes up to the next character that words are cut at. -/
theorem words_append {p : Char → Bool} {word : List Char} (some : word ≠ []) (whole : ∀ c ∈ word, p c = false)
    {s : List Char} (ends : ∀ c ∈ s.head?, p c) : words p (word ++ s) = word :: words p s := by
  induction word with
  | nil => exact absurd rfl some
  | cons c word ih =>
    obtain ⟨first, rest⟩ := List.forall_mem_cons.mp whole
    cases word with
    | nil =>
      cases s with
      | nil => simp [words, first]
      | cons b s =>
        have cut : p b := ends b rfl
        simp [words, first, cut]
    | cons d word =>
      have next : p d = false := rest d List.mem_cons_self
      have later := ih (List.cons_ne_nil _ _) rest
      rw [List.cons_append] at later ⊢
      rw [List.cons_append, words, later]
      simp [first, next]

theorem words_cons_of_cut {p : Char → Bool} {b : Char} (cut : p b) (s : List Char) : words p (b :: s) = words p s := by
  simp [words, cut]

/-- Words with a separator between them are read back. -/
theorem words_intercalate {p : Char → Bool} {b : Char} (cut : p b) {tokens : List (List Char)}
    (whole : ∀ word ∈ tokens, word ≠ [] ∧ ∀ c ∈ word, p c = false) : words p ([b].intercalate tokens) = tokens := by
  induction tokens with
  | nil => rfl
  | cons word tokens ih =>
    obtain ⟨⟨some, plain⟩, others⟩ := List.forall_mem_cons.mp whole
    cases tokens with
    | nil =>
      rw [List.intercalate_singleton]
      simpa [words] using words_append some plain (s := []) (by simp)
    | cons next tokens =>
      rw [List.intercalate_cons_cons, List.append_assoc, List.singleton_append,
        words_append some plain (by simpa using cut), words_cons_of_cut cut, ih others]

/-- A text put together from parts holds what the parts and the separator hold. -/
theorem mem_intercalate {c : Char} {sep : List Char} {parts : List (List Char)} (mem : c ∈ sep.intercalate parts) :
    c ∈ sep ∨ ∃ part ∈ parts, c ∈ part := by
  induction parts with
  | nil => cases mem
  | cons part rest ih =>
    cases rest with
    | nil => exact .inr ⟨part, List.mem_singleton_self _, by simpa using mem⟩
    | cons next rest =>
      rw [List.intercalate_cons_cons, List.mem_append, List.mem_append] at mem
      obtain (here | between) | later := mem
      · exact .inr ⟨part, List.mem_cons_self, here⟩
      · exact .inl between
      · obtain between | ⟨part', mem', there⟩ := ih later
        · exact .inl between
        · exact .inr ⟨part', List.mem_cons_of_mem _ mem', there⟩

end Chars

namespace Text

variable {sep : Char} {s : String}

theorem eqIgnoringCase_iff {t : String} :
    eqIgnoringCase s t ↔ Chars.lowerAscii s.toList = Chars.lowerAscii t.toList := by
  rw [eqIgnoringCase, Chars.eqIgnoringCase, beq_iff_eq]

/-- Texts that differ in case only are told apart from another in the same way. -/
theorem eqIgnoringCase_congr {t t' : String} (same : eqIgnoringCase t t') (s : String) :
    eqIgnoringCase s t = eqIgnoringCase s t' := by
  rw [Bool.eq_iff_iff, eqIgnoringCase_iff, eqIgnoringCase_iff, eqIgnoringCase_iff.mp same]

theorem ne_empty_of_mem_listItems {item : String} (mem : item ∈ listItems sep s) : item ≠ "" := by
  obtain ⟨chars, among, rfl⟩ := List.mem_map.mp mem
  intro empty
  have none : chars = [] := by simpa using congrArg String.toList empty
  simp [Chars.listItems, none] at among

theorem length_listItems_le (none : sep ∉ s.toList) : (listItems sep s).length ≤ 1 := by
  rw [listItems, Chars.listItems, Chars.splitOn_of_not_mem none, List.length_map]
  exact List.length_filter_le _ _

theorem trim_ofList_trim (s : List Char) : trim (String.ofList (Chars.trim s)) = String.ofList (Chars.trim s) := by
  rw [trim, String.toList_ofList, (Chars.trimmed_trim s).trim_eq]

theorem trim_trim (s : String) : trim (trim s) = trim s :=
  trim_ofList_trim s.toList

/-- The items of a list have no blanks around them. -/
theorem trim_of_mem_listItems {item : String} (mem : item ∈ listItems sep s) : trim item = item := by
  obtain ⟨chars, among, rfl⟩ := List.mem_map.mp mem
  obtain ⟨part, -, rfl⟩ := List.mem_map.mp (List.mem_of_mem_filter among)
  exact trim_ofList_trim part

/-- A text without blanks around it and without separator is a list of one item. -/
theorem listItems_single (trimmed : trim s = s) (nonempty : s.isEmpty = false)
    (single : sep ∉ s.toList) : listItems sep s = [s] := by
  have chars : Chars.trim s.toList = s.toList := by
    have same := congrArg String.toList trimmed
    rwa [trim, String.toList_ofList] at same
  have some : s.toList.isEmpty = false := by simpa [List.isEmpty_iff] using nonempty
  rw [listItems, Chars.listItems, Chars.splitOn_of_not_mem single, List.map_singleton, chars,
    List.filter_cons_of_pos (by rw [some]; rfl), List.filter_nil, List.map_singleton, String.ofList_toList]

/-- A word in another case has no comma that the word does not have. -/
theorem comma_not_mem_of_eqIgnoringCase {word : String} (same : eqIgnoringCase s word) (plain : ',' ∉ word.toList) :
    ',' ∉ s.toList := by
  intro mem
  refine plain (Chars.mem_of_mem_lowerAscii (by decide) (eqIgnoringCase_iff.mp same ▸ ?_))
  exact List.mem_map_of_mem (f := Char.toLower) mem

end Text

end RenderFarm

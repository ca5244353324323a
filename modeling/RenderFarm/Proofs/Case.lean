import Mathlib.Data.List.Infix
import RenderFarm.Proofs.Text

/-!
Lower case of a part of a text. A character is lowered by itself but for the capital sigma, which looks past
case-ignorable characters at what stands around it. So a part is lowered within a text as it is alone when it has no
capital sigma, or when the text around it does not begin with a cased letter.
-/

namespace RenderFarm.Chars

/-! ## What stands around a character -/

theorem casedAfterIgnorable_cons (c : Char) (s : List Char) :
    casedAfterIgnorable (c :: s) =
      if inRanges caseIgnorableRanges c then casedAfterIgnorable s else inRanges casedRanges c := by
  unfold casedAfterIgnorable
  by_cases ignorable : inRanges caseIgnorableRanges c
  · rw [List.dropWhile_cons_of_pos ignorable, if_pos ignorable]
  · rw [List.dropWhile_cons_of_neg ignorable, if_neg ignorable]

/-- A text does not matter behind another when no cased letter begins it. -/
theorem casedAfterIgnorable_append {t : List Char} (uncased : casedAfterIgnorable t = false) (s : List Char) :
    casedAfterIgnorable (s ++ t) = casedAfterIgnorable s := by
  induction s with
  | nil => exact uncased
  | cons c s ih => rw [List.cons_append, casedAfterIgnorable_cons, casedAfterIgnorable_cons, ih]

/-- A character that is neither case-ignorable nor cased, so that no word goes on over it. -/
def isSeparator (c : Char) : Bool :=
  !inRanges caseIgnorableRanges c && !inRanges casedRanges c

theorem casedAfterIgnorable_of_separator {s : List Char} (separated : ∀ c ∈ s.head?, isSeparator c) :
    casedAfterIgnorable s = false := by
  cases s with
  | nil => rfl
  | cons c s =>
    obtain ⟨apart, uncased⟩ : inRanges caseIgnorableRanges c = false ∧ inRanges casedRanges c = false := by
      simpa [isSeparator] using separated c rfl
    rw [casedAfterIgnorable_cons, if_neg (by simp [apart]), uncased]

/-! ## Lowering within a text -/

/-- A character lowered between two texts, of which the one before it is given nearest character first. -/
def lowerAt (before after : List Char) (c : Char) : List Char :=
  if c = 'Σ' then
    if casedAfterIgnorable before && !casedAfterIgnorable after then ['ς'] else ['σ']
  else lowerChar c

theorem lowerAt_ne_nil (before after : List Char) (c : Char) : lowerAt before after c ≠ [] := by
  unfold lowerAt lowerChar
  split
  · split <;> exact List.cons_ne_nil _ _
  · split
    · exact List.cons_ne_nil _ _
    · split
      · exact List.cons_ne_nil _ _
      · split <;> exact List.cons_ne_nil _ _

/-- A text lowered between two others. -/
def lowerWithin (before after : List Char) : List Char → List Char
  | [] => []
  | c :: s => lowerAt before (s ++ after) c ++ lowerWithin (c :: before) after s

theorem lowerAfter_append (before s t : List Char) :
    lowerAfter before (s ++ t) = lowerWithin before t s ++ lowerAfter (s.reverse ++ before) t := by
  induction s generalizing before with
  | nil => rfl
  | cons c s ih =>
    have head : lowerAfter before (c :: (s ++ t)) = lowerAt before (s ++ t) c ++ lowerAfter (c :: before) (s ++ t) := rfl
    rw [List.cons_append, head, ih, lowerWithin, List.append_assoc, List.reverse_cons, List.append_assoc,
      List.singleton_append]

theorem lowerAfter_eq (before s : List Char) : lowerAfter before s = lowerWithin before [] s := by
  have alone := lowerAfter_append before s []
  rwa [List.append_nil, lowerAfter, List.append_nil] at alone

theorem lowerChar_ascii {c : Char} (ascii : c.toNat < 0x80) : lowerChar c = [c.toLower] :=
  if_pos ascii

/-- A text of ASCII characters only is no exception. -/
theorem lower_eq (s : List Char) : lower s = lowerAfter [] s := by
  have ascii (s before : List Char) (all : s.all (·.toNat < 0x80)) : lowerAscii s = lowerAfter before s := by
    induction s generalizing before with
    | nil => rfl
    | cons c s ih =>
      rw [List.all_cons, Bool.and_eq_true, decide_eq_true_eq] at all
      have other : c ≠ 'Σ' := by
        rintro rfl
        exact absurd all.1 (by decide)
      rw [lowerAfter, if_neg other, lowerChar_ascii all.1, ← ih (c :: before) all.2]
      rfl
  unfold lower
  split
  · exact ascii s [] ‹_›
  · rfl

theorem lower_eq_nil_iff {s : List Char} : lower s = [] ↔ s = [] := by
  constructor
  · intro nothing
    cases s with
    | nil => rfl
    | cons c s =>
      rw [lower_eq, lowerAfter_eq, lowerWithin, List.append_eq_nil_iff] at nothing
      exact absurd nothing.1 (lowerAt_ne_nil _ _ _)
  · rintro rfl
    rfl

/-- Between texts that no cased letter begins, a text is lowered as it is alone. -/
theorem lowerWithin_uncased {before after : List Char} (uncased : casedAfterIgnorable before = false)
    (uncased' : casedAfterIgnorable after = false) (s : List Char) : lowerWithin before after s = lower s := by
  have each (front s : List Char) : lowerWithin (front ++ before) after s = lowerWithin front [] s := by
    induction s generalizing front with
    | nil => rfl
    | cons c s ih =>
      have same : lowerAt (front ++ before) (s ++ after) c = lowerAt front (s ++ []) c := by
        rw [lowerAt, casedAfterIgnorable_append uncased, casedAfterIgnorable_append uncased', List.append_nil, lowerAt]
      rw [lowerWithin, lowerWithin, same, ← ih (c :: front), List.cons_append]
  rw [lower_eq, lowerAfter_eq, ← each []]
  rfl

/-- Without a capital sigma it does not matter what stands around a text. -/
theorem lowerWithin_plain {s : List Char} (plain : 'Σ' ∉ s) (before after : List Char) :
    lowerWithin before after s = lower s := by
  have each (before after s : List Char) (plain : 'Σ' ∉ s) : lowerWithin before after s = s.flatMap lowerChar := by
    induction s generalizing before with
    | nil => rfl
    | cons c s ih =>
      obtain ⟨other, rest⟩ := not_or.mp fun mem => plain (List.mem_cons.mpr mem)
      rw [lowerWithin, lowerAt, if_neg (Ne.symm other), ih _ rest, List.flatMap_cons]
  rw [lower_eq, lowerAfter_eq, each _ _ s plain, each _ _ s plain]

/-- Whether a text is lowered between two others as it is alone: it has no capital sigma, or none of the two has a
cased letter next to it. -/
def LowersAlone (before s after : List Char) : Prop :=
  'Σ' ∈ s → casedAfterIgnorable before.reverse = false ∧ casedAfterIgnorable after = false

theorem lowersAlone_of_separators {before after : List Char} (left : ∀ c ∈ before.getLast?, isSeparator c)
    (right : ∀ c ∈ after.head?, isSeparator c) (s : List Char) : LowersAlone before s after := fun _ =>
  ⟨casedAfterIgnorable_of_separator (by simpa using left), casedAfterIgnorable_of_separator right⟩

theorem lower_infix {before s after : List Char} (alone : LowersAlone before s after) :
    lower s <:+: lower (before ++ s ++ after) := by
  have within : lowerWithin before.reverse after s = lower s := by
    by_cases sigma : 'Σ' ∈ s
    · exact lowerWithin_uncased (alone sigma).1 (alone sigma).2 s
    · exact lowerWithin_plain sigma _ _
  refine ⟨lowerWithin [] (s ++ after) before, lowerAfter (s.reverse ++ before.reverse) after, ?_⟩
  rw [lower_eq (before ++ s ++ after), List.append_assoc before, lowerAfter_append, lowerAfter_append, List.append_nil,
    within, List.append_assoc]

/-- A text is lowered before a separator as it is alone, and comes before what goes on. -/
theorem lower_lt_append {c : Char} (separates : isSeparator c) (s t : List Char) : lower s < lower (s ++ c :: t) := by
  have within : lowerWithin [] (c :: t) s = lower s :=
    lowerWithin_uncased rfl (casedAfterIgnorable_of_separator (by simpa using separates)) s
  have split : lower (s ++ c :: t) =
      lower s ++ (lowerAt s.reverse t c ++ lowerAfter (c :: s.reverse) t) := by
    rw [lower_eq (s ++ c :: t), lowerAfter_append, within, List.append_nil]
    rfl
  have longer : [] < lowerAt s.reverse t c ++ lowerAfter (c :: s.reverse) t := by
    obtain ⟨d, rest, some⟩ := List.exists_cons_of_ne_nil (lowerAt_ne_nil s.reverse t c)
    rw [some]
    exact List.nil_lt_cons _ _
  have further : lower s ++ [] < lower s ++ (lowerAt s.reverse t c ++ lowerAfter (c :: s.reverse) t) :=
    List.append_left_lt longer
  rwa [List.append_nil, ← split] at further

/-! ## The case of ASCII letters -/

/-- The code points of the capital letters. -/
def capitalCodes : List Nat :=
  List.range' 'A'.toNat 26

theorem mem_capitalCodes {c : Char} (changed : c.toLower ≠ c) : c.toNat ∈ capitalCodes := by
  unfold Char.toLower at changed
  split at changed
  · rename_i upper
    have least : 'A'.toNat ≤ c.toNat := upper.1
    have greatest : c.toNat ≤ 'Z'.toNat := upper.2
    rw [capitalCodes, List.mem_range'_1]
    exact ⟨least, Nat.lt_of_le_of_lt greatest (by decide)⟩
  · exact absurd rfl changed

/-- What the capital letters have in common with the small ones, all characters have. -/
theorem apply_toLower {α : Type} {f : Char → α}
    (letters : ∀ n ∈ capitalCodes, f (Char.ofNat n).toLower = f (Char.ofNat n)) (c : Char) : f c.toLower = f c := by
  by_cases same : c.toLower = c
  · rw [same]
  · have letter := letters _ (mem_capitalCodes same)
    rwa [Char.ofNat_toNat] at letter

theorem inRanges_eq_false {ranges : List (Nat × Nat)} {first last : Nat}
    (apart : ∀ range ∈ ranges, range.2 < first ∨ last < range.1) {c : Char} (within : first ≤ c.toNat ∧ c.toNat ≤ last) :
    inRanges ranges c = false := by
  rw [inRanges, List.any_eq_false]
  intro range mem
  have out := apart range mem
  simp only [Bool.and_eq_true, decide_eq_true_eq]
  omega

/-- Neither capital letters nor small ones are case-ignorable. -/
theorem caseIgnorable_toLower (c : Char) :
    inRanges caseIgnorableRanges c.toLower = inRanges caseIgnorableRanges c := by
  refine apply_toLower (fun n letter => ?_) c
  have each : ∀ n ∈ capitalCodes, ('A'.toNat ≤ (Char.ofNat n).toNat ∧ (Char.ofNat n).toNat ≤ 'Z'.toNat) ∧
      'a'.toNat ≤ (Char.ofNat n).toLower.toNat ∧ (Char.ofNat n).toLower.toNat ≤ 'z'.toNat := by decide
  have capitals : ∀ range ∈ caseIgnorableRanges, range.2 < 'A'.toNat ∨ 'Z'.toNat < range.1 := by decide +kernel
  have small : ∀ range ∈ caseIgnorableRanges, range.2 < 'a'.toNat ∨ 'z'.toNat < range.1 := by decide +kernel
  rw [inRanges_eq_false small (each n letter).2, inRanges_eq_false capitals (each n letter).1]

theorem casedAfterIgnorable_lowerAscii (s : List Char) : casedAfterIgnorable (lowerAscii s) = casedAfterIgnorable s := by
  have cased : ∀ c : Char, inRanges casedRanges c.toLower = inRanges casedRanges c := apply_toLower (by decide +kernel)
  induction s with
  | nil => rfl
  | cons c s ih =>
    have split : lowerAscii (c :: s) = c.toLower :: lowerAscii s := rfl
    rw [split, casedAfterIgnorable_cons, casedAfterIgnorable_cons, cased, caseIgnorable_toLower, ih]

theorem lowerAt_lowerAscii (before after : List Char) (c : Char) :
    lowerAt (lowerAscii before) (lowerAscii after) c.toLower = lowerAt before after c := by
  have sigma : (c.toLower = 'Σ') = (c = 'Σ') := apply_toLower (f := (· = 'Σ')) (by decide +kernel) c
  have lowered : lowerChar c.toLower = lowerChar c := apply_toLower (by decide +kernel) c
  simp only [lowerAt, sigma, lowered, casedAfterIgnorable_lowerAscii]

theorem lower_lowerAscii (s : List Char) : lower (lowerAscii s) = lower s := by
  have each (before s : List Char) : lowerWithin (lowerAscii before) [] (lowerAscii s) = lowerWithin before [] s := by
    induction s generalizing before with
    | nil => rfl
    | cons c s ih =>
      have head := lowerAt_lowerAscii before (s ++ []) c
      rw [List.append_nil] at head
      have rest := ih (c :: before)
      simp only [lowerAscii, List.map_cons] at head rest ⊢
      rw [lowerWithin, lowerWithin, List.append_nil, List.append_nil, head, rest]
  rw [lower_eq, lower_eq, lowerAfter_eq, lowerAfter_eq]
  exact each [] s

/-- The case of ASCII letters does not matter to the lower case of a text. -/
theorem lower_congr {s t : List Char} (same : eqIgnoringCase s t) : lower s = lower t := by
  have equal : lowerAscii s = lowerAscii t := by simpa [eqIgnoringCase] using same
  rw [← lower_lowerAscii s, equal, lower_lowerAscii]

end RenderFarm.Chars

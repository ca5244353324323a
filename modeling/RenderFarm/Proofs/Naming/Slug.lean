import RenderFarm.Naming.Slug
import RenderFarm.Proofs.Trimming

/-!
The form of slugs. A slug is made of small letters, digits, underscores and dashes, no two dashes of it are next to
each other, and it starts with neither a dash nor an underscore. It is trimmed before it is cut to the greatest length,
so it can end with one of them: exactly where the text was cut behind it. A second slugging drops what it ends with.
-/

namespace RenderFarm.Naming

open Chars (trimBy trimEnd)

/-- Characters of a slug. -/
def isSlugLetter (c : Char) : Bool :=
  c.isLower || c.isDigit || isEdge c

/-- The slug of a text before it is cut to its greatest length. -/
def wholeSlug (s : List Char) : List Char :=
  trimBy isEdge (joinGaps (((s.filter (·.toNat < 0x80)).map Char.toLower).filter isSlugChar))

theorem slugChars_eq (s : List Char) : slugChars s = (wholeSlug s).take maxLength := rfl

/-! ## Characters -/

/-- What can be said of a character by its code is settled on the codes below the bound. -/
theorem of_ascii {p : Char → Prop} (each : ∀ n < 0x80, p (Char.ofNat n)) {c : Char} (ascii : c.toNat < 0x80) : p c := by
  simpa using each c.toNat ascii

theorem toNat_lt_of_isSlugLetter {c : Char} (letter : isSlugLetter c) : c.toNat < 0x80 := by
  have small {last : UInt32} (le : c.val ≤ last) (ascii : last.toNat < 0x80) : c.toNat < 0x80 :=
    Nat.lt_of_le_of_lt (UInt32.le_iff_toNat_le.mp le) ascii
  simp only [isSlugLetter, isEdge, Bool.or_eq_true, beq_iff_eq] at letter
  obtain (lower | digit) | rfl | rfl := letter
  · exact small (of_decide_eq_true (Bool.and_eq_true_iff.mp lower).2) (by decide)
  · exact small (of_decide_eq_true (Bool.and_eq_true_iff.mp digit).2) (by decide)
  · decide
  · decide

/-- A character of a slug is kept as it is, and the only gap among them is the dash. -/
theorem kept_of_isSlugLetter {c : Char} (letter : isSlugLetter c) :
    c.toLower = c ∧ isSlugChar c ∧ (isGap c → c = '-') :=
  of_ascii (p := fun c => isSlugLetter c → c.toLower = c ∧ isSlugChar c ∧ (isGap c → c = '-'))
    (by decide +kernel) (toNat_lt_of_isSlugLetter letter) letter

theorem isSlugLetter_toLower {c : Char} (ascii : c.toNat < 0x80) (kept : isSlugChar c.toLower)
    (solid : isGap c.toLower = false) : isSlugLetter c.toLower :=
  of_ascii (p := fun c => isSlugChar c.toLower → isGap c.toLower = false → isSlugLetter c.toLower)
    (by decide +kernel) ascii kept solid

/-! ## Runs of gaps -/

theorem mem_joinGaps {s : List Char} {c : Char} (mem : c ∈ joinGaps s) : c = '-' ∨ c ∈ s ∧ isGap c = false := by
  fun_induction joinGaps s with
  | case1 => cases mem
  | case2 => exact .inl (List.mem_singleton.mp mem)
  | case3 d _ e s _ ih => exact (ih mem).imp_right fun ⟨there, solid⟩ => ⟨List.mem_cons_of_mem _ there, solid⟩
  | case4 d _ e s _ ih =>
    obtain here | later := List.mem_cons.mp mem
    · exact .inl here
    · exact (ih later).imp_right fun ⟨there, solid⟩ => ⟨List.mem_cons_of_mem _ there, solid⟩
  | case5 d s solid ih =>
    obtain rfl | later := List.mem_cons.mp mem
    · exact .inr ⟨List.mem_cons_self, by simpa using solid⟩
    · exact (ih later).imp_right fun ⟨there, solid⟩ => ⟨List.mem_cons_of_mem _ there, solid⟩

/-- No two dashes are next to each other. -/
def Single (s : List Char) : Prop :=
  ¬ ['-', '-'] <:+: s

theorem single_cons {c : Char} {s : List Char} : Single (c :: s) ↔ ¬ (c = '-' ∧ s.head? = some '-') ∧ Single s := by
  unfold Single
  rw [List.infix_cons_iff, not_or]
  cases s with
  | nil => simp [List.cons_prefix_cons]
  | cons d s => simp [List.cons_prefix_cons, eq_comm]

theorem single_joinGaps (s : List Char) : Single (joinGaps s) := by
  fun_induction joinGaps s with
  | case1 => simp [Single]
  | case2 => exact single_cons.mpr ⟨by simp, by simp [Single]⟩
  | case3 d _ e s _ ih => exact ih
  | case4 d _ e s solid ih =>
    have first : joinGaps (e :: s) = e :: joinGaps s := by simp [joinGaps, solid]
    refine single_cons.mpr ⟨fun ⟨_, next⟩ => ?_, ih⟩
    rw [first] at next
    obtain rfl : e = '-' := Option.some.inj next
    exact solid rfl
  | case5 d s solid ih =>
    refine single_cons.mpr ⟨fun ⟨dash, _⟩ => ?_, ih⟩
    exact solid (dash ▸ rfl)

/-- Where every gap is a dash that stands alone, none is joined. -/
theorem joinGaps_of_single {s : List Char} (dashes : ∀ c ∈ s, isGap c → c = '-') (single : Single s) :
    joinGaps s = s := by
  fun_induction joinGaps s with
  | case1 => rfl
  | case2 c gap => rw [dashes c List.mem_cons_self gap]
  | case3 c gap d s gap' =>
    have dash := dashes c List.mem_cons_self gap
    have dash' := dashes d (List.mem_cons_of_mem _ List.mem_cons_self) gap'
    exact absurd ⟨dash, congrArg some dash'⟩ (single_cons.mp single).1
  | case4 c gap d s _ ih =>
    rw [ih (fun e mem => dashes e (List.mem_cons_of_mem _ mem)) (single_cons.mp single).2,
      dashes c List.mem_cons_self gap]
  | case5 c s _ ih =>
    rw [ih (fun e mem => dashes e (List.mem_cons_of_mem _ mem)) (single_cons.mp single).2]

/-! ## The form of a slug -/

/-- The form of a slug, but for its length and its end. -/
structure SlugForm (s : List Char) : Prop where
  letters : ∀ c ∈ s, isSlugLetter c
  single : Single s
  front : ∀ c ∈ s.head?, isEdge c = false

theorem slugForm_wholeSlug (s : List Char) : SlugForm (wholeSlug s) := by
  have part := Chars.trimBy_infix isEdge
    (joinGaps (((s.filter (·.toNat < 0x80)).map Char.toLower).filter isSlugChar))
  refine ⟨fun c mem => ?_, fun dashes => single_joinGaps _ (dashes.trans part), Chars.head_trimBy _ _⟩
  obtain rfl | ⟨there, solid⟩ := mem_joinGaps (part.subset mem)
  · rfl
  · obtain ⟨lowered, kept⟩ := List.mem_filter.mp there
    obtain ⟨d, among, rfl⟩ := List.mem_map.mp lowered
    exact isSlugLetter_toLower (by simpa using (List.mem_filter.mp among).2) kept solid

theorem SlugForm.take {s : List Char} (form : SlugForm s) (n : Nat) : SlugForm (s.take n) where
  letters c mem := form.letters c (List.mem_of_mem_take mem)
  single dashes := form.single (dashes.trans (List.take_prefix n s).isInfix)
  front c first := form.front c (by
    rw [List.head?_take] at first
    split at first
    · cases first
    · exact first)

/-- What has the form of a slug loses by slugging only what it ends with. -/
theorem SlugForm.slugChars_eq {s : List Char} (form : SlugForm s) (short : s.length ≤ maxLength) :
    slugChars s = trimEnd isEdge s := by
  have ascii : s.filter (·.toNat < 0x80) = s :=
    List.filter_eq_self.mpr fun c mem => decide_eq_true (toNat_lt_of_isSlugLetter (form.letters c mem))
  have lower : s.map Char.toLower = s := by
    rw [List.map_congr_left fun c mem => (kept_of_isSlugLetter (form.letters c mem)).1, List.map_id']
  have kept : s.filter isSlugChar = s :=
    List.filter_eq_self.mpr fun c mem => (kept_of_isSlugLetter (form.letters c mem)).2.1
  have joined : joinGaps s = s :=
    joinGaps_of_single (fun c mem => (kept_of_isSlugLetter (form.letters c mem)).2.2) form.single
  have whole : wholeSlug s = trimEnd isEdge s := by
    rw [wholeSlug, ascii, lower, kept, joined, trimBy, Chars.trimStart, Chars.dropWhile_of_head form.front]
  obtain ⟨after, -, split⟩ := Chars.exists_trimEnd isEdge s
  have length := congrArg List.length split
  rw [List.length_append] at length
  rw [Naming.slugChars_eq, whole, List.take_of_length_le (by omega)]

/-- A slug ends with a dash or an underscore when the text was cut behind one. -/
theorem getLast?_slugChars {s : List Char} {c : Char} (edge : isEdge c) :
    (slugChars s).getLast? = some c ↔ (wholeSlug s)[maxLength - 1]? = some c := by
  rw [slugChars_eq]
  by_cases short : (wholeSlug s).length < maxLength
  · -- An uncut slug is trimmed, and there is no character at the cut.
    rw [List.take_of_length_le (Nat.le_of_lt short), List.getElem?_eq_none (by omega)]
    refine iff_of_false (fun last => ?_) (Option.some_ne_none c).symm
    rw [Chars.last_trimBy isEdge _ c last] at edge
    cases edge
  · have length : ((wholeSlug s).take maxLength).length = maxLength := by
      rw [List.length_take]
      omega
    rw [List.getLast?_eq_getElem?, length, List.getElem?_take_of_lt (by decide)]

/-- **The form of a slug.** It has at most the greatest length, is made of small letters, digits, underscores and
dashes, has no two dashes next to each other, and starts with neither a dash nor an underscore. It ends with one of them
exactly when its text was cut behind it; slugging it again drops what it ends with, and changes nothing else. -/
theorem slug_normal_but_for_cut (s : String) :
    (slug s).length ≤ maxLength ∧
    (∀ c ∈ (slug s).toList, isSlugLetter c) ∧
    Single (slug s).toList ∧
    (∀ c ∈ (slug s).toList.head?, isEdge c = false) ∧
    (∀ c, isEdge c → ((slug s).toList.getLast? = some c ↔ (wholeSlug s.toList)[maxLength - 1]? = some c)) ∧
    (slug (slug s)).toList = trimEnd isEdge (slug s).toList ∧
    (slug (slug s) = slug s ↔ ∀ c ∈ (slug s).toList.getLast?, isEdge c = false) := by
  have form : SlugForm (slugChars s.toList) := (slugForm_wholeSlug _).take _
  have short : (slugChars s.toList).length ≤ maxLength := List.length_take_le _ _
  have again := form.slugChars_eq short
  rw [← String.toList_inj, ← String.length_toList, slug, slug, String.toList_ofList, String.toList_ofList, again]
  refine ⟨short, form.letters, form.single, form.front, fun c edge => getLast?_slugChars edge, rfl, fun same => ?_,
    fun back => ?_⟩
  · rw [← same]
    exact Chars.last_trimEnd _ _
  · rw [trimEnd, Chars.dropWhile_of_head (by simpa using back), List.reverse_reverse]

/-- A hundred words of four letters. -/
def hundredWords : List Char :=
  (List.replicate 100 "word ".toList).flatten

/-- Every fifth character of the slug of so many words is a dash, and so is the last one that a slug has place for. -/
theorem slug_of_words_ends_in_dash :
    let words := String.ofList hundredWords
    (slug words).length = maxLength ∧ (slug words).toList.getLast? = some '-' ∧ slug (slug words) ≠ slug words := by
  have slugged : slugChars hundredWords = (List.replicate 36 "word-".toList).flatten := by decide +kernel
  have again : slugChars (slugChars hundredWords) ≠ slugChars hundredWords := by
    rw [slugged]
    decide +kernel
  intro words
  rw [ne_eq, ← String.toList_inj, ← String.length_toList]
  simp only [slug, words, String.toList_ofList]
  refine ⟨?_, ?_, again⟩
  all_goals
    rw [slugged]
    decide +kernel

end RenderFarm.Naming

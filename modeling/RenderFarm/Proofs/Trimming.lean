import Mathlib.Data.List.Infix
import Mathlib.Data.List.TakeWhile
import RenderFarm.Text.Blank

/-!
Trimming. A text is what is left of it with characters of the class around it, and what is left neither starts nor
ends with one of them. A run of a class ends where another character follows.
-/

namespace RenderFarm.Chars

variable {p : Char → Bool} {s before after : List Char}

/-! ## Any class -/

theorem dropWhile_of_head (front : ∀ c ∈ s.head?, p c = false) : s.dropWhile p = s := by
  cases s with
  | nil => rfl
  | cons c s => simp [front c rfl]

/-- A text that neither starts nor ends with a character of the class is left as it is. -/
theorem trimBy_of_ends (front : ∀ c ∈ s.head?, p c = false) (back : ∀ c ∈ s.getLast?, p c = false) :
    trimBy p s = s := by
  unfold trimBy trimStart trimEnd
  rw [dropWhile_of_head front, dropWhile_of_head (by simpa using back), List.reverse_reverse]

/-- Characters of the class around a text do not count. -/
theorem trimBy_pad (out : ∀ c ∈ before, p c) (out' : ∀ c ∈ after, p c) (s : List Char) :
    trimBy p (before ++ s ++ after) = trimBy p s := by
  have gone : after.dropWhile p = [] := List.dropWhile_eq_nil_iff.mpr out'
  unfold trimBy trimStart trimEnd
  rw [List.append_assoc, List.dropWhile_append_of_pos out, List.dropWhile_append]
  split
  · rename_i nothing
    rw [gone, List.isEmpty_iff.mp nothing]
  · rw [List.reverse_append, List.dropWhile_append_of_pos fun c mem => out' c (List.mem_reverse.mp mem)]

theorem trimBy_between (out : ∀ c ∈ before, p c) (out' : ∀ c ∈ after, p c) (front : ∀ c ∈ s.head?, p c = false)
    (back : ∀ c ∈ s.getLast?, p c = false) : trimBy p (before ++ s ++ after) = s :=
  (trimBy_pad out out' s).trans (trimBy_of_ends front back)

theorem exists_trimEnd (p : Char → Bool) (s : List Char) : ∃ after, (∀ c ∈ after, p c) ∧ s = trimEnd p s ++ after := by
  refine ⟨(s.reverse.takeWhile p).reverse, fun c mem => List.mem_takeWhile_imp (List.mem_reverse.mp mem), ?_⟩
  unfold trimEnd
  rw [← List.reverse_append, List.takeWhile_append_dropWhile, List.reverse_reverse]

/-- A text is what is left of it, with characters of the class around it. -/
theorem exists_trimBy (p : Char → Bool) (s : List Char) :
    ∃ before after, (∀ c ∈ before, p c) ∧ (∀ c ∈ after, p c) ∧ s = before ++ trimBy p s ++ after := by
  obtain ⟨after, out, whole⟩ := exists_trimEnd p (s.dropWhile p)
  refine ⟨s.takeWhile p, after, fun c mem => List.mem_takeWhile_imp mem, out, ?_⟩
  rw [trimBy, trimStart, List.append_assoc, ← whole, List.takeWhile_append_dropWhile]

theorem trimBy_infix (p : Char → Bool) (s : List Char) : trimBy p s <:+: s := by
  obtain ⟨before, after, -, -, whole⟩ := exists_trimBy p s
  exact ⟨before, after, whole.symm⟩

/-- What is left does not end with a character of the class. -/
theorem last_trimEnd (p : Char → Bool) (s : List Char) : ∀ c ∈ (trimEnd p s).getLast?, p c = false := by
  intro c last
  unfold trimEnd at last
  rw [List.getLast?_reverse] at last
  have other := List.head?_dropWhile_not p s.reverse
  rw [last] at other
  exact other

theorem last_trimBy (p : Char → Bool) (s : List Char) : ∀ c ∈ (trimBy p s).getLast?, p c = false :=
  last_trimEnd p _

/-- What is left does not start with a character of the class. -/
theorem head_trimBy (p : Char → Bool) (s : List Char) : ∀ c ∈ (trimBy p s).head?, p c = false := by
  obtain ⟨after, -, whole⟩ := exists_trimEnd p (s.dropWhile p)
  intro c first
  have start : (s.dropWhile p).head? = some c := by
    rw [trimBy, trimStart] at first
    rw [whole, List.head?_append, first]
    rfl
  have other := List.head?_dropWhile_not p s
  rw [start] at other
  exact other

/-! ## Runs -/

variable {run rest : List Char}

/-- A run of a class ends where a character outside of it follows. -/
theorem takeWhile_run (inside : ∀ c ∈ run, p c) (ends : ∀ c, rest.head? = some c → p c = false) :
    (run ++ rest).takeWhile p = run := by
  rw [List.takeWhile_append_of_pos inside]
  cases rest with
  | nil => simp
  | cons c rest => simp [ends c rfl]

theorem dropWhile_run (inside : ∀ c ∈ run, p c) (ends : ∀ c, rest.head? = some c → p c = false) :
    (run ++ rest).dropWhile p = rest := by
  rw [List.dropWhile_append_of_pos inside]
  cases rest with
  | nil => rfl
  | cons c rest => simp [ends c rfl]

/-- A text starts with a run of a class, or with what follows when there is no run. -/
theorem head?_run (inside : ∀ c ∈ run, p c) {c : Char} (first : (run ++ rest).head? = some c) :
    p c ∨ run = [] ∧ rest.head? = some c := by
  cases run with
  | nil => exact .inr ⟨rfl, first⟩
  | cons d run => exact .inl (inside c (Option.some.inj first ▸ List.mem_cons_self))

/-! ## Blanks -/

/-- Blanks end where something visible follows. -/
theorem dropWhile_gap {gap : List Char} (blank : ∀ c ∈ gap, isBlank c) {c : Char} (visible : isBlank c = false)
    (rest : List Char) : (gap ++ c :: rest).dropWhile isBlank = c :: rest :=
  dropWhile_run blank (by simp [visible])

theorem takeWhile_gap {gap : List Char} (blank : ∀ c ∈ gap, isBlank c) {c : Char} (visible : isBlank c = false)
    (rest : List Char) : (gap ++ c :: rest).takeWhile isBlank = gap :=
  takeWhile_run blank (by simp [visible])

theorem trim_of_ends (front : ∀ c ∈ s.head?, isBlank c = false) (back : ∀ c ∈ s.getLast?, isBlank c = false) :
    trim s = s :=
  trimBy_of_ends front back

theorem trim_pad (blank : ∀ c ∈ before, isBlank c) (blank' : ∀ c ∈ after, isBlank c) (s : List Char) :
    trim (before ++ s ++ after) = trim s :=
  trimBy_pad blank blank' s

theorem trim_append_blanks (blank : ∀ c ∈ after, isBlank c) (s : List Char) : trim (s ++ after) = trim s :=
  trim_pad (List.forall_mem_nil _) blank s

theorem trim_blanks_append (blank : ∀ c ∈ before, isBlank c) (s : List Char) : trim (before ++ s) = trim s := by
  rw [← List.append_nil (before ++ s), trim_pad blank (List.forall_mem_nil _)]

theorem head_trim (s : List Char) : ∀ c ∈ (trim s).head?, isBlank c = false :=
  head_trimBy isBlank s

theorem last_trim (s : List Char) : ∀ c ∈ (trim s).getLast?, isBlank c = false :=
  last_trimBy isBlank s

theorem trim_eq_nil_iff : trim s = [] ↔ ∀ c ∈ s, isBlank c := by
  constructor
  · intro nothing
    obtain ⟨before, after, blank, blank', whole⟩ := exists_trimBy isBlank s
    rw [show trimBy isBlank s = [] from nothing, List.append_nil] at whole
    rw [whole]
    exact List.forall_mem_append.mpr ⟨blank, blank'⟩
  · exact fun blank => trim_append_blanks blank []

/-- A text without blanks at its ends. -/
structure Trimmed (s : List Char) : Prop where
  front : ∀ c ∈ s.head?, isBlank c = false
  back : ∀ c ∈ s.getLast?, isBlank c = false

theorem trimmed_trim (s : List Char) : Trimmed (trim s) :=
  ⟨head_trim s, last_trim s⟩

theorem Trimmed.trim_eq (trimmed : Trimmed s) : trim s = s :=
  trim_of_ends trimmed.front trimmed.back

/-- A text without blanks at its ends keeps what follows it up to the last character that is no blank. -/
theorem Trimmed.trim_append (trimmed : Trimmed s) (filled : s ≠ []) (rest : List Char) :
    trim (s ++ rest) = s ++ trimEnd isBlank rest := by
  obtain ⟨after, blank, whole⟩ := exists_trimEnd isBlank rest
  have kept := trim_append_blanks blank (s ++ trimEnd isBlank rest)
  rw [List.append_assoc, ← whole] at kept
  rw [kept]
  refine trim_of_ends ?_ fun c last => ?_
  · rw [List.head?_append_of_ne_nil _ filled]
    exact trimmed.front
  · rw [List.getLast?_append, Option.mem_def, Option.or_eq_some_iff] at last
    obtain last | ⟨-, last⟩ := last
    · exact last_trimEnd isBlank rest c last
    · exact trimmed.back c last

theorem trim_trimEnd (s : List Char) : trim (trimEnd isBlank s) = trim s := by
  obtain ⟨after, blank, whole⟩ := exists_trimEnd isBlank s
  conv_rhs => rw [whole, trim_append_blanks blank]

/-! ## Letters and digits -/

theorem toNat_of_isAlphanum {c : Char} (inside : c.isAlphanum) :
    65 ≤ c.toNat ∧ c.toNat ≤ 90 ∨ 97 ≤ c.toNat ∧ c.toNat ≤ 122 ∨ 48 ≤ c.toNat ∧ c.toNat ≤ 57 := by
  have bounds {low high : Prop} [Decidable low] [Decidable high] (both : (decide low && decide high) = true) :
      low ∧ high :=
    (Bool.and_eq_true_iff.mp both).imp of_decide_eq_true of_decide_eq_true
  obtain letter | digit := Bool.or_eq_true_iff.mp inside
  · obtain upper | lower := Bool.or_eq_true_iff.mp letter
    · exact .inl (of_decide_eq_true upper)
    · exact .inr (.inl (bounds lower))
  · exact .inr (.inr (bounds digit))

theorem isBlank_of_isAlphanum {c : Char} (inside : c.isAlphanum) : isBlank c = false := by
  have codes := toNat_of_isAlphanum inside
  simp only [isBlank, Bool.or_eq_false_iff, Bool.and_eq_false_iff, decide_eq_false_iff_not, beq_eq_false_iff_ne]
  omega

end RenderFarm.Chars

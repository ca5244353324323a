import Mathlib.Data.List.Infix
import RenderFarm.Proofs.Files.Components
import RenderFarm.Proofs.Text

/-!
Replacement of a pattern, from left to right and without overlap. A text is looked at as its parts between separators:
a pattern that has separators at both ends is replaced where its parts stand among those of the text, one that ends in a
separator at the ends of parts, and one without a separator within parts.
-/

namespace RenderFarm.Chars

variable {pat rep word s t : List Char} {sep : Char}

/-! ## Occurrences -/

theorem replaceFrom_eq (n : Nat) (s : List Char) : replaceFrom pat rep n s = replace pat rep (s.drop n) := by
  induction s generalizing n with
  | nil => cases n <;> rfl
  | cons c s ih =>
    cases n with
    | zero => rfl
    | succ n => exact ih n

theorem replace_append_self (filled : pat ≠ []) (s : List Char) :
    replace pat rep (pat ++ s) = rep ++ replace pat rep s := by
  obtain ⟨p, pat, rfl⟩ := List.exists_cons_of_ne_nil filled
  have occurs : (p :: pat).isPrefixOf (p :: (pat ++ s)) := List.isPrefixOf_iff_prefix.mpr ⟨s, rfl⟩
  rw [List.cons_append, replace, replaceFrom, if_pos occurs, replaceFrom_eq]
  simp

theorem replace_cons {c : Char} (other : ¬ pat <+: c :: s) : replace pat rep (c :: s) = c :: replace pat rep s := by
  rw [replace, replaceFrom, if_neg (by rwa [List.isPrefixOf_iff_prefix])]
  rfl

/-- A text and what becomes of it are built together, by occurrences of the pattern and by other characters. -/
theorem replace_induction {motive : List Char → List Char → Prop} (filled : pat ≠ []) (nil : motive [] [])
    (found : ∀ s, motive s (replace pat rep s) → motive (pat ++ s) (rep ++ replace pat rep s))
    (other : ∀ c s, ¬ pat <+: c :: s → motive s (replace pat rep s) → motive (c :: s) (c :: replace pat rep s))
    (s : List Char) : motive s (replace pat rep s) := by
  induction length : s.length using Nat.strong_induction_on generalizing s with
  | h n ih =>
    cases s with
    | nil => exact nil
    | cons c rest =>
      by_cases occurs : pat <+: c :: rest
      · obtain ⟨s, whole⟩ := occurs
        rw [← whole, replace_append_self filled]
        refine found s (ih s.length ?_ s rfl)
        rw [← length, ← whole, List.length_append]
        exact Nat.lt_add_of_pos_left (List.length_pos_iff.mpr filled)
      · rw [replace_cons occurs]
        exact other c rest occurs (ih rest.length (by simp [← length]) rest rfl)

theorem replace_of_absent (none : ¬ pat <:+: s) : replace pat rep s = s := by
  induction s with
  | nil => rfl
  | cons c s ih =>
    rw [List.infix_cons_iff, not_or] at none
    rw [replace_cons none.1, ih none.2]

theorem infix_replace (filled : pat ≠ []) (occurs : pat <:+: s) : rep <:+: replace pat rep s := by
  refine replace_induction (motive := fun s t => pat <:+: s → rep <:+: t) filled ?_ ?_ ?_ s occurs
  · exact fun nothing => absurd (List.infix_nil.mp nothing) filled
  · exact fun s _ _ => (List.prefix_append rep _).isInfix
  · exact fun c s none ih occurs => ((List.infix_cons_iff.mp occurs).resolve_left none |> ih).trans
      (List.suffix_cons c _).isInfix

/-- A text gets shorter by a replacement that is shorter than the pattern, exactly where that occurs. -/
theorem length_replace (shorter : rep.length < pat.length) (s : List Char) :
    (replace pat rep s).length ≤ s.length ∧ (pat <:+: s → (replace pat rep s).length < s.length) := by
  have filled : pat ≠ [] := List.ne_nil_of_length_pos (by omega)
  refine replace_induction (motive := fun s t => t.length ≤ s.length ∧ (pat <:+: s → t.length < s.length))
    filled ?_ ?_ ?_ s
  · exact ⟨Nat.le_refl _, fun nothing => absurd (List.infix_nil.mp nothing) filled⟩
  · intro s ih
    rw [List.length_append, List.length_append]
    exact ⟨by omega, fun _ => by omega⟩
  · intro c s none ih
    refine ⟨Nat.succ_le_succ ih.1, fun occurs => ?_⟩
    exact Nat.succ_lt_succ (ih.2 ((List.infix_cons_iff.mp occurs).resolve_left none))

/-- A first character that no occurrence starts with is kept. -/
theorem head?_replace {c : Char} (first : s.head? = some c) (other : pat.head? ≠ some c) (filled : pat ≠ []) :
    (replace pat rep s).head? = some c := by
  obtain ⟨rest, rfl⟩ := List.head?_eq_some_iff.mp first
  obtain ⟨p, pat, rfl⟩ := List.exists_cons_of_ne_nil filled
  rw [replace_cons fun occurs => other (congrArg some (List.cons_prefix_cons.mp occurs).1)]
  rfl

/-- A last character that no occurrence ends with is kept. -/
theorem getLast?_replace {c : Char} (last : s.getLast? = some c) (other : pat.getLast? ≠ some c) (filled : pat ≠ []) :
    (replace pat rep s).getLast? = some c := by
  refine (replace_induction (motive := fun s t => (s = [] → t = []) ∧ (s.getLast? = some c → t.getLast? = some c))
    filled ⟨fun _ => rfl, id⟩ ?_ ?_ s).2 last
  · intro s ih
    refine ⟨fun nothing => absurd (List.append_eq_nil_iff.mp nothing).1 filled, fun last => ?_⟩
    cases s with
    | nil => exact absurd (by simpa using last) other
    | cons d s =>
      rw [List.getLast?_append_of_ne_nil _ (List.cons_ne_nil d s)] at last
      rw [List.getLast?_append, ih.2 last]
      rfl
  · intro d s _ ih
    refine ⟨nofun, fun last => ?_⟩
    cases s with
    | nil => rwa [ih.1 rfl]
    | cons e s =>
      rw [List.getLast?_cons_cons] at last
      rw [List.getLast?_cons, ih.2 last]
      rfl

/-- Two texts are replaced apart when no occurrence reaches from one into the other. -/
theorem replace_append (filled : pat ≠ []) (apart : ∀ x y, x ≠ [] → y ≠ [] → pat = x ++ y → x <:+ s → ¬ y <+: t) :
    replace pat rep (s ++ t) = replace pat rep s ++ replace pat rep t := by
  induction length : s.length using Nat.strong_induction_on generalizing s with
  | h n ih =>
    cases s with
    | nil => rfl
    | cons c rest =>
      by_cases occurs : pat <+: c :: rest
      · obtain ⟨s, whole⟩ := occurs
        rw [← whole, List.append_assoc, replace_append_self filled, replace_append_self filled, List.append_assoc]
        congr 1
        refine ih s.length ?_ (fun x y hx hy split ends => apart x y hx hy split ?_) rfl
        · rw [← length, ← whole, List.length_append]
          exact Nat.lt_add_of_pos_left (List.length_pos_iff.mpr filled)
        · rw [← whole]
          exact ends.trans (List.suffix_append pat s)
      · have none : ¬ pat <+: c :: (rest ++ t) := by
          rintro ⟨after, whole⟩
          rw [← List.cons_append, List.append_eq_append_iff] at whole
          obtain ⟨y, first, rfl⟩ | ⟨y, first, rest'⟩ := whole
          · exact occurs ⟨y, first.symm⟩
          · by_cases empty : y = []
            · rw [empty, List.append_nil] at first
              exact occurs (first ▸ List.prefix_refl _)
            · exact apart (c :: rest) y (List.cons_ne_nil _ _) empty first (List.suffix_refl _) ⟨after, rest'.symm⟩
        rw [List.cons_append, replace_cons none, replace_cons occurs, List.cons_append]
        congr 1
        exact ih rest.length (by simp [← length])
          (fun x y hx hy split ends => apart x y hx hy split (ends.trans (List.suffix_cons c rest))) rfl

/-! ## Parts between separators -/

theorem splitOn_cut (plain : sep ∉ s) (t : List Char) : splitOn sep (s ++ sep :: t) = s :: splitOn sep t := by
  rw [splitOn_append_cons, splitOn_of_not_mem plain]
  rfl

theorem exists_splitOn_cons (sep : Char) (s : List Char) : ∃ part parts, splitOn sep s = part :: parts :=
  List.exists_cons_of_ne_nil (splitOn_ne_nil s)

/-- A text is one part, or a part that a separator and a text follow. -/
theorem parts_cases (sep : Char) (s : List Char) :
    sep ∉ s ∨ ∃ part t, sep ∉ part ∧ s = part ++ sep :: t := by
  by_cases mem : sep ∈ s
  · obtain ⟨part, t, rfl, plain⟩ := List.eq_append_cons_of_mem mem
    exact .inr ⟨part, t, plain, rfl⟩
  · exact .inl mem

theorem parts_induction {motive : List Char → Prop} (sep : Char) (one : ∀ s, sep ∉ s → motive s)
    (cut : ∀ part t, sep ∉ part → motive t → motive (part ++ sep :: t)) (s : List Char) : motive s := by
  induction length : s.length using Nat.strong_induction_on generalizing s with
  | h n ih =>
    obtain plain | ⟨part, t, plain, rfl⟩ := parts_cases sep s
    · exact one s plain
    · refine cut part t plain (ih t.length ?_ t rfl)
      rw [← length, List.length_append, List.length_cons]
      omega

theorem prefix_cut_iff {x y part : List Char} (plain : sep ∉ word) (plain' : sep ∉ part) :
    word ++ sep :: x <+: part ++ sep :: y ↔ word = part ∧ x <+: y := by
  induction word generalizing part with
  | nil =>
    cases part with
    | nil => simp
    | cons d part =>
      have other : sep ≠ d := fun same => plain' (same ▸ List.mem_cons_self)
      simp [List.cons_prefix_cons, other]
  | cons c word ih =>
    rw [List.mem_cons, not_or] at plain
    cases part with
    | nil => simp [List.cons_prefix_cons, Ne.symm plain.1]
    | cons d part =>
      rw [List.mem_cons, not_or] at plain'
      simp [List.cons_prefix_cons, ih plain.2 plain'.2, and_assoc]

theorem prefix_before_iff {part : List Char} (plain : sep ∉ word) : word <+: part ++ sep :: t ↔ word <+: part := by
  induction part generalizing word with
  | nil =>
    cases word with
    | nil => simp
    | cons c word =>
      have other : c ≠ sep := fun same => plain (same ▸ List.mem_cons_self)
      simp [List.cons_prefix_cons, other]
  | cons d part ih =>
    cases word with
    | nil => simp
    | cons c word =>
      rw [List.cons_append, List.cons_prefix_cons, List.cons_prefix_cons,
        ih fun mem => plain (List.mem_cons_of_mem c mem)]

/-- Parts of which each is followed by a separator. -/
def closed (sep : Char) (ws : List (List Char)) : List Char :=
  ws.flatMap (· ++ [sep])

variable {ws rs : List (List Char)}

theorem closed_cons (part : List Char) (ws : List (List Char)) :
    closed sep (part :: ws) = part ++ sep :: closed sep ws := by
  simp [closed]

theorem splitOn_closed_append (plain : ∀ w ∈ ws, sep ∉ w) (s : List Char) :
    splitOn sep (closed sep ws ++ s) = ws ++ splitOn sep s := by
  induction ws with
  | nil => rfl
  | cons w ws ih =>
    obtain ⟨plain, plain'⟩ := List.forall_mem_cons.mp plain
    rw [closed_cons, List.append_assoc, List.cons_append, splitOn_cut plain, ih plain', List.cons_append]

/-- A text is its parts but the last one, each followed by the separator, and the last one. -/
theorem eq_of_splitOn {last : List Char} (split : splitOn sep s = ws ++ [last]) : s = closed sep ws ++ last := by
  induction s using parts_induction sep generalizing ws with
  | one s single =>
    rw [splitOn_of_not_mem single, ← List.nil_append [s]] at split
    obtain ⟨rfl, whole⟩ := List.append_inj' split rfl
    exact List.singleton_inj.mp whole
  | cut part t plain ih =>
    rw [splitOn_cut plain] at split
    cases ws with
    | nil => exact absurd (List.cons.inj split).2 (splitOn_ne_nil t)
    | cons w ws =>
      obtain ⟨rfl, rest⟩ := List.cons.inj split
      rw [closed_cons, List.append_assoc, List.cons_append, ← ih rest]

theorem dropLast_splitOn_cut {part : List Char} (plain : sep ∉ part) (t : List Char) :
    (splitOn sep (part ++ sep :: t)).dropLast = part :: (splitOn sep t).dropLast := by
  rw [splitOn_cut plain, List.dropLast_cons_of_ne_nil (splitOn_ne_nil t)]

theorem closed_prefix_iff (plain : ∀ w ∈ ws, sep ∉ w) (t : List Char) :
    closed sep ws <+: t ↔ ws <+: (splitOn sep t).dropLast := by
  induction ws generalizing t with
  | nil => simp [closed]
  | cons w ws ih =>
    obtain ⟨plain, plain'⟩ := List.forall_mem_cons.mp plain
    obtain single | ⟨part, t, plainPart, rfl⟩ := parts_cases sep t
    · rw [splitOn_of_not_mem single, closed_cons]
      refine iff_of_false (fun whole => single (whole.subset ?_)) (by simp)
      simp
    · rw [dropLast_splitOn_cut plainPart, closed_cons, prefix_cut_iff plain plainPart, ih plain',
        List.cons_prefix_cons]

/-- A separator and closed parts occur where the parts stand between the first part and the last one. -/
theorem fenced_infix_iff (filled : ws ≠ []) (plain : ∀ w ∈ ws, sep ∉ w) (s : List Char) :
    sep :: closed sep ws <:+: s ↔ ws <:+: (splitOn sep s).tail.dropLast := by
  induction s using parts_induction sep with
  | one s single =>
    rw [splitOn_of_not_mem single]
    refine iff_of_false (fun occurs => single (occurs.subset List.mem_cons_self)) ?_
    simpa using filled
  | cut part t plainPart ih =>
    have first : sep :: closed sep ws <:+: part ++ sep :: t ↔
        sep :: closed sep ws <+: sep :: t ∨ sep :: closed sep ws <:+: t := by
      rw [← List.infix_cons_iff]
      induction part with
      | nil => rfl
      | cons c part ih' =>
        rw [List.mem_cons, not_or] at plainPart
        rw [List.cons_append, List.infix_cons_iff, ih' plainPart.2, or_iff_right]
        exact fun whole => plainPart.1 (List.cons_prefix_cons.mp whole).1
    rw [first, List.cons_prefix_cons, and_iff_right rfl, closed_prefix_iff plain, ih, splitOn_cut plainPart,
      List.tail_cons]
    obtain ⟨p, parts, split⟩ := exists_splitOn_cons sep t
    rw [split]
    cases parts with
    | nil => simp [filled]
    | cons q parts => rw [List.dropLast_cons_of_ne_nil (List.cons_ne_nil q parts), List.tail_cons, List.infix_cons_iff]

/-- A text without a separator occurs within a part. -/
theorem infix_iff_part (plain : sep ∉ pat) (s : List Char) :
    pat <:+: s ↔ ∃ part ∈ splitOn sep s, pat <:+: part := by
  induction s using parts_induction sep with
  | one s single => simp [splitOn_of_not_mem single]
  | cut part t plainPart ih =>
    have first : pat <:+: part ++ sep :: t ↔ pat <:+: part ∨ pat <:+: t := by
      clear ih
      induction part with
      | nil =>
        rw [List.nil_append, List.infix_cons_iff, List.infix_nil, or_congr_left]
        have first : pat <+: [] ++ sep :: t ↔ pat <+: [] := prefix_before_iff plain
        rwa [List.nil_append, List.prefix_nil] at first
      | cons c part ih' =>
        rw [List.cons_append, List.infix_cons_iff, ih' (fun mem => plainPart (List.mem_cons_of_mem c mem)),
          ← List.cons_append, prefix_before_iff plain, List.infix_cons_iff, or_assoc]
    rw [first, ih, splitOn_cut plainPart]
    simp

/-- A text that a separator follows occurs at the end of a part that is not the last one. -/
theorem followed_infix_iff (plain : sep ∉ word) (s : List Char) :
    word ++ [sep] <:+: s ↔ ∃ part ∈ (splitOn sep s).dropLast, word <:+ part := by
  induction s using parts_induction sep with
  | one s single =>
    rw [splitOn_of_not_mem single]
    exact iff_of_false (fun occurs => single (occurs.subset (by simp))) (by simp)
  | cut part t plainPart ih =>
    have first : word ++ [sep] <:+: part ++ sep :: t ↔ word <:+ part ∨ word ++ [sep] <:+: t := by
      clear ih
      induction part with
      | nil =>
        have whole := prefix_cut_iff (x := []) (y := t) plain plainPart
        rw [List.nil_append] at whole
        rw [List.nil_append, List.infix_cons_iff, whole, List.suffix_nil]
        simp
      | cons c part ih' =>
        have whole := prefix_cut_iff (x := []) (y := t) plain plainPart
        rw [List.cons_append] at whole
        rw [List.cons_append, List.infix_cons_iff, whole, ih' (fun mem => plainPart (List.mem_cons_of_mem c mem)),
          List.suffix_cons_iff]
        simp [or_assoc]
    rw [first, ih, dropLast_splitOn_cut plainPart]
    simp

/-- A separator and a text end a text when that is its last part, and not the only one. -/
theorem cut_suffix_iff (plain : sep ∉ word) (s : List Char) :
    sep :: word <:+ s ↔ (splitOn sep s).tail.getLast? = some word := by
  induction s using parts_induction sep with
  | one s single =>
    rw [splitOn_of_not_mem single]
    exact iff_of_false (fun ends => single (ends.subset List.mem_cons_self)) nofun
  | cut part t plainPart ih =>
    have first : sep :: word <:+ part ++ sep :: t ↔ t = word ∨ sep :: word <:+ t := by
      clear ih
      induction part with
      | nil =>
        rw [List.nil_append, List.suffix_cons_iff, List.cons.injEq, and_iff_right rfl]
        exact or_congr_left eq_comm
      | cons c part ih' =>
        rw [List.mem_cons, not_or] at plainPart
        rw [List.cons_append, List.suffix_cons_iff, ih' plainPart.2, or_iff_right]
        exact fun whole => plainPart.1 (List.cons.inj whole).1
    rw [first, ih, splitOn_cut plainPart, List.tail_cons]
    obtain single | ⟨q, t, plainQ, rfl⟩ := parts_cases sep t
    · simp [splitOn_of_not_mem single]
    · have other : q ++ sep :: t ≠ word := fun whole => plain (whole ▸ by simp)
      obtain ⟨p, parts, split⟩ := exists_splitOn_cons sep t
      rw [splitOn_cut plainQ, List.tail_cons, split, List.getLast?_cons_cons]
      exact or_iff_right other

/-! ## Replacement within parts -/

theorem mem_replace (filled : pat ≠ []) {c : Char} (mem : c ∈ replace pat rep s) : c ∈ s ∨ c ∈ rep := by
  refine replace_induction (motive := fun s t => c ∈ t → c ∈ s ∨ c ∈ rep) filled nofun ?_ ?_ s mem
  · intro s ih mem
    obtain new | mem := List.mem_append.mp mem
    · exact .inr new
    · exact (ih mem).imp_left (List.mem_append_right pat)
  · intro d s _ ih mem
    obtain rfl | mem := List.mem_cons.mp mem
    · exact .inl List.mem_cons_self
    · exact (ih mem).imp_left (List.mem_cons_of_mem d)

/-- A pattern without a separator is replaced in each part. -/
theorem splitOn_replace_within (filled : pat ≠ []) (plain : sep ∉ pat) (plain' : sep ∉ rep) (s : List Char) :
    splitOn sep (replace pat rep s) = (splitOn sep s).map (replace pat rep) := by
  induction s using parts_induction sep with
  | one s single =>
    have single' : sep ∉ replace pat rep s := fun mem => (mem_replace filled mem).elim single plain'
    rw [splitOn_of_not_mem single, splitOn_of_not_mem single', List.map_singleton]
  | cut part t plainPart ih =>
    have outside (y : List Char) (some : y ≠ []) (inside : ∀ c ∈ y, c ∈ pat) : ¬ y <+: sep :: t := by
      obtain ⟨c, y, rfl⟩ := List.exists_cons_of_ne_nil some
      intro first
      exact plain ((List.cons_prefix_cons.mp first).1 ▸ inside c List.mem_cons_self)
    have apart : replace pat rep (part ++ sep :: t) = replace pat rep part ++ sep :: replace pat rep t := by
      rw [replace_append filled, replace_cons (outside pat filled fun _ mem => mem)]
      intro x y _ some split _
      exact outside y some fun c mem => split ▸ List.mem_append_right x mem
    have plainPart' : sep ∉ replace pat rep part := fun mem => (mem_replace filled mem).elim plainPart plain'
    rw [apart, splitOn_cut plainPart, splitOn_cut plainPart', ih, List.map_cons]

/-! ## Replacement at the ends of parts -/

/-- What comes before a word that ends a text, or else the text. -/
def withoutSuffix (word : List Char) : List Char → List Char
  | [] => []
  | c :: s => if word = c :: s then [] else c :: withoutSuffix word s

theorem withoutSuffix_cases (filled : word ≠ []) (s : List Char) :
    (∃ before, s = before ++ word ∧ withoutSuffix word s = before) ∨ ¬ word <:+ s ∧ withoutSuffix word s = s := by
  induction s with
  | nil => exact .inr ⟨fun none => filled (List.suffix_nil.mp none), rfl⟩
  | cons c s ih =>
    unfold withoutSuffix
    split
    · rename_i whole
      exact .inl ⟨[], whole.symm, rfl⟩
    · rename_i longer
      obtain ⟨before, rfl, eq⟩ | ⟨other, eq⟩ := ih
      · exact .inl ⟨c :: before, rfl, congrArg (c :: ·) eq⟩
      · refine .inr ⟨fun ends => ?_, congrArg (c :: ·) eq⟩
        exact (List.suffix_cons_iff.mp ends).elim longer other

theorem withoutSuffix_prefix (filled : word ≠ []) (s : List Char) : withoutSuffix word s <+: s := by
  obtain ⟨before, rfl, eq⟩ | ⟨-, eq⟩ := withoutSuffix_cases filled s
  · rw [eq]
    exact List.prefix_append before word
  · rw [eq]

theorem withoutSuffix_eq_iff (filled : word ≠ []) (other : ¬ word <:+ t) :
    withoutSuffix word s = t ↔ s = t ∨ s = t ++ word := by
  obtain ⟨before, rfl, eq⟩ | ⟨none, eq⟩ := withoutSuffix_cases filled s
  · rw [eq, List.append_cancel_right_eq, or_iff_right]
    exact fun whole => other (whole ▸ List.suffix_append before word)
  · rw [eq, or_iff_left]
    exact fun longer => none (longer ▸ List.suffix_append t word)

/-- A word still ends a text without it where the word stood twice. -/
theorem suffix_withoutSuffix_iff (filled : word ≠ []) (s : List Char) :
    word <:+ withoutSuffix word s ↔ word ++ word <:+ s := by
  obtain ⟨before, rfl, eq⟩ | ⟨none, eq⟩ := withoutSuffix_cases filled s
  · rw [eq, List.suffix_append_self_iff]
  · rw [eq]
    exact iff_of_false none fun twice => none ((List.suffix_append word word).trans twice)

theorem replace_followed {part : List Char} (filled : word ≠ []) (plain : sep ∉ word) (plainPart : sep ∉ part)
    (t : List Char) : replace (word ++ [sep]) [sep] (part ++ sep :: t) =
      withoutSuffix word part ++ sep :: replace (word ++ [sep]) [sep] t := by
  induction part with
  | nil =>
    have other : ¬ word ++ [sep] <+: [] ++ sep :: t := fun whole => filled ((prefix_cut_iff plain plainPart).mp whole).1
    exact replace_cons other
  | cons c part ih =>
    unfold withoutSuffix
    split
    · rename_i whole
      have found : replace (word ++ [sep]) [sep] ((word ++ [sep]) ++ t) = [sep] ++ replace (word ++ [sep]) [sep] t :=
        replace_append_self (by simp) t
      rw [List.append_assoc] at found
      rwa [← whole]
    · rename_i longer
      have other : ¬ word ++ [sep] <+: (c :: part) ++ sep :: t :=
        fun whole => longer ((prefix_cut_iff plain plainPart).mp whole).1
      exact (replace_cons other).trans (congrArg (c :: ·) (ih fun mem => plainPart (List.mem_cons_of_mem c mem)))

/-- Parts without a word at their ends, the last one left as it is. -/
def stripped (word : List Char) (parts : List (List Char)) : List (List Char) :=
  parts.dropLast.map (withoutSuffix word) ++ parts.getLast?.toList

theorem stripped_concat (word : List Char) (parts : List (List Char)) (last : List Char) :
    stripped word (parts ++ [last]) = parts.map (withoutSuffix word) ++ [last] := by
  simp [stripped]

/-- A word that a separator follows is replaced by the separator at the end of each part but the last one. -/
theorem splitOn_replace_followed (filled : word ≠ []) (plain : sep ∉ word) (s : List Char) :
    splitOn sep (replace (word ++ [sep]) [sep] s) = stripped word (splitOn sep s) := by
  induction s using parts_induction sep with
  | one s single =>
    have none : ¬ word ++ [sep] <:+: s := fun occurs => single (occurs.subset (by simp))
    rw [replace_of_absent none, splitOn_of_not_mem single]
    rfl
  | cut part t plainPart ih =>
    have plain' : sep ∉ withoutSuffix word part := by
      obtain ⟨before, rfl, eq⟩ | ⟨-, eq⟩ := withoutSuffix_cases filled part
      · rw [eq]
        exact fun mem => plainPart (List.mem_append_left word mem)
      · rwa [eq]
    obtain ⟨p, parts, split⟩ := exists_splitOn_cons sep t
    rw [replace_followed filled plain plainPart, splitOn_cut plain', splitOn_cut plainPart, ih, split]
    simp [stripped]

/-! ## Replacement of parts -/

/-- Parts in which `ws` becomes `rs`, from left to right. The part behind an occurrence is passed over, for the
separator in front of it is used up. -/
inductive Merges (ws rs : List (List Char)) : List (List Char) → List (List Char) → Prop
  | nil : Merges ws rs [] []
  | last : Merges ws rs ws rs
  | found (part : List Char) {parts parts' : List (List Char)} (h : Merges ws rs parts parts') :
      Merges ws rs (ws ++ part :: parts) (rs ++ part :: parts')
  | other {part : List Char} {parts parts' : List (List Char)} (other : ¬ ws <+: part :: parts)
      (h : Merges ws rs parts parts') : Merges ws rs (part :: parts) (part :: parts')

/-- The parts of a text, in which those between the first and the last one are merged. -/
inductive Merged (ws rs : List (List Char)) : List (List Char) → List (List Char) → Prop
  | one (part : List Char) : Merged ws rs [part] [part]
  | between (first last : List Char) {parts parts' : List (List Char)} (h : Merges ws rs parts parts') :
      Merged ws rs (first :: (parts ++ [last])) (first :: (parts' ++ [last]))

/-- What comes before the first separator is kept when the pattern starts with one. -/
theorem replace_before {first : List Char} (plain : sep ∉ first) (s : List Char) :
    replace (sep :: pat) rep (first ++ s) = first ++ replace (sep :: pat) rep s := by
  induction first with
  | nil => rfl
  | cons c first ih =>
    have other : ¬ sep :: pat <+: c :: (first ++ s) :=
      fun whole => plain ((List.cons_prefix_cons.mp whole).1 ▸ List.mem_cons_self)
    rw [List.cons_append, replace_cons other, ih fun mem => plain (List.mem_cons_of_mem c mem), List.cons_append]

theorem Merged.found {parts parts' : List (List Char)} (h : Merged ws rs parts parts') (first : List Char) :
    Merged ws rs (first :: (ws ++ parts)) (first :: (rs ++ parts')) := by
  cases h with
  | one part => exact .between first part .last
  | between part last h =>
    have longer := Merged.between first last (h.found part)
    simpa using longer

theorem Merged.other {parts parts' : List (List Char)} (h : Merged ws rs parts parts') (first : List Char)
    (other : ¬ ws <+: parts.dropLast) : Merged ws rs (first :: parts) (first :: parts') := by
  cases h with
  | one part => exact .between first part .nil
  | between part last h =>
    rw [← List.cons_append, List.dropLast_concat] at other
    exact .between first last (h.other other)

/-- A pattern with separators at both ends is replaced among the parts between the first and the last one. -/
theorem merged_replace (plain : ∀ w ∈ ws, sep ∉ w) (plain' : ∀ w ∈ rs, sep ∉ w) (s : List Char) :
    Merged ws rs (splitOn sep s) (splitOn sep (replace (sep :: closed sep ws) (sep :: closed sep rs) s)) := by
  induction length : s.length using Nat.strong_induction_on generalizing s with
  | h n ih =>
    obtain single | ⟨first, t, plainFirst, rfl⟩ := parts_cases sep s
    · have none : ¬ sep :: closed sep ws <:+: s := fun occurs => single (occurs.subset List.mem_cons_self)
      rw [replace_of_absent none, splitOn_of_not_mem single]
      exact .one s
    · have shorter : t.length < n := by
        rw [← length, List.length_append, List.length_cons]
        omega
      rw [replace_before plainFirst, splitOn_cut plainFirst]
      by_cases occurs : closed sep ws <+: t
      · obtain ⟨t, rfl⟩ := occurs
        have rest := ih t.length (by rw [List.length_append] at shorter; omega) t rfl
        rw [← List.cons_append, replace_append_self (List.cons_ne_nil _ _), List.cons_append, splitOn_cut plainFirst,
          splitOn_closed_append plain, splitOn_closed_append plain']
        exact rest.found first
      · have none : ¬ sep :: closed sep ws <+: sep :: t := fun whole => occurs (List.cons_prefix_cons.mp whole).2
        rw [replace_cons none, splitOn_cut plainFirst]
        exact (ih t.length shorter t rfl).other first (by rwa [← closed_prefix_iff plain])

/-! ## What is merged -/

theorem singleton_prefix_iff {α : Type} {a : α} {l : List α} : [a] <+: l ↔ l.head? = some a := by
  cases l <;> simp [List.cons_prefix_cons, eq_comm]

theorem head?_of_cons_prefix {α : Type} {a : α} {l l' : List α} (first : a :: l <+: l') : l'.head? = some a := by
  obtain ⟨rest, rfl⟩ := first
  rfl

namespace Merges

variable {g h a b : List Char} {parts parts' : List (List Char)}

/-- A part that is merged away is left where it stands twice. -/
theorem mem_self (merges : Merges [g] [] parts parts') : g ∈ parts' ↔ [g, g] <:+: parts := by
  induction merges with
  | nil => simp
  | last => simp [List.infix_cons_iff, List.cons_prefix_cons]
  | @found part parts parts' _ ih =>
    have here : [g, g] <:+: g :: part :: parts ↔ g = part ∨ [g, g] <:+: parts := by
      simp only [List.infix_cons_iff, List.cons_prefix_cons, List.nil_prefix, singleton_prefix_iff]
      grind
    rw [List.nil_append, List.mem_cons, ih]
    exact here.symm
  | @other part parts parts' other _ ih =>
    rw [singleton_prefix_iff, List.head?_cons, Option.some.injEq] at other
    rw [List.mem_cons, ih, List.infix_cons_iff, List.cons_prefix_cons]
    grind

/-- Any other part is left. -/
theorem mem_other (merges : Merges [g] [] parts parts') (other : h ≠ g) : h ∈ parts' ↔ h ∈ parts := by
  induction merges with
  | nil => rfl
  | last => simp [other]
  | found part _ ih => simp [other, ih]
  | other _ _ ih => simp [ih]

theorem head?_other (merges : Merges [g] [] parts parts') (other : h ≠ g) :
    parts'.head? = some h ↔ parts.head? = some h ∨ [g, h] <+: parts := by
  cases merges with
  | nil => simp
  | last => simp [List.cons_prefix_cons, Ne.symm other]
  | found part _ => simp [List.cons_prefix_cons, Ne.symm other, eq_comm]
  | other none _ =>
    rw [singleton_prefix_iff] at none
    simp_all [List.cons_prefix_cons, eq_comm]

/-- Two equal parts come to stand next to each other when at most one that is merged away is between them. -/
theorem pair_other (merges : Merges [g] [] parts parts') (other : h ≠ g) :
    [h, h] <:+: parts' ↔ [h, h] <:+: parts ∨ [h, g, h] <:+: parts := by
  induction merges with
  | nil => simp
  | last => simp [List.infix_cons_iff, List.cons_prefix_cons, other]
  | @found part parts parts' merges ih =>
    have first := merges.head?_other other
    simp only [List.nil_append, List.singleton_append, List.infix_cons_iff, List.cons_prefix_cons, ih,
      singleton_prefix_iff, first]
    grind
  | @other part parts parts' none merges ih =>
    have first := merges.head?_other other
    rw [singleton_prefix_iff] at none
    simp only [List.infix_cons_iff, List.cons_prefix_cons, ih, singleton_prefix_iff, first]
    grind

theorem head?_pair (merges : Merges [a, b] [a] parts parts') : parts'.head? = parts.head? := by
  cases merges <;> rfl

/-- A pair of which the second part is dropped is left where another second part, or another pair, follows it. -/
theorem pair_again (merges : Merges [a, b] [a] parts parts') (other : a ≠ b) :
    [a, b] <:+: parts' ↔ [a, b, a, b] <:+: parts ∨ [a, b, b] <:+: parts := by
  induction merges with
  | nil => simp
  | last => simp [List.infix_cons_iff, List.cons_prefix_cons, other]
  | @found part parts parts' merges ih =>
    have first := merges.head?_pair
    have start (l : List (List Char)) : b :: l <+: parts → parts.head? = some b := head?_of_cons_prefix
    simp only [List.cons_append, List.nil_append, List.infix_cons_iff, List.cons_prefix_cons, ih, singleton_prefix_iff,
      first]
    grind
  | @other part parts parts' none merges ih =>
    have first := merges.head?_pair
    have start (l : List (List Char)) : b :: l <+: parts → parts.head? = some b := head?_of_cons_prefix
    simp only [List.infix_cons_iff, List.cons_prefix_cons, ih, singleton_prefix_iff, first] at none ⊢
    grind

end Merges

end RenderFarm.Chars

import RenderFarm.Proofs.Trimming
import RenderFarm.Text.Line

/-!
How a text lays contents out on lines. A line shows a content with blanks around it and a comment after it, and
lines that show nothing may stand anywhere; whatever the layout, the content lines of the text are the contents.
Lines can be taken out of a text together with their ends, which leaves the others as they are.
-/

namespace RenderFarm.Chars

/-! ## Cutting at line feeds -/

/-- A line without a carriage return at its end. -/
def chop (line : List Char) : List Char :=
  if line.getLast? = some '\r' then line.dropLast else line

theorem chop_of_not_mem {line : List Char} (plain : '\r' ∉ line) : chop line = line :=
  if_neg fun last => plain (List.mem_of_getLast? last)

theorem chop_append_return (line : List Char) : chop (line ++ ['\r']) = line := by
  rw [chop, if_pos List.getLast?_concat, List.dropLast_concat]

theorem chop_cases (line : List Char) : line = chop line ∨ line = chop line ++ ['\r'] := by
  unfold chop
  split
  · rename_i last
    obtain ⟨front, rfl⟩ := List.getLast?_eq_some_iff.mp last
    exact .inr (by rw [List.dropLast_concat])
  · exact .inl rfl

theorem mem_of_mem_chop {c : Char} {line : List Char} (mem : c ∈ chop line) : c ∈ line := by
  obtain same | same := chop_cases line
  · rwa [same]
  · rw [same]
    exact List.mem_append_left _ mem

theorem chop_cons {c : Char} {line : List Char} (other : ¬ (c = '\r' ∧ line = [])) :
    chop (c :: line) = c :: chop line := by
  cases line with
  | nil => simp_all [chop]
  | cons d line =>
    unfold chop
    rw [List.getLast?_cons_cons]
    split <;> rfl

/-- A line feed ends a line, and takes a carriage return along. -/
theorem lines_ended {line : List Char} (unbroken : '\n' ∉ line) (rest : List Char) :
    lines (line ++ '\n' :: rest) = chop line :: lines rest := by
  induction line with
  | nil => simp [lines, chop]
  | cons c line ih =>
    rw [List.mem_cons, not_or] at unbroken
    by_cases returned : c = '\r' ∧ line = []
    · obtain ⟨rfl, rfl⟩ := returned
      simp [lines, chop]
    · rw [List.cons_append, lines, ih unbroken.2, chop_cons returned]
      · exact fun h => unbroken.1 h.symm
      · rintro s rfl continued
        cases line with
        | nil => exact returned ⟨rfl, rfl⟩
        | cons d line => exact unbroken.2 (by simp [(List.cons.inj continued).1])

theorem lines_append {line : List Char} (unbroken : '\n' ∉ line) (rest : List Char) :
    ∃ kept, lines (line ++ '\n' :: rest) = kept :: lines rest ∧ (line = kept ∨ line = kept ++ ['\r']) :=
  ⟨chop line, lines_ended unbroken rest, chop_cases line⟩

/-- Text without a line feed is one line, or none. -/
theorem lines_unbroken {line : List Char} (unbroken : '\n' ∉ line) :
    lines line = if line = [] then [] else [line] := by
  induction line with
  | nil => rfl
  | cons c line ih =>
    rw [List.mem_cons, not_or] at unbroken
    rw [lines, ih unbroken.2, if_neg (List.cons_ne_nil c line)]
    · cases line <;> rfl
    · exact fun h => unbroken.1 h.symm
    · rintro s rfl rfl
      exact unbroken.2 (by simp)

/-- A carriage return at the end of a line is a blank, or part of the comment. -/
theorem stripComment_return (line : List Char) : stripComment (line ++ ['\r']) = stripComment line := by
  unfold stripComment
  rw [List.takeWhile_append]
  split
  · rename_i whole
    have all : line.takeWhile (· ≠ '#') = line := (List.takeWhile_prefix _).eq_of_length whole
    rw [all]
    exact trim_append_blanks (List.all_eq_true.mp rfl) line
  · rfl

/-! ## Layouts -/

/-- A line shows a content: blanks may stand around it, and a comment may follow. -/
inductive Shows (content : List Char) : List Char → Prop
  | plain {before after : List Char} (blank : ∀ c ∈ before, isBlank c) (blank' : ∀ c ∈ after, isBlank c) :
      Shows content (before ++ content ++ after)
  | commented {before after : List Char} (blank : ∀ c ∈ before, isBlank c) (blank' : ∀ c ∈ after, isBlank c)
      (comment : List Char) : Shows content (before ++ content ++ after ++ '#' :: comment)

/-- What a line brings into a list of contents: the one that it shows, or nothing. -/
inductive OnLine : List (List Char) → List Char → Prop
  | content {content line : List Char} (shows : Shows content line) : OnLine [content] line
  | nothing {line : List Char} (shows : Shows [] line) : OnLine [] line

/-- A text has the contents on its lines, in order. The last line need not be ended. -/
inductive Laid : List (List Char) → List Char → Prop
  | last {contents : List (List Char)} {line : List Char} (unbroken : '\n' ∉ line) (on : OnLine contents line) :
      Laid contents line
  | line {now later : List (List Char)} {line rest : List Char} (unbroken : '\n' ∉ line) (on : OnLine now line)
      (laid : Laid later rest) : Laid (now ++ later) (line ++ '\n' :: rest)

/-- What can be the content of a line: it is not empty and has neither blanks at its ends nor a comment. -/
structure IsContent (s : List Char) : Prop where
  filled : s ≠ []
  trimmed : trim s = s
  plain : '#' ∉ s

instance (s : List Char) : Decidable (IsContent s) :=
  decidable_of_iff (s ≠ [] ∧ trim s = s ∧ '#' ∉ s)
    ⟨fun ⟨filled, trimmed, plain⟩ => ⟨filled, trimmed, plain⟩, fun ⟨filled, trimmed, plain⟩ => ⟨filled, trimmed, plain⟩⟩

theorem Shows.stripComment {content line : List Char} (shows : Shows content line) (plain : '#' ∉ content) :
    stripComment line = trim content := by
  have kept : ∀ {before after : List Char}, (∀ c ∈ before, isBlank c) → (∀ c ∈ after, isBlank c) →
      ∀ c ∈ before ++ content ++ after, decide (c ≠ '#') = true := by
    intro before after blank blank' c mem
    refine decide_eq_true fun sharp => ?_
    subst sharp
    rcases List.mem_append.mp mem with mem | mem
    · rcases List.mem_append.mp mem with mem | mem
      · exact absurd (blank _ mem) (by decide)
      · exact plain mem
    · exact absurd (blank' _ mem) (by decide)
  unfold Chars.stripComment
  cases shows with
  | plain blank blank' =>
    rw [List.takeWhile_eq_self_iff.mpr (kept blank blank')]
    exact trim_pad blank blank' content
  | commented blank blank' comment =>
    rw [List.takeWhile_append_of_pos (kept blank blank')]
    simpa using trim_pad blank blank' content

theorem OnLine.filter {contents : List (List Char)} {line : List Char} (on : OnLine contents line)
    (good : ∀ c ∈ contents, IsContent c) :
    [Chars.stripComment line].filter (fun s => !s.isEmpty) = contents := by
  cases on with
  | content shows =>
    have one := good _ (List.mem_singleton_self _)
    rw [shows.stripComment one.plain, one.trimmed]
    simp [one.filled]
  | nothing shows =>
    rw [shows.stripComment (by simp)]
    rfl

/-- The content lines of a text are the contents laid out in it. -/
theorem contentLines_of_laid {contents : List (List Char)} {text : List Char} (laid : Laid contents text)
    (good : ∀ c ∈ contents, IsContent c) : contentLines text = contents := by
  induction laid with
  | @last contents line unbroken on =>
    have one := on.filter good
    unfold contentLines
    rw [lines_unbroken unbroken]
    split
    · rename_i empty
      subst empty
      exact one
    · exact one
  | @line now later line rest unbroken on laid ih =>
    obtain ⟨kept, cut, same⟩ := lines_append unbroken rest
    have stripped : Chars.stripComment kept = Chars.stripComment line := by
      rcases same with rfl | rfl
      · rfl
      · rw [stripComment_return]
    have one := on.filter fun c mem => good c (List.mem_append_left _ mem)
    have others := ih fun c mem => good c (List.mem_append_right _ mem)
    unfold contentLines at others ⊢
    rw [cut, List.map_cons, stripped, ← List.singleton_append, List.filter_append, one, others]

/-! ## Lines with their ends -/

/-- A text is a line, or a line that is ended and then another text. -/
@[elab_as_elim]
theorem line_induction {motive : List Char → Prop} (last : ∀ line, '\n' ∉ line → motive line)
    (ended : ∀ line rest, '\n' ∉ line → motive rest → motive (line ++ '\n' :: rest)) (s : List Char) : motive s := by
  obtain ⟨n, length⟩ : ∃ n, s.length ≤ n := ⟨_, Nat.le_refl _⟩
  induction n generalizing s with
  | zero =>
    rw [List.eq_nil_of_length_eq_zero (Nat.le_zero.mp length)]
    exact last [] List.not_mem_nil
  | succ n ih =>
    by_cases broken : '\n' ∈ s
    · obtain ⟨line, rest, rfl, unbroken⟩ := List.eq_append_cons_of_mem broken
      exact ended line rest unbroken (ih rest (by simp at length; omega))
    · exact last s broken

theorem lines_ne_nil {s : List Char} (some : s ≠ []) : lines s ≠ [] := by
  induction s using line_induction with
  | last line unbroken =>
    rw [lines_unbroken unbroken, if_neg some]
    exact List.cons_ne_nil _ _
  | ended line rest unbroken =>
    rw [lines_ended unbroken]
    exact List.cons_ne_nil _ _

/-- The lines of a text hold no line feeds. -/
theorem not_mem_of_mem_lines {s line : List Char} (mem : line ∈ lines s) : '\n' ∉ line := by
  induction s using line_induction with
  | last whole unbroken =>
    rw [lines_unbroken unbroken] at mem
    split at mem
    · cases mem
    · rwa [List.mem_singleton.mp mem]
  | ended first rest unbroken ih =>
    rw [lines_ended unbroken] at mem
    obtain rfl | mem := List.mem_cons.mp mem
    · exact fun broken => unbroken (mem_of_mem_chop broken)
    · exact ih mem

/-- What is read as the content of a line can be one, and holds no line feeds. -/
theorem isContent_of_mem {s content : List Char} (mem : content ∈ contentLines s) : IsContent content ∧ '\n' ∉ content := by
  obtain ⟨stripped, filled⟩ := List.mem_filter.mp mem
  obtain ⟨line, among, rfl⟩ := List.mem_map.mp stripped
  have part : stripComment line <:+: line.takeWhile (· ≠ '#') := trimBy_infix isBlank _
  refine ⟨⟨by simpa using filled, (trimmed_trim _).trim_eq, fun sharp => ?_⟩, fun broken => ?_⟩
  · exact absurd (List.mem_takeWhile_imp (part.subset sharp)) (by decide)
  · exact not_mem_of_mem_lines among ((List.takeWhile_prefix _).subset (part.subset broken))

/-- Lines that are ended one by one are read back, each without a carriage return at its end. -/
theorem lines_flatMap {ls : List (List Char)} (unbroken : ∀ line ∈ ls, '\n' ∉ line) :
    lines (ls.flatMap (· ++ ['\n'])) = ls.map chop := by
  induction ls with
  | nil => rfl
  | cons line ls ih =>
    obtain ⟨first, later⟩ := List.forall_mem_cons.mp unbroken
    rw [List.flatMap_cons, List.append_assoc, List.singleton_append, lines_ended first, ih later, List.map_cons]

/-- The lines of a text, each with its end. The last one need not be ended. -/
def wholeLines : List Char → List (List Char)
  | [] => []
  | c :: s =>
    if c = '\n' then ['\n'] :: wholeLines s
    else
      match wholeLines s with
      | [] => [[c]]
      | line :: rest => (c :: line) :: rest

theorem wholeLines_append {line : List Char} (unbroken : '\n' ∉ line) (rest : List Char) :
    wholeLines (line ++ '\n' :: rest) = (line ++ ['\n']) :: wholeLines rest := by
  induction line with
  | nil => rw [List.nil_append, wholeLines, if_pos rfl, List.nil_append]
  | cons c line ih =>
    rw [List.mem_cons, not_or] at unbroken
    rw [List.cons_append, wholeLines, if_neg (Ne.symm unbroken.1), ih unbroken.2, List.cons_append]

theorem wholeLines_unbroken {line : List Char} (unbroken : '\n' ∉ line) :
    wholeLines line = if line = [] then [] else [line] := by
  induction line with
  | nil => rfl
  | cons c line ih =>
    rw [List.mem_cons, not_or] at unbroken
    rw [wholeLines, if_neg (Ne.symm unbroken.1), ih unbroken.2, if_neg (List.cons_ne_nil c line)]
    cases line <;> rfl

/-- A text is its lines, one after another. -/
theorem flatten_wholeLines (s : List Char) : (wholeLines s).flatten = s := by
  induction s using line_induction with
  | last line unbroken =>
    rw [wholeLines_unbroken unbroken]
    split <;> simp [*]
  | ended line rest unbroken ih => rw [wholeLines_append unbroken, List.flatten_cons, ih, List.append_assoc]; rfl

/-- What is left when some lines are taken out of a text has the others as its lines. -/
theorem wholeLines_filter (p : List Char → Bool) (s : List Char) :
    wholeLines ((wholeLines s).filter p).flatten = (wholeLines s).filter p := by
  induction s using line_induction with
  | last line unbroken =>
    rw [wholeLines_unbroken unbroken]
    split
    · rfl
    · rename_i some
      by_cases kept : p line
      · simp [kept, wholeLines_unbroken unbroken, some]
      · simp [kept, wholeLines]
  | ended line rest unbroken ih =>
    rw [wholeLines_append unbroken]
    by_cases kept : p (line ++ ['\n'])
    · rw [List.filter_cons_of_pos kept, List.flatten_cons, List.append_assoc, List.singleton_append,
        wholeLines_append unbroken, ih]
    · rw [List.filter_cons_of_neg kept, ih]

/-- An ended line brings in its own contents, before those of the rest. -/
theorem contentLines_append {line : List Char} (unbroken : '\n' ∉ line) (rest : List Char) :
    contentLines (line ++ '\n' :: rest) = contentLines (line ++ ['\n']) ++ contentLines rest := by
  obtain ⟨kept, cut, same⟩ := lines_append unbroken rest
  obtain ⟨kept', cut', same'⟩ := lines_append unbroken []
  have stripped : ∀ k, line = k ∨ line = k ++ ['\r'] → stripComment k = stripComment line := by
    rintro k (rfl | rfl)
    · rfl
    · rw [stripComment_return]
  unfold contentLines
  rw [cut, cut', List.map_cons, List.map_cons, stripped kept same, stripped kept' same', ← List.filter_append]
  rfl

/-- The content lines of a text are those of its lines. -/
theorem contentLines_eq (s : List Char) : contentLines s = (wholeLines s).flatMap contentLines := by
  induction s using line_induction with
  | last line unbroken =>
    rw [wholeLines_unbroken unbroken]
    split
    · rename_i empty
      rw [empty]
      rfl
    · rw [List.flatMap_singleton]
  | ended line rest unbroken ih => rw [contentLines_append unbroken, wholeLines_append unbroken, List.flatMap_cons, ih]

/-- A line has at most one content. -/
theorem length_contentLines_le {s line : List Char} (mem : line ∈ wholeLines s) : (contentLines line).length ≤ 1 := by
  have short : ∀ t : List Char, (lines t).length ≤ 1 → (contentLines t).length ≤ 1 := by
    intro t few
    unfold contentLines
    exact Nat.le_trans (List.length_filter_le _ _) (by rwa [List.length_map])
  induction s using line_induction with
  | last line' unbroken =>
    rw [wholeLines_unbroken unbroken] at mem
    split at mem
    · cases mem
    · rename_i some
      rw [List.mem_singleton.mp mem]
      refine short line' ?_
      rw [lines_unbroken unbroken, if_neg some]
      exact Nat.le_refl 1
  | ended line' rest unbroken ih =>
    rw [wholeLines_append unbroken] at mem
    obtain rfl | mem := List.mem_cons.mp mem
    · refine short _ ?_
      obtain ⟨kept, cut, -⟩ := lines_append unbroken []
      rw [cut]
      exact Nat.le_refl 1
    · exact ih mem

end RenderFarm.Chars

namespace RenderFarm.Text

/-- The lines of a text, each with its end. -/
def wholeLines (s : String) : List String :=
  (Chars.wholeLines s.toList).map String.ofList

theorem join_wholeLines (s : String) : String.join (wholeLines s) = s := by
  rw [← String.toList_inj, String.toList_join, wholeLines, List.flatMap_map]
  simp only [String.toList_ofList]
  rw [List.flatMap_id', Chars.flatten_wholeLines]

/-- What is left when some lines are taken out of a text has the others as its lines. -/
theorem wholeLines_filter (p : String → Bool) (s : String) :
    wholeLines (String.join ((wholeLines s).filter p)) = (wholeLines s).filter p := by
  have chars : (String.join ((wholeLines s).filter p)).toList =
      ((Chars.wholeLines s.toList).filter fun line => p (String.ofList line)).flatten := by
    rw [String.toList_join, wholeLines, List.filter_map, List.flatMap_map]
    simp only [String.toList_ofList]
    rw [List.flatMap_id']
    rfl
  rw [wholeLines, chars, Chars.wholeLines_filter, wholeLines, List.filter_map]
  rfl

/-- The content lines of a text are those of its lines. -/
theorem contentLines_eq (s : String) : contentLines s = (wholeLines s).flatMap contentLines := by
  rw [contentLines, Chars.contentLines_eq, wholeLines, List.flatMap_map, List.map_flatMap]
  simp only [contentLines, String.toList_ofList]

/-- A line has at most one content. -/
theorem length_contentLines_le {s line : String} (mem : line ∈ wholeLines s) : (contentLines line).length ≤ 1 := by
  obtain ⟨chars, among, rfl⟩ := List.mem_map.mp mem
  rw [contentLines, List.length_map, String.toList_ofList]
  exact Chars.length_contentLines_le among

end RenderFarm.Text

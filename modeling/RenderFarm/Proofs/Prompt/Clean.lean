import RenderFarm.Proofs.Prompt.Tangles

/-!
Tidying up prompts with commas and blanks at their ends. One pass makes a prompt tidy exactly when there is no tangle
in it and the commas at each end come to stand next to each other.
-/

namespace RenderFarm.Prompt

open Chars (Trimmed isBlank splitOn replace closed Merges Merged)

variable {s t core lead trail : List Char}

/-! ## Prompts in three pieces -/

/-- Commas and blanks. -/
def Loose (s : List Char) : Prop :=
  ∀ c ∈ s, isLoose c

-- The instance that is found for statements about all characters in a text may go through all characters there are.
instance (s : List Char) : Decidable (Loose s) :=
  decidable_of_iff (s.all isLoose) List.all_eq_true

theorem firm_iff : Firm s ↔ s.head?.all (!isLoose ·) ∧ s.getLast?.all (!isLoose ·) := by
  simp only [Option.all_eq_true, Bool.not_eq_true']
  exact ⟨fun ⟨front, back⟩ => ⟨front, back⟩, fun ⟨front, back⟩ => ⟨front, back⟩⟩

instance (s : List Char) : Decidable (Firm s) :=
  decidable_of_iff' _ firm_iff

theorem Loose.of_subset (loose : Loose t) (part : s ⊆ t) : Loose s :=
  fun c mem => loose c (part mem)

theorem Loose.not_mem (loose : Loose s) {c : Char} (solid : isLoose c = false) : c ∉ s := by
  intro mem
  rw [loose c mem] at solid
  cases solid

/-- Commas and blanks around a core, which has neither at its ends. -/
structure Around (lead core trail : List Char) : Prop where
  loose : Loose lead
  filled : core ≠ []
  firm : Firm core
  loose' : Loose trail

/-- No "and" that is to be dropped reaches from the core into what is around it. -/
structure Apart (lead core trail : List Char) : Prop where
  front : lead ≠ [] → ¬ "and,".toList <+: core ∧ ¬ "by and ".toList <+: core
  back : trail ≠ [] → core ≠ "and".toList ∧ ¬ " and".toList <:+ core

/-- A piece of a pattern in front of a boundary, when only its first character is loose. -/
theorem cut_front {c : Char} {w x y : List Char} (whole : c :: w = x ++ y) (filled : x ≠ []) (loose : Loose x)
    (solid : ∀ d ∈ w.head?, isLoose d = false) : y = w := by
  obtain ⟨d, x, rfl⟩ := List.exists_cons_of_ne_nil filled
  obtain ⟨rfl, rfl⟩ := List.cons.inj whole
  cases x with
  | nil => rfl
  | cons e x => exact absurd (by simp) (loose.not_mem (solid e rfl))

/-- A piece of a pattern behind a boundary, when only its last character is loose. -/
theorem cut_back {c : Char} {w x y : List Char} (whole : w ++ [c] = x ++ y) (filled : y ≠ []) (loose : Loose y)
    (solid : ∀ d ∈ w.getLast?, isLoose d = false) : x = w := by
  obtain rfl | ⟨y, d, rfl⟩ := List.eq_nil_or_concat' y
  · exact absurd rfl filled
  · rw [← List.append_assoc] at whole
    obtain ⟨rfl, -⟩ := List.append_inj' whole rfl
    obtain rfl | ⟨y, e, rfl⟩ := List.eq_nil_or_concat' y
    · rw [List.append_nil]
    · exact absurd (by simp) (loose.not_mem (solid e (by simp)))

/-- Words that end a text stand in its core, unless they are that but for a first character. -/
theorem suffix_of_loose {c : Char} {w : List Char} (loose : Loose lead) (solid : ∀ d ∈ w.head?, isLoose d = false)
    (ends : c :: w <:+ lead ++ core) : c :: w <:+ core ∨ core = w := by
  obtain ⟨before, whole⟩ := ends
  obtain ⟨outside, rfl, inside⟩ | ⟨between, -, rfl⟩ := List.append_eq_append_iff.mp whole
  · cases outside with
    | nil => exact .inl ⟨[], inside⟩
    | cons d outside =>
      obtain ⟨rfl, rfl⟩ := List.cons.inj inside
      cases outside with
      | nil => exact .inr rfl
      | cons e outside => exact absurd (by simp) (loose.not_mem (solid e rfl))
  · exact .inl ⟨between, rfl⟩

theorem Firm.exists_of_prefix {y : List Char} (firm : Firm core) (filled : y ≠ []) (starts : y <+: core) :
    ∃ c ∈ y, isLoose c = false := by
  obtain ⟨c, y, rfl⟩ := List.exists_cons_of_ne_nil filled
  exact ⟨c, List.mem_cons_self, firm.front c (Chars.head?_of_cons_prefix starts)⟩

theorem Firm.exists_of_suffix {x : List Char} (firm : Firm core) (core_ne : core ≠ []) (filled : x ≠ [])
    (ends : x <:+ lead ++ core) : ∃ c ∈ x, isLoose c = false := by
  obtain ⟨before, whole⟩ := ends
  have same := congrArg List.getLast? whole
  rw [List.getLast?_append_of_ne_nil _ filled, List.getLast?_append_of_ne_nil _ core_ne,
    List.getLast?_eq_some_getLast core_ne] at same
  exact ⟨_, List.mem_of_getLast? same, firm.back _ (List.getLast?_eq_some_getLast core_ne)⟩

/-- A pattern of commas and blanks is replaced in each piece. -/
theorem replace_loose_pieces {pat rep : List Char} (around : Around lead core trail) (filled : pat ≠ [])
    (loose : Loose pat) :
    replace pat rep (lead ++ core ++ trail) =
      replace pat rep lead ++ replace pat rep core ++ replace pat rep trail := by
  rw [Chars.replace_append filled, Chars.replace_append filled]
  · rintro x y - some rfl - starts
    obtain ⟨c, mem, solid⟩ := around.firm.exists_of_prefix some starts
    exact loose.not_mem solid (List.mem_append_right x mem)
  · rintro x y some - rfl ends -
    obtain ⟨c, mem, solid⟩ := around.firm.exists_of_suffix around.filled some ends
    exact loose.not_mem solid (List.mem_append_left y mem)

/-- A pattern with one loose character at each end is replaced in each piece, unless what it has inside stands at an
end of the core. -/
theorem replace_solid_pieces {c d : Char} {w rep : List Char} (around : Around lead core trail) (firm : Firm w)
    (filled : w ≠ []) (front : lead ≠ [] → ¬ w ++ [d] <+: core) (back : trail ≠ [] → core ≠ w ∧ ¬ c :: w <:+ core) :
    replace (c :: (w ++ [d])) rep (lead ++ core ++ trail) =
      replace (c :: (w ++ [d])) rep lead ++ replace (c :: (w ++ [d])) rep core ++
        replace (c :: (w ++ [d])) rep trail := by
  rw [Chars.replace_append (List.cons_ne_nil _ _), Chars.replace_append (List.cons_ne_nil _ _)]
  · intro x y some _ split ends starts
    have loose : Loose x := around.loose.of_subset ends.subset
    have some' : lead ≠ [] := by
      rintro rfl
      exact some (List.suffix_nil.mp ends)
    have solid : ∀ e ∈ (w ++ [d]).head?, isLoose e = false := by
      rw [List.head?_append_of_ne_nil _ filled]
      exact firm.front
    obtain rfl := cut_front split some loose solid
    exact front some' starts
  · intro x y _ some split ends starts
    have loose : Loose y := around.loose'.of_subset starts.subset
    have some' : trail ≠ [] := by
      rintro rfl
      exact some (List.prefix_nil.mp starts)
    obtain ⟨other, other'⟩ := back some'
    have solid : ∀ e ∈ (c :: w).getLast?, isLoose e = false := by
      rw [List.getLast?_cons_of_ne_nil filled]
      exact firm.back
    obtain rfl := cut_back split some loose solid
    exact (suffix_of_loose around.loose firm.front ends).elim other' other

/-- Commas and blanks remain what they are, for a pattern that has other characters does not occur among them. -/
theorem Loose.replace {pat rep : List Char} (loose : Loose s) (filled : pat ≠ []) (stays : Loose rep ∨ ¬ Loose pat) :
    Loose (replace pat rep s) := by
  obtain loose' | solid := stays
  · exact fun c mem => (Chars.mem_replace filled mem).elim (loose c) (loose' c)
  · rwa [Chars.replace_of_absent fun occurs => solid (loose.of_subset occurs.subset)]

/-- The core keeps its ends when a pattern with a loose character at each end is replaced. -/
theorem Around.replace {c d : Char} {w rep : List Char} (around : Around lead core trail) (first : isLoose c)
    (last : isLoose d) (stays : Loose rep ∨ ¬ Loose (c :: (w ++ [d]))) :
    Around (replace (c :: (w ++ [d])) rep lead) (replace (c :: (w ++ [d])) rep core)
      (replace (c :: (w ++ [d])) rep trail) := by
  have other {e f : Char} (loose : isLoose e) (solid : isLoose f = false) : some e ≠ some f := by
    rintro ⟨rfl⟩
    rw [loose] at solid
    cases solid
  have filled : c :: (w ++ [d]) ≠ [] := List.cons_ne_nil _ _
  have head := List.head?_eq_some_head around.filled
  have end' := List.getLast?_eq_some_getLast around.filled
  have head' : (Chars.replace (c :: (w ++ [d])) rep core).head? = some _ :=
    Chars.head?_replace head (other first (around.firm.front _ head)) filled
  have last' : (c :: (w ++ [d])).getLast? = some d := by
    rw [← List.cons_append, List.getLast?_concat]
  have end'' : (Chars.replace (c :: (w ++ [d])) rep core).getLast? = some _ :=
    Chars.getLast?_replace end' (last'.trans_ne (other last (around.firm.back _ end'))) filled
  refine ⟨around.loose.replace filled stays, ?_, ⟨fun c mem => ?_, fun c mem => ?_⟩,
    around.loose'.replace filled stays⟩
  · intro none
    rw [none] at head'
    cases head'
  · obtain rfl := Option.some.inj (head'.symm.trans mem)
    exact around.firm.front _ head
  · obtain rfl := Option.some.inj (end''.symm.trans mem)
    exact around.firm.back _ end'

/-! ## The first and the last part -/

/-- Parts of which the first one, the last one, and whether these are two, are as they were. -/
structure SameEnds (parts parts' : List (List Char)) : Prop where
  first : parts'.head? = parts.head?
  last : parts'.getLast? = parts.getLast?
  one : parts'.tail = [] ↔ parts.tail = []

theorem SameEnds.trans {parts parts' parts'' : List (List Char)} (h : SameEnds parts parts')
    (h' : SameEnds parts' parts'') : SameEnds parts parts'' :=
  ⟨h'.first.trans h.first, h'.last.trans h.last, h'.one.trans h.one⟩

theorem sameEnds_of_merged {ws rs parts parts' : List (List Char)} (merged : Merged ws rs parts parts') :
    SameEnds parts parts' := by
  cases merged with
  | one part => exact ⟨rfl, rfl, Iff.rfl⟩
  | between first last merges =>
    have ends (parts : List (List Char)) : (first :: (parts ++ [last])).getLast? = some last := by
      rw [← List.cons_append, List.getLast?_concat]
    exact ⟨rfl, (ends _).trans (ends _).symm, by simp⟩

theorem andComma_prefix_iff : andWord ++ [','] <+: s ↔
    (splitOn ',' s).head? = some andWord ∧ (splitOn ',' s).tail ≠ [] := by
  obtain single | ⟨part, t, plain, rfl⟩ := Chars.parts_cases ',' s
  · rw [Chars.splitOn_of_not_mem single]
    exact iff_of_false (fun starts => single (starts.subset (by decide))) (by simp)
  · rw [Chars.prefix_cut_iff (by decide) plain, Chars.splitOn_cut plain]
    rw [List.head?_cons, List.tail_cons, Option.some.injEq]
    exact ⟨fun ⟨same, _⟩ => ⟨same.symm, Chars.splitOn_ne_nil t⟩, fun ⟨same, _⟩ => ⟨same.symm, List.nil_prefix⟩⟩

theorem eq_andWord_iff : s = andWord ↔ (splitOn ',' s).head? = some andWord ∧ (splitOn ',' s).tail = [] := by
  obtain single | ⟨part, t, plain, rfl⟩ := Chars.parts_cases ',' s
  · simp [Chars.splitOn_of_not_mem single]
  · rw [Chars.splitOn_cut plain]
    refine iff_of_false (fun whole => ?_) (by simp [Chars.splitOn_ne_nil])
    have comma : ',' ∈ andWord := whole ▸ by simp
    exact absurd comma (by decide)

/-- What a text starts with, up to its first comma. -/
theorem prefix_iff_first {word : List Char} (plain : ',' ∉ word) :
    word <+: s ↔ ∃ first ∈ (splitOn ',' s).head?, word <+: first := by
  obtain single | ⟨part, t, plain', rfl⟩ := Chars.parts_cases ',' s
  · simp [Chars.splitOn_of_not_mem single]
  · rw [Chars.prefix_before_iff plain, Chars.splitOn_cut plain']
    simp

/-- What a text ends with, from its last comma on. -/
theorem suffix_iff_last {word : List Char} (plain : ',' ∉ word) :
    word <:+ s ↔ ∃ last ∈ (splitOn ',' s).getLast?, word <:+ last := by
  induction s using Chars.parts_induction ',' with
  | one s single => simp [Chars.splitOn_of_not_mem single]
  | cut part t plain' ih =>
    have behind : word <:+ part ++ ',' :: t ↔ word <:+ t := by
      rw [← List.reverse_prefix, ← List.reverse_prefix, List.reverse_append, List.reverse_cons, List.append_assoc]
      exact Chars.prefix_before_iff (by simpa using plain)
    rw [behind, ih, Chars.splitOn_cut plain', List.getLast?_cons_of_ne_nil (Chars.splitOn_ne_nil t)]

/-- A text without "and" at the ends of its parts starts and ends as before. -/
theorem stripped_ends (parts : List (List Char)) :
    (∀ first ∈ (Chars.stripped dangling parts).head?, ∃ first' ∈ parts.head?, first <+: first') ∧
      (Chars.stripped dangling parts).getLast? = parts.getLast? := by
  obtain rfl | ⟨parts, last, rfl⟩ := List.eq_nil_or_concat' parts
  · exact ⟨nofun, rfl⟩
  · rw [Chars.stripped_concat, List.getLast?_concat, List.getLast?_concat]
    refine ⟨?_, rfl⟩
    cases parts with
    | nil => simp
    | cons first parts => simpa using Chars.withoutSuffix_prefix dangling_ne_nil first

namespace SameEnds

variable (ends : SameEnds (splitOn ',' s) (splitOn ',' t))

include ends

theorem eq_andWord_iff : t = andWord ↔ s = andWord := by
  rw [Prompt.eq_andWord_iff, Prompt.eq_andWord_iff, ends.first, ends.one]

theorem andComma_prefix_iff : andWord ++ [','] <+: t ↔ andWord ++ [','] <+: s := by
  rw [Prompt.andComma_prefix_iff, Prompt.andComma_prefix_iff, ends.first, ne_eq, ends.one]

theorem prefix_iff {word : List Char} (plain : ',' ∉ word) : word <+: t ↔ word <+: s := by
  rw [prefix_iff_first plain, prefix_iff_first plain, ends.first]

theorem suffix_iff {word : List Char} (plain : ',' ∉ word) : word <:+ t ↔ word <:+ s := by
  rw [suffix_iff_last plain, suffix_iff_last plain, ends.last]

end SameEnds

/-! ## Sweeping the pieces -/

/-- The words that are linked, as they stand between two blanks. -/
def linkWords : List Char := byWord ++ ' ' :: andWord

theorem apart_iff : Apart lead core trail ↔
    (lead ≠ [] → ¬ andWord ++ [','] <+: core ∧ ¬ linkWords ++ [' '] <+: core) ∧
      (trail ≠ [] → core ≠ andWord ∧ ¬ dangling <:+ core) := by
  have words : "and".toList = andWord ∧ "and,".toList = andWord ++ [','] ∧ " and".toList = dangling ∧
      "by and ".toList = linkWords ++ [' '] := by decide +kernel
  obtain ⟨word, comma, dangles, link⟩ := words
  rw [← comma, ← link, ← word, ← dangles]
  exact ⟨fun ⟨front, back⟩ => ⟨front, back⟩, fun ⟨front, back⟩ => ⟨front, back⟩⟩

theorem ne_nil_of_replace {pat rep : List Char} (some : replace pat rep s ≠ []) : s ≠ [] := by
  rintro rfl
  exact some rfl

theorem mergeGap_pieces (gap : List Char) (loose : Loose gap) (plain : ',' ∉ gap) (around : Around lead core trail)
    (apart : Apart lead core trail) :
    mergeGap gap (lead ++ core ++ trail) = mergeGap gap lead ++ mergeGap gap core ++ mergeGap gap trail ∧
      Around (mergeGap gap lead) (mergeGap gap core) (mergeGap gap trail) ∧
      Apart (mergeGap gap lead) (mergeGap gap core) (mergeGap gap trail) := by
  have closes : ',' :: closed ',' [gap] = ',' :: (gap ++ [',']) := by simp [closed]
  have loose' : Loose (',' :: closed ',' [gap]) := by
    rw [closes]
    exact List.forall_mem_cons.mpr ⟨rfl, List.forall_mem_append.mpr ⟨loose, List.forall_mem_singleton.mpr rfl⟩⟩
  refine ⟨replace_loose_pieces around (List.cons_ne_nil _ _) loose', ?_, ?_⟩
  · have comma : Loose [','] := by decide
    unfold mergeGap
    rw [closes]
    exact around.replace rfl rfl (.inl comma)
  · have ends := sameEnds_of_merged (merged_mergeGap plain core)
    rw [apart_iff] at apart ⊢
    rw [ends.eq_andWord_iff.ne, ends.andComma_prefix_iff, ends.prefix_iff (by decide), ends.suffix_iff (by decide)]
    exact ⟨fun some => apart.1 (ne_nil_of_replace some), fun some => apart.2 (ne_nil_of_replace some)⟩

theorem undangled_pieces (around : Around lead core trail) (apart : Apart lead core trail) :
    undangled (lead ++ core ++ trail) = undangled lead ++ undangled core ++ undangled trail ∧
      Around (undangled lead) (undangled core) (undangled trail) ∧
      (undangled lead ≠ [] → ¬ linkWords ++ [' '] <+: undangled core) ∧
      (undangled trail ≠ [] → ¬ dangling <:+ undangled core) := by
  obtain ⟨front, back⟩ := apart_iff.mp apart
  obtain ⟨first, last⟩ := stripped_ends (splitOn ',' core)
  rw [← splitOn_undangled] at first last
  refine ⟨?_, ?_, fun some starts => ?_, fun some ends => ?_⟩
  · exact replace_solid_pieces around (by decide) (by decide) (fun some => (front some).1) back
  · exact around.replace (w := andWord) rfl rfl (.inl (by decide))
  · rw [prefix_iff_first (by decide)] at starts
    obtain ⟨part, mem, starts⟩ := starts
    obtain ⟨part', mem', shorter⟩ := first part mem
    exact (front (ne_nil_of_replace some)).2 ((prefix_iff_first (by decide)).mpr ⟨part', mem', starts.trans shorter⟩)
  · rw [suffix_iff_last (by decide), last, ← suffix_iff_last (by decide)] at ends
    exact (back (ne_nil_of_replace some)).2 ends

theorem unlinked_pieces (around : Around lead core trail) (front : lead ≠ [] → ¬ linkWords ++ [' '] <+: core)
    (back : trail ≠ [] → ¬ dangling <:+ core) :
    unlinked (lead ++ core ++ trail) = unlinked lead ++ unlinked core ++ unlinked trail ∧
      Around (unlinked lead) (unlinked core) (unlinked trail) := by
  have ends : dangling <:+ linkWords := ⟨byWord, rfl⟩
  refine ⟨?_, around.replace (w := linkWords) rfl rfl (.inr (by decide))⟩
  refine replace_solid_pieces (w := linkWords) around (by decide) (by decide) front fun some => ⟨?_, ?_⟩
  · rintro rfl
    exact back some ends
  · exact fun longer => back some (ends.trans ((List.suffix_cons ' ' linkWords).trans longer))

/-- The pieces of a prompt are swept apart, and they remain commas and blanks around a core. -/
theorem sweep_pieces (around : Around lead core trail) (apart : Apart lead core trail) :
    sweep faults (lead ++ core ++ trail) = sweep faults lead ++ sweep faults core ++ sweep faults trail ∧
      Around (sweep faults lead) (sweep faults core) (sweep faults trail) := by
  obtain ⟨split₁, around₁, apart₁⟩ := mergeGap_pieces [] (by decide) (by decide) around apart
  obtain ⟨split₂, around₂, apart₂⟩ := mergeGap_pieces [' '] (by decide) (by decide) around₁ apart₁
  obtain ⟨split₃, around₃, front, back⟩ := undangled_pieces around₂ apart₂
  obtain ⟨split₄, around₄⟩ := unlinked_pieces around₃ front back
  rw [sweep_eq, sweep_eq, sweep_eq, sweep_eq, split₁, split₂, split₃]
  exact ⟨split₄, around₄⟩

/-! ## The commas at an end -/

theorem closed_replicate_nil (n : Nat) : closed ',' (List.replicate n []) = List.replicate n ',' := by
  induction n with
  | zero => rfl
  | succ n ih => rw [List.replicate_succ, Chars.closed_cons, ih, List.nil_append, List.replicate_succ]

theorem gaps_of_cluster (cluster : Cluster s) : ∀ gap ∈ gaps s, gap = [] := by
  obtain ⟨before, commas, after, blank, comma, blank', rfl⟩ := cluster
  have plain {part : List Char} (blank : ∀ c ∈ part, isBlank c) : ',' ∉ part := fun comma => by
    have other := blank ',' comma
    simp [isBlank_comma] at other
  rw [List.eq_replicate_of_mem comma]
  cases commas.length with
  | zero =>
    have single : ',' ∉ before ++ List.replicate 0 ',' ++ after := by simp [plain blank, plain blank']
    rw [gaps, Chars.splitOn_of_not_mem single]
    exact nofun
  | succ n =>
    rw [List.replicate_succ, ← closed_replicate_nil, List.append_assoc, List.cons_append, gaps,
      Chars.splitOn_cut (plain blank), Chars.splitOn_closed_append (by simp), Chars.splitOn_of_not_mem (plain blank'),
      List.tail_cons, List.dropLast_concat]
    exact fun gap mem => List.eq_of_mem_replicate mem

theorem cluster_of_gaps (loose : Loose s) (empty : ∀ gap ∈ gaps s, gap = []) : Cluster s := by
  have blank {part : List Char} (mem : part ∈ splitOn ',' s) : ∀ c ∈ part, isBlank c := by
    intro c inside
    have other : c ≠ ',' := fun comma => Chars.not_mem_of_mem_splitOn mem (comma ▸ inside)
    have among := loose c ((Chars.exists_mem_splitOn other s).mp ⟨part, mem, inside⟩)
    simpa [isLoose, other] using among
  obtain ⟨first, parts, split⟩ := Chars.exists_splitOn_cons ',' s
  obtain rfl | ⟨inner, last, rfl⟩ := List.eq_nil_or_concat' parts
  · have whole := Chars.eq_of_splitOn (split.trans (List.nil_append _).symm)
    exact ⟨first, [], [], blank (by simp [split]), nofun, nofun, by simpa [closed] using whole⟩
  · have whole := Chars.eq_of_splitOn (split.trans (List.cons_append ..).symm)
    rw [gaps, split, List.tail_cons, List.dropLast_concat] at empty
    rw [Chars.closed_cons] at whole
    refine ⟨first, ',' :: closed ',' inner, last, blank (by simp [split]), ?_, blank (by simp [split]), whole⟩
    refine List.forall_mem_cons.mpr ⟨rfl, fun c mem => ?_⟩
    obtain ⟨gap, among, inside⟩ := List.mem_flatMap.mp mem
    simpa [empty gap among] using inside

theorem cluster_iff (loose : Loose s) : Cluster s ↔ ∀ gap ∈ gaps s, gap = [] :=
  ⟨gaps_of_cluster, cluster_of_gaps loose⟩

/-- Commas and blanks of which one pass makes a cluster: between commas is nothing or a single blank, and such blanks do
not stand on both sides of one comma or of two. -/
structure Gathers (s : List Char) : Prop where
  narrow : ∀ gap ∈ gaps s, gap = [] ∨ gap = [' ']
  single : ¬ ", , ,".toList <:+: s
  double : ¬ ", ,, ,".toList <:+: s

theorem gathers_iff : Gathers s ↔ (∀ gap ∈ gaps s, gap = [] ∨ gap = [' ']) ∧
    ¬ ([[' '], [' ']] <:+: gaps s ∨ [[' '], [], [' ']] <:+: gaps s) := by
  have texts : ", , ,".toList = ',' :: closed ',' [[' '], [' ']] ∧
      ", ,, ,".toList = ',' :: closed ',' [[' '], [], [' ']] := by decide +kernel
  rw [← gaps_infix_iff (by simp) (by decide), ← gaps_infix_iff (by simp) (by decide), ← texts.1, ← texts.2, not_or]
  exact ⟨fun ⟨narrow, single, double⟩ => ⟨narrow, single, double⟩,
    fun ⟨narrow, single, double⟩ => ⟨narrow, single, double⟩⟩

/-- Gaps without words leave nothing when they are narrow and no single blank is left of them. -/
theorem bare_iff {parts merged left : List (List Char)} (merges : Merges [[]] [] parts merged)
    (merges' : Merges [[' ']] [] merged left) (letters : dangling ∉ parts) :
    (∀ gap ∈ left.map tidied, gap = []) ↔ (∀ gap ∈ parts, gap = [] ∨ gap = [' ']) ∧ [' '] ∉ left := by
  constructor
  · intro empty
    have bare : ∀ part ∈ left, part = [] := by
      intro part mem
      have nothing := empty _ (List.mem_map_of_mem mem)
      rw [tidied_eq_iff (by decide) (by decide)] at nothing
      refine nothing.resolve_right fun dangles => letters ?_
      rw [List.nil_append] at dangles
      rwa [← mem_left merges merges' (by decide) (by decide), ← dangles]
    refine ⟨fun gap mem => ?_, fun mem => absurd (bare _ mem) (by decide)⟩
    by_contra wide
    rw [not_or] at wide
    exact wide.1 (bare gap ((mem_left merges merges' wide.1 wide.2).mpr mem))
  · rintro ⟨narrow, none⟩ gap mem
    obtain ⟨part, among, rfl⟩ := List.mem_map.mp mem
    have other : part ≠ [' '] := by
      rintro rfl
      exact none among
    by_cases empty : part = []
    · rw [empty]
      rfl
    · exact absurd (narrow part ((mem_left merges merges' empty other).mp among)) (not_or.mpr ⟨empty, other⟩)

theorem cluster_sweep_iff (loose : Loose s) (loose' : Loose (sweep faults s)) :
    Cluster (sweep faults s) ↔ Gathers s := by
  have letters : dangling ∉ gaps s := by
    rw [← gap_infix_iff (by decide)]
    exact fun occurs => absurd (loose.of_subset occurs.subset) (by decide)
  have sweeps := sweeps_sweep s
  rw [gathers_iff, cluster_iff loose']
  unfold gaps at letters ⊢
  generalize splitOn ',' s = parts at sweeps letters ⊢
  generalize splitOn ',' (sweep faults s) = left at sweeps ⊢
  cases sweeps with
  | one part => simp
  | between first last merges merges' =>
    rw [List.tail_cons, List.dropLast_concat] at letters
    rw [List.map_cons, List.cons_append, List.tail_cons, List.tail_cons, List.dropLast_concat, List.dropLast_concat,
      ← merges.pair_other (by decide), ← merges'.mem_self]
    exact bare_iff merges merges' letters

/-! ## One pass -/

theorem around_unique {lead' core' trail' : List Char} (around : Around lead core trail) (loose : Loose lead')
    (firm : Firm core') (loose' : Loose trail') (same : lead ++ core ++ trail = lead' ++ core' ++ trail') :
    lead = lead' ∧ core = core' ∧ trail = trail' := by
  have core_eq : core = core' := by
    have bare := congrArg (Chars.trimBy isLoose) same
    rwa [Chars.trimBy_pad around.loose around.loose', Chars.trimBy_pad loose loose',
      Chars.trimBy_of_ends around.firm.front around.firm.back, Chars.trimBy_of_ends firm.front firm.back] at bare
  subst core_eq
  obtain ⟨c, rest, rfl⟩ := List.exists_cons_of_ne_nil around.filled
  have solid : ¬ isLoose c = true := by simp [firm.front c rfl]
  have lead_eq := congrArg (List.takeWhile isLoose) same
  rw [List.append_assoc, List.append_assoc, List.takeWhile_append_of_pos around.loose,
    List.takeWhile_append_of_pos loose, List.cons_append, List.cons_append, List.takeWhile_cons_of_neg solid,
    List.takeWhile_cons_of_neg solid, List.append_nil, List.append_nil] at lead_eq
  subst lead_eq
  exact ⟨rfl, rfl, List.append_cancel_left same⟩

/-- One pass makes a prompt tidy exactly when the commas at its ends gather and its core is not tangled. -/
theorem tidy_cleanChars_iff (around : Around lead core trail) (apart : Apart lead core trail) :
    Tidy (cleanChars (lead ++ core ++ trail)) ↔ Gathers lead ∧ Gathers trail ∧ ¬ Tangled core := by
  obtain ⟨split, around'⟩ := sweep_pieces around apart
  have loose {t : List Char} (cluster : Cluster t) : Loose t := by
    obtain ⟨before, commas, after, blank, comma, blank', rfl⟩ := cluster
    simp only [Loose, List.mem_append]
    rintro c ((mem | mem) | mem)
    · simp [isLoose, blank c mem]
    · simp [isLoose, comma c mem]
    · simp [isLoose, blank' c mem]
  have core_tidy : Tidy (sweep faults core) ↔ ¬ Tangled core := by
    rw [← faulty_sweep_iff]
    constructor
    · rintro tidy ⟨fault, mem, occurs⟩
      exact tidy.faultless fault mem occurs
    · intro none
      exact ⟨around'.firm, fun fault mem occurs => none ⟨fault, mem, occurs⟩⟩
  rw [cleanChars_eq, tidy_bared_iff, split, ← cluster_sweep_iff around.loose around'.loose,
    ← cluster_sweep_iff around.loose' around'.loose', ← core_tidy]
  constructor
  · rintro ⟨lead', core', trail', same, cluster, cluster', tidy⟩
    obtain ⟨rfl, rfl, rfl⟩ := around_unique around' (loose cluster) tidy.toFirm (loose cluster') same
    exact ⟨cluster, cluster', tidy⟩
  · rintro ⟨cluster, cluster', tidy⟩
    exact ⟨_, _, _, rfl, cluster, cluster', tidy⟩

theorem clean_toList (s : String) : (clean s).toList = cleanChars s.toList := by
  rw [clean, String.toList_ofList]

theorem iterate_clean_toList (n : Nat) (s : String) : (clean^[n] s).toList = cleanChars^[n] s.toList := by
  induction n generalizing s with
  | zero => rfl
  | succ n ih => rw [Function.iterate_succ_apply, Function.iterate_succ_apply, ih, clean_toList]

/-- **Tidying up a prompt.** The result has no blanks at its ends. The prompts that stay as they are, and so do not
change when they are tidied up a second time, are the tidy ones; every prompt is tidy after at most as many passes as it
has characters. One pass suffices exactly when the replacements leave a tidy text between clusters of commas; in terms
of the prompt, when the commas at its ends gather and what is between them is not tangled. -/
theorem clean_tidy_but_for_tangles (s : String) :
    Trimmed (clean s).toList ∧
    (clean s = s ↔ Tidy s.toList) ∧
    (∃ n ≤ s.length, Tidy (clean^[n] s).toList) ∧
    (Tidy (clean s).toList ↔ ∃ lead core trail, sweep faults s.toList = lead ++ core ++ trail ∧ Cluster lead ∧
      Cluster trail ∧ Tidy core) ∧
    ∀ lead core trail, s.toList = lead ++ core ++ trail → Around lead core trail → Apart lead core trail →
      (Tidy (clean s).toList ↔ Gathers lead ∧ Gathers trail ∧ ¬ Tangled core) := by
  refine ⟨?_, ?_, ?_, ?_, fun lead core trail pieces around apart => ?_⟩
  · rw [clean_toList]
    exact Chars.trimmed_trim _
  · rw [← cleanChars_eq_self_iff, ← String.toList_inj, clean_toList]
  · obtain ⟨n, few, tidy⟩ := exists_iterate_tidy s.toList
    rw [String.length_toList] at few
    exact ⟨n, few, by rwa [iterate_clean_toList]⟩
  · rw [clean_toList, cleanChars_eq, tidy_bared_iff]
  · rw [clean_toList, pieces]
    exact tidy_cleanChars_iff around apart

/-- A prompt with commas around it, and with faults that do not lie next to each other. -/
theorem monet_tidied_in_one_pass :
    let s := ", a cat and,, oil by and monet , ,"
    clean s = "a cat, oil by monet" ∧ Tidy (clean s).toList := by
  intro s
  have around : Around ", ".toList "a cat and,, oil by and monet".toList " , ,".toList :=
    ⟨by decide +kernel, by decide +kernel, by decide +kernel, by decide +kernel⟩
  have apart : Apart ", ".toList "a cat and,, oil by and monet".toList " , ,".toList :=
    ⟨fun _ => by decide +kernel, fun _ => by decide +kernel⟩
  have gathers : Gathers ", ".toList ∧ Gathers " , ,".toList :=
    ⟨⟨by decide +kernel, by decide +kernel, by decide +kernel⟩,
      ⟨by decide +kernel, by decide +kernel, by decide +kernel⟩⟩
  have smooth : ¬ Tangled "a cat and,, oil by and monet".toList := by
    unfold Tangled
    decide +kernel
  have one := (clean_tidy_but_for_tangles s).2.2.2.2 _ _ _ (by decide +kernel) around apart
  exact ⟨by decide +kernel, one.mpr ⟨gathers.1, gathers.2, smooth⟩⟩

/-- Of three commas with blanks between them two are left, and a second pass is needed for these. -/
theorem commas_left_after_one_pass :
    [',', ' ', ','] <:+: (clean "a, , , b").toList ∧ clean (clean "a, , , b") ≠ clean "a, , , b" := by
  decide +kernel

end RenderFarm.Prompt

import Mathlib.Logic.Function.Iterate
import RenderFarm.Prompt.Fragment
import RenderFarm.Proofs.Replacement
import RenderFarm.Proofs.Trimming

/-!
Tidying up prompts. The texts that tidying leaves alone are the tidy ones, and every text becomes tidy when it is tidied
up again and again. One pass is not enough for all: it goes through the text once for each fault, so commas that stand
too close are left of longer runs, and so are words of which several are to be dropped.
-/

namespace RenderFarm.Prompt

open Chars (isBlank trim trimBy replace)

variable {s t core lead trail : List Char}

/-! ## Tidy texts -/

/-- The characters that a prompt neither starts nor ends with. -/
def isLoose (c : Char) : Bool :=
  c == ',' || isBlank c

/-- A text with neither a comma nor a blank at its ends. -/
structure Firm (s : List Char) : Prop where
  front : ∀ c ∈ s.head?, isLoose c = false
  back : ∀ c ∈ s.getLast?, isLoose c = false

/-- The faults of a prompt, each with what is put in its place. -/
def faults : List (List Char × List Char) :=
  [([',', ','], [',']), ([',', ' ', ','], [',']), (" and,".toList, [',']), (" by and ".toList, " by ".toList)]

/-- A text without faults and without commas or blanks at its ends. -/
structure Tidy (s : List Char) : Prop extends Firm s where
  faultless : ∀ fault ∈ faults, ¬ fault.1 <:+: s

/-- One pass over a text for each fault, in turn. -/
def sweep (faults : List (List Char × List Char)) (s : List Char) : List Char :=
  faults.foldl (fun s fault => replace fault.1 fault.2 s) s

/-- A text without blanks, commas and blanks at its ends. -/
def bared (s : List Char) : List Char :=
  trim (trimBy (· == ',') (trim s))

theorem cleanChars_eq (s : List Char) : cleanChars s = bared (sweep faults s) := rfl

theorem shorter_of_mem_faults : ∀ fault ∈ faults, fault.2.length < fault.1.length := by
  decide +kernel

/-! ## Fixed points -/

theorem length_sweep_le {faults : List (List Char × List Char)}
    (shorter : ∀ fault ∈ faults, fault.2.length < fault.1.length) (s : List Char) :
    (sweep faults s).length ≤ s.length := by
  induction faults generalizing s with
  | nil => exact Nat.le_refl _
  | cons fault faults ih =>
    obtain ⟨first, later⟩ := List.forall_mem_cons.mp shorter
    exact (ih later _).trans (Chars.length_replace first s).1

theorem sweep_of_faultless {faults : List (List Char × List Char)} (faultless : ∀ fault ∈ faults, ¬ fault.1 <:+: s) :
    sweep faults s = s := by
  induction faults with
  | nil => rfl
  | cons fault faults ih =>
    obtain ⟨first, later⟩ := List.forall_mem_cons.mp faultless
    rw [sweep, List.foldl_cons, Chars.replace_of_absent first]
    exact ih later

/-- A pass that does not shorten a text has found no fault in it. -/
theorem faultless_of_length {faults : List (List Char × List Char)}
    (shorter : ∀ fault ∈ faults, fault.2.length < fault.1.length) (long : s.length ≤ (sweep faults s).length) :
    ∀ fault ∈ faults, ¬ fault.1 <:+: s := by
  induction faults with
  | nil => exact nofun
  | cons fault faults ih =>
    obtain ⟨first, later⟩ := List.forall_mem_cons.mp shorter
    have rest := length_sweep_le later (replace fault.1 fault.2 s)
    have none : ¬ fault.1 <:+: s := fun occurs =>
      absurd ((Chars.length_replace first s).2 occurs) (Nat.not_lt.mpr (long.trans rest))
    rw [sweep, List.foldl_cons, Chars.replace_of_absent none] at long
    exact List.forall_mem_cons.mpr ⟨none, ih later long⟩

theorem bared_isInfix (s : List Char) : bared s <:+: s :=
  ((Chars.trimBy_infix _ _).trans (Chars.trimBy_infix _ _)).trans (Chars.trimBy_infix _ _)

theorem Firm.trimmed (firm : Firm s) : Chars.Trimmed s :=
  ⟨fun c first => (Bool.or_eq_false_iff.mp (firm.front c first)).2,
    fun c last => (Bool.or_eq_false_iff.mp (firm.back c last)).2⟩

theorem Firm.front_comma (firm : Firm s) : ∀ c ∈ s.head?, (c == ',') = false :=
  fun c first => (Bool.or_eq_false_iff.mp (firm.front c first)).1

theorem Firm.back_comma (firm : Firm s) : ∀ c ∈ s.getLast?, (c == ',') = false :=
  fun c last => (Bool.or_eq_false_iff.mp (firm.back c last)).1

theorem bared_of_firm (firm : Firm s) : bared s = s := by
  have commaless : trimBy (· == ',') s = s := Chars.trimBy_of_ends firm.front_comma firm.back_comma
  rw [bared, firm.trimmed.trim_eq, commaless, firm.trimmed.trim_eq]

/-- What is left as it is has neither commas nor blanks at its ends. -/
theorem firm_of_bared (same : bared s = s) : Firm s := by
  have outer := Chars.trimBy_infix isBlank s
  have inner := Chars.trimBy_infix (· == ',') (trim s)
  have last := Chars.trimBy_infix isBlank (trimBy (· == ',') (trim s))
  have length : s.length ≤ (trimBy (· == ',') (trim s)).length := by
    have shorter := last.length_le
    rwa [show trimBy isBlank (trimBy (· == ',') (trim s)) = s from same] at shorter
  have blankless : trim s = s := outer.eq_of_length (Nat.le_antisymm outer.length_le (length.trans inner.length_le))
  rw [blankless] at inner length
  have commaless : trimBy (· == ',') s = s := inner.eq_of_length (Nat.le_antisymm inner.length_le length)
  refine ⟨fun c first => Bool.or_eq_false_iff.mpr ⟨?_, ?_⟩, fun c last => Bool.or_eq_false_iff.mpr ⟨?_, ?_⟩⟩
  · exact Chars.head_trimBy (· == ',') s c (commaless.symm ▸ first)
  · exact Chars.head_trim s c (blankless.symm ▸ first)
  · exact Chars.last_trimBy (· == ',') s c (commaless.symm ▸ last)
  · exact Chars.last_trim s c (blankless.symm ▸ last)

/-- A pass never makes a prompt longer. -/
theorem length_cleanChars_le (s : List Char) : (cleanChars s).length ≤ s.length :=
  (bared_isInfix _).length_le.trans (length_sweep_le shorter_of_mem_faults s)

/-- The texts that tidying leaves as they are: the tidy ones, and no other text keeps its length. -/
theorem tidy_of_length (long : s.length ≤ (cleanChars s).length) : Tidy s := by
  have infix' := bared_isInfix (sweep faults s)
  have faultless := faultless_of_length shorter_of_mem_faults (long.trans infix'.length_le)
  rw [cleanChars_eq, sweep_of_faultless faultless] at long
  have same := (bared_isInfix s).eq_of_length (Nat.le_antisymm (bared_isInfix s).length_le long)
  exact ⟨firm_of_bared same, faultless⟩

theorem cleanChars_eq_self_iff : cleanChars s = s ↔ Tidy s := by
  constructor
  · intro same
    exact tidy_of_length (Nat.le_of_eq (congrArg List.length same.symm))
  · intro tidy
    rw [cleanChars_eq, sweep_of_faultless tidy.faultless, bared_of_firm tidy.toFirm]

/-- A text is tidied up in at most as many passes as it has characters. -/
theorem exists_iterate_tidy (s : List Char) : ∃ n ≤ s.length, Tidy (cleanChars^[n] s) := by
  induction length : s.length using Nat.strong_induction_on generalizing s with
  | h n ih =>
    by_cases tidy : Tidy s
    · exact ⟨0, Nat.zero_le _, tidy⟩
    · have less : (cleanChars s).length < n := by
        rw [← length]
        exact Nat.lt_of_not_le fun long => tidy (tidy_of_length long)
      obtain ⟨m, few, done⟩ := ih _ less (cleanChars s) rfl
      exact ⟨m + 1, Nat.le_trans (Nat.succ_le_succ few) less, done⟩

/-! ## The ends of a text -/

/-- Commas next to each other, with blanks around them. -/
def Cluster (s : List Char) : Prop :=
  ∃ before commas after, (∀ c ∈ before, isBlank c) ∧ (∀ c ∈ commas, c = ',') ∧ (∀ c ∈ after, isBlank c) ∧
    s = before ++ commas ++ after

theorem isBlank_comma : isBlank ',' = false := by decide

theorem exists_clusters (s : List Char) :
    ∃ lead trail, Cluster lead ∧ Cluster trail ∧ s = lead ++ bared s ++ trail := by
  obtain ⟨before, after, blank, blank', whole⟩ := Chars.exists_trimBy isBlank s
  obtain ⟨commas, commas', comma, comma', whole'⟩ := Chars.exists_trimBy (· == ',') (trim s)
  obtain ⟨inside, inside', inner, inner', whole''⟩ := Chars.exists_trimBy isBlank (trimBy (· == ',') (trim s))
  refine ⟨before ++ commas ++ inside, inside' ++ commas' ++ after, ?_, ?_, ?_⟩
  · exact ⟨before, commas, inside, blank, fun c mem => beq_iff_eq.mp (comma c mem), inner, rfl⟩
  · exact ⟨inside', commas', after, inner', fun c mem => beq_iff_eq.mp (comma' c mem), blank', rfl⟩
  · have outer : s = before ++ trim s ++ after := whole
    have inmost : trimBy (· == ',') (trim s) = inside ++ bared s ++ inside' := whole''
    have all : s = before ++ (commas ++ (inside ++ bared s ++ inside') ++ commas') ++ after := by
      rw [← inmost, ← whole', ← outer]
    simpa using all

theorem ne_comma_of_isBlank {c : Char} (blank : isBlank c) : (c == ',') = false := by
  rw [beq_eq_false_iff_ne]
  rintro rfl
  exact absurd blank (by decide)

theorem isBlank_of_comma {commas : List Char} (comma : ∀ c ∈ commas, c = ',') : ∀ c ∈ commas, isBlank c = false :=
  fun c mem => (comma c mem).symm ▸ isBlank_comma

/-- What starts two texts, one behind the other. -/
theorem head?_append_of {P : Char → Prop} (first : ∀ c ∈ s.head?, P c) (later : s = [] → ∀ c ∈ t.head?, P c) :
    ∀ c ∈ (s ++ t).head?, P c := by
  cases s with
  | nil => exact later rfl
  | cons d s => exact first

/-- What ends two texts, one behind the other. -/
theorem getLast?_append_of {P : Char → Prop} (last : ∀ c ∈ t.getLast?, P c)
    (sooner : t = [] → ∀ c ∈ s.getLast?, P c) : ∀ c ∈ (s ++ t).getLast?, P c := by
  obtain rfl | some := eq_or_ne t []
  · rw [List.append_nil]
    exact sooner rfl
  · rwa [List.getLast?_append_of_ne_nil _ some]

section Ends

variable {before inside inside' after commas commas' : List Char}

/-- Blanks inside the commas count only behind commas: where there are none, the blanks are those at the end. -/
theorem bared_of_ends (blank : ∀ c ∈ before, isBlank c) (comma : ∀ c ∈ commas, c = ',')
    (inner : ∀ c ∈ inside, isBlank c) (firm : Firm core) (inner' : ∀ c ∈ inside', isBlank c)
    (comma' : ∀ c ∈ commas', c = ',') (blank' : ∀ c ∈ after, isBlank c)
    (near : commas = [] → inside = [] ∧ (core = [] → inside' = []))
    (near' : commas' = [] → inside' = [] ∧ (core = [] → inside = [])) :
    bared (before ++ (commas ++ (inside ++ core ++ inside') ++ commas') ++ after) = core := by
  have outer : trim (before ++ (commas ++ (inside ++ core ++ inside') ++ commas') ++ after) =
      commas ++ (inside ++ core ++ inside') ++ commas' := by
    refine Chars.trimBy_between blank blank' ?_ ?_
    · rw [List.append_assoc]
      refine head?_append_of (fun c mem => isBlank_of_comma comma c (List.mem_of_mem_head? mem)) fun none => ?_
      obtain ⟨rfl, alone⟩ := near none
      rw [List.nil_append, List.append_assoc]
      refine head?_append_of firm.trimmed.front fun none => ?_
      rw [alone none]
      exact fun c mem => isBlank_of_comma comma' c (List.mem_of_mem_head? mem)
    · refine getLast?_append_of (fun c mem => isBlank_of_comma comma' c (List.mem_of_getLast? mem)) fun none => ?_
      obtain ⟨rfl, alone⟩ := near' none
      rw [List.append_nil, ← List.append_assoc]
      refine getLast?_append_of firm.trimmed.back fun none => ?_
      rw [alone none, List.append_nil]
      exact fun c mem => isBlank_of_comma comma c (List.mem_of_getLast? mem)
  have middle : trimBy (· == ',') (commas ++ (inside ++ core ++ inside') ++ commas') = inside ++ core ++ inside' := by
    refine Chars.trimBy_between (fun c mem => beq_iff_eq.mpr (comma c mem)) (fun c mem => beq_iff_eq.mpr (comma' c mem))
      ?_ ?_
    · rw [List.append_assoc]
      refine head?_append_of (fun c mem => ne_comma_of_isBlank (inner c (List.mem_of_mem_head? mem))) fun _ => ?_
      refine head?_append_of firm.front_comma fun _ c mem => ?_
      exact ne_comma_of_isBlank (inner' c (List.mem_of_mem_head? mem))
    · refine getLast?_append_of (fun c mem => ne_comma_of_isBlank (inner' c (List.mem_of_getLast? mem))) fun _ => ?_
      refine getLast?_append_of firm.back_comma fun _ c mem => ?_
      exact ne_comma_of_isBlank (inner c (List.mem_of_getLast? mem))
  have core' : trim (inside ++ core ++ inside') = core :=
    Chars.trimBy_between inner inner' firm.trimmed.front firm.trimmed.back
  rw [bared, outer, middle, core']

end Ends

theorem bared_of_clusters (cluster : Cluster lead) (cluster' : Cluster trail) (firm : Firm core) :
    bared (lead ++ core ++ trail) = core := by
  obtain ⟨before, commas, inside, blank, comma, inner, rfl⟩ := cluster
  obtain ⟨inside', commas', after, inner', comma', blank', rfl⟩ := cluster'
  have both {u v : List Char} (left : ∀ c ∈ u, isBlank c) (right : ∀ c ∈ v, isBlank c) : ∀ c ∈ u ++ v, isBlank c :=
    List.forall_mem_append.mpr ⟨left, right⟩
  -- Blanks that no comma keeps from an end belong to that end.
  rcases eq_or_ne commas [] with rfl | some <;> rcases eq_or_ne commas' [] with rfl | some'
  · have bare : bared ((before ++ inside) ++ ([] ++ ([] ++ core ++ []) ++ []) ++ (inside' ++ after)) = core :=
      bared_of_ends (both blank inner) nofun nofun firm nofun nofun (both inner' blank') (by simp) (by simp)
    simpa using bare
  · rcases eq_or_ne core [] with rfl | filled
    · have bare : bared ((before ++ (inside ++ inside')) ++ ([] ++ ([] ++ [] ++ []) ++ commas') ++ after) = [] :=
        bared_of_ends (both blank (both inner inner')) nofun nofun firm nofun comma' blank' (by simp) (by simp)
      simpa using bare
    · have bare : bared ((before ++ inside) ++ ([] ++ ([] ++ core ++ inside') ++ commas') ++ after) = core :=
        bared_of_ends (both blank inner) nofun nofun firm inner' comma' blank' (by simp [filled]) (by simp [some'])
      simpa using bare
  · rcases eq_or_ne core [] with rfl | filled
    · have bare : bared (before ++ (commas ++ ([] ++ [] ++ []) ++ []) ++ (inside ++ (inside' ++ after))) = [] :=
        bared_of_ends blank comma nofun firm nofun nofun (both inner (both inner' blank')) (by simp) (by simp)
      simpa using bare
    · have bare : bared (before ++ (commas ++ (inside ++ core ++ []) ++ []) ++ (inside' ++ after)) = core :=
        bared_of_ends blank comma inner firm nofun nofun (both inner' blank') (by simp [some]) (by simp [filled])
      simpa using bare
  · have bare := bared_of_ends blank comma inner firm inner' comma' blank' (by simp [some]) (by simp [some'])
    simpa using bare

/-- **Where a pass suffices.** What the replacements leave must be tidy between a cluster of commas at either end. -/
theorem tidy_bared_iff : Tidy (bared s) ↔
    ∃ lead core trail, s = lead ++ core ++ trail ∧ Cluster lead ∧ Cluster trail ∧ Tidy core := by
  constructor
  · intro tidy
    obtain ⟨lead, trail, cluster, cluster', whole⟩ := exists_clusters s
    exact ⟨lead, bared s, trail, whole, cluster, cluster', tidy⟩
  · rintro ⟨lead, core, trail, rfl, cluster, cluster', tidy⟩
    rwa [bared_of_clusters cluster cluster' tidy.toFirm]

end RenderFarm.Prompt

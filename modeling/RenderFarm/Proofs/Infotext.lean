import RenderFarm.Output
import RenderFarm.Proofs.Template

/-!
Where the fields of a backend's text are read from. The text starts with the prompt, and the settings follow on a line
of their own; a field is read at the first place of the whole text where its label is followed by something that fits.
So a prompt decides what is read as soon as there is such a place in it, be it that what fits stands behind the line
break; and otherwise the settings do.
-/

namespace RenderFarm.Infotext

open Chars

variable {label s found : List Char} {fit? : List Char → Option (List Char)}

/-! ## First places -/

/-- What a label is followed by that fits, at the first place of a text where anything does. -/
def Finds (label : List Char) (fit? : List Char → Option (List Char)) (s found : List Char) : Prop :=
  ∃ before after, s = before ++ label ++ after ∧ fit? after = some found ∧
    ∀ before' after', s = before' ++ label ++ after' → before'.length < before.length → fit? after' = none

theorem finds_cons {c : Char} (elsewhere : (stripPrefix? label (c :: s)).bind fit? = none) :
    Finds label fit? (c :: s) found ↔ Finds label fit? s found := by
  have unfit {after : List Char} (here : c :: s = label ++ after) : fit? after = none := by
    rwa [stripPrefix?_eq_some_iff.mpr here] at elsewhere
  constructor
  · rintro ⟨before, after, whole, fits, first⟩
    cases before with
    | nil =>
      rw [unfit whole] at fits
      cases fits
    | cons d before =>
      obtain ⟨rfl, rest⟩ := List.cons.inj whole
      refine ⟨before, after, rest, fits, fun before' after' whole' sooner => ?_⟩
      exact first (c :: before') after' (by rw [whole']; rfl) (Nat.succ_lt_succ sooner)
  · rintro ⟨before, after, whole, fits, first⟩
    refine ⟨c :: before, after, by rw [whole]; rfl, fits, fun before' after' whole' sooner => ?_⟩
    cases before' with
    | nil => exact unfit whole'
    | cons d before' => exact first before' after' (List.cons.inj whole').2 (Nat.lt_of_succ_lt_succ sooner)

theorem firstField?_eq_some_iff (written : label ≠ []) :
    firstField? label fit? s = some found ↔ Finds label fit? s found := by
  induction s with
  | nil =>
    refine ⟨nofun, ?_⟩
    rintro ⟨before, after, whole, -⟩
    simp [written] at whole
  | cons c s ih =>
    unfold firstField?
    cases here : (stripPrefix? label (c :: s)).bind fit? with
    | none => exact ih.trans (finds_cons here).symm
    | some found' =>
      obtain ⟨after', stripped, fits'⟩ := Option.bind_eq_some_iff.mp here
      have whole' := stripPrefix?_eq_some_iff.mp stripped
      constructor
      · rintro ⟨⟩
        exact ⟨[], after', whole', fits', fun _ _ _ sooner => absurd sooner (Nat.not_lt_zero _)⟩
      · rintro ⟨before, after, whole, fits, first⟩
        cases before with
        | nil =>
          obtain rfl : after' = after := List.append_cancel_left (whole'.symm.trans whole)
          exact fits'.symm.trans fits
        | cons d before =>
          rw [first [] after' whole' (Nat.succ_pos _)] at fits'
          cases fits'

/-! ## Two lines -/

/-- A label without line break is not written over one. -/
theorem stripPrefix?_append_line (unbroken : '\n' ∉ label) (p s : List Char) :
    stripPrefix? label (p ++ '\n' :: s) = (stripPrefix? label p).map (· ++ '\n' :: s) := by
  induction label generalizing p with
  | nil => rfl
  | cons c label ih =>
    rw [List.mem_cons, not_or] at unbroken
    cases p with
    | nil => exact if_neg (Ne.symm unbroken.1)
    | cons d p =>
      rw [List.cons_append, stripPrefix?, stripPrefix?, ih unbroken.2]
      split <;> rfl

/-- A field is read in the first line, where what fits may go on in the second, or else in the second. -/
theorem firstField?_append_line (written : label ≠ []) (unbroken : '\n' ∉ label) (p s : List Char) :
    firstField? label fit? (p ++ '\n' :: s) =
      (firstField? label (fun after => fit? (after ++ '\n' :: s)) p).or (firstField? label fit? s) := by
  induction p with
  | nil =>
    have none : stripPrefix? label ('\n' :: s) = none := by
      refine Option.eq_none_iff_forall_not_mem.mpr fun rest stripped => unbroken ?_
      have whole := stripPrefix?_eq_some_iff.mp stripped
      obtain ⟨c, label, rfl⟩ := List.exists_cons_of_ne_nil written
      rw [(List.cons.inj whole).1]
      exact List.mem_cons_self
    rw [List.nil_append, firstField?.eq_2, none]
    rfl
  | cons c p ih =>
    rw [List.cons_append, firstField?.eq_2, firstField?.eq_2, ← List.cons_append, stripPrefix?_append_line unbroken]
    cases stripPrefix? label (c :: p) with
    | none => exact ih
    | some after =>
      simp only [Option.map_some, Option.bind_some]
      cases fit? (after ++ '\n' :: s) with
      | none => exact ih
      | some found => rfl

/-! ## What fits -/

theorem takeWhile_append_line {q : Char → Bool} (ends : q '\n' = false) (t s : List Char) :
    (t ++ '\n' :: s).takeWhile q = t.takeWhile q := by
  induction t with
  | nil => exact List.takeWhile_cons_of_neg (by rw [ends]; exact Bool.false_ne_true)
  | cons c t ih =>
    rw [List.cons_append, List.takeWhile_cons, List.takeWhile_cons, ih]

/-- Blanks before the line break are read over with it. -/
theorem blanks_append_line {t : List Char} (blank : t.all isBlank) (s : List Char) :
    (t ++ '\n' :: s).takeWhile isBlank = t ++ '\n' :: s.takeWhile isBlank ∧
      (t ++ '\n' :: s).dropWhile isBlank = s.dropWhile isBlank := by
  have blank := List.all_eq_true.mp blank
  rw [List.takeWhile_append_of_pos blank, List.dropWhile_append_of_pos blank]
  exact ⟨congrArg (t ++ ·) (List.takeWhile_cons_of_pos (by decide)), List.dropWhile_cons_of_pos (by decide)⟩

/-- Another character than a blank ends the blanks before the line break. -/
theorem exists_unblank {t : List Char} (unblank : ¬ t.all isBlank) : ∃ c rest, isBlank c = false ∧
    t.dropWhile isBlank = c :: rest ∧ ∀ s, (t ++ '\n' :: s).takeWhile isBlank = t.takeWhile isBlank ∧
      (t ++ '\n' :: s).dropWhile isBlank = c :: (rest ++ '\n' :: s) := by
  cases left : t.dropWhile isBlank with
  | nil => exact absurd (List.all_eq_true.mpr (List.dropWhile_eq_nil_iff.mp left)) unblank
  | cons c rest =>
    have first := List.head?_dropWhile_not isBlank t
    rw [left] at first
    have part : (t.takeWhile isBlank).length ≠ t.length := by
      intro whole
      have parts := congrArg List.length (List.takeWhile_append_dropWhile (p := isBlank) (l := t))
      rw [List.length_append, whole, left, List.length_cons] at parts
      omega
    refine ⟨c, rest, first, rfl, fun s => ⟨?_, ?_⟩⟩
    · rw [List.takeWhile_append, if_neg part]
    · rw [List.dropWhile_append, left]
      rfl

theorem seedText?_of_minus {rest : List Char} (front : s.dropWhile isBlank = '-' :: rest) : seedText? s =
    if (rest.takeWhile isDecimalDigit).isEmpty then none else some (['-'] ++ rest.takeWhile isDecimalDigit) := by
  rw [seedText?, front]
  rfl

theorem seedText?_of_ne_minus {c : Char} {rest : List Char} (front : s.dropWhile isBlank = c :: rest)
    (plain : c ≠ '-') : seedText? s =
      if ((c :: rest).takeWhile isDecimalDigit).isEmpty then none else some ((c :: rest).takeWhile isDecimalDigit) := by
  rw [seedText?, front]
  simp [plain]

/-- A number stands behind the line break only where nothing but blanks stands before it. -/
theorem seedText?_append_line (after s : List Char) :
    seedText? (after ++ '\n' :: s) = if after.all isBlank then seedText? s else seedText? after := by
  split
  · rename_i blank
    rw [seedText?, (blanks_append_line blank s).2]
    rfl
  · rename_i unblank
    obtain ⟨c, rest, -, front, across⟩ := exists_unblank unblank
    have ends : isDecimalDigit '\n' = false := by decide
    have front' := (across s).2
    by_cases minus : c = '-'
    · subst minus
      rw [seedText?_of_minus front, seedText?_of_minus front', takeWhile_append_line ends]
    · rw [seedText?_of_ne_minus front minus, seedText?_of_ne_minus front' minus, ← List.cons_append,
        takeWhile_append_line ends]

/-- A name stands behind the line break only where nothing but blanks stands before it, and where there is none these
blanks are one, if any of them is on the line. -/
theorem modelText?_append_line (after s : List Char) :
    modelText? (after ++ '\n' :: s) =
      if after.all isBlank then (modelText? s).or (if after.any (· != '\n') then some [] else none)
      else modelText? after := by
  split
  · rename_i blank
    obtain ⟨taken, dropped⟩ := blanks_append_line blank s
    unfold modelText?
    have blanks : (after ++ '\n' :: s.takeWhile isBlank).any (· != '\n') =
        ((s.takeWhile isBlank).any (· != '\n') || after.any (· != '\n')) := by
      rw [List.any_append, List.any_cons, Bool.or_comm]
      rfl
    rw [taken, dropped]
    dsimp only
    rw [blanks]
    cases (s.takeWhile isBlank).any (· != '\n') <;> cases after.any (· != '\n') <;>
      cases s.dropWhile isBlank with
      | nil => rfl
      | cons c rest => by_cases comma : c = ',' <;> simp [comma]
  · rename_i unblank
    obtain ⟨c, rest, other, front, across⟩ := exists_unblank unblank
    unfold modelText?
    rw [front, (across s).1, (across s).2]
    dsimp only
    rw [← List.cons_append, takeWhile_append_line (by decide)]

/-- A number stands ahead: blanks, a sign or none, and a digit. -/
def NumberAhead (s : List Char) : Prop :=
  ∃ blanks sign d rest, s = blanks ++ (sign ++ d :: rest) ∧ (∀ c ∈ blanks, isBlank c) ∧ (sign = [] ∨ sign = ['-']) ∧
    isDecimalDigit d

/-- A name stands ahead: blanks, and a character that neither ends a name nor a line. -/
def NameAhead (s : List Char) : Prop :=
  ∃ blanks d rest, s = blanks ++ d :: rest ∧ (∀ c ∈ blanks, isBlank c) ∧ d ≠ ',' ∧ d ≠ '\n'

theorem takeWhile_digits_isEmpty : (s.takeWhile isDecimalDigit).isEmpty ↔ ∀ d ∈ s.head?, isDecimalDigit d = false := by
  cases s with
  | nil => simp
  | cons c s => by_cases digit : isDecimalDigit c <;> simp [digit]

theorem seedText?_eq_none_iff : seedText? s = none ↔ ¬ NumberAhead s := by
  have parts := List.takeWhile_append_dropWhile (p := isBlank) (l := s)
  have blank : ∀ c ∈ s.takeWhile isBlank, isBlank c := fun c mem => List.mem_takeWhile_imp mem
  constructor
  · rintro nothing ⟨blanks, sign, d, rest, rfl, gap, rfl | rfl, digit⟩
    · have other : isBlank d = false := Bool.eq_false_iff.mpr fun blank =>
        Bool.eq_false_iff.mp (not_isDecimalDigit_of_isBlank blank) digit
      have plain : d ≠ '-' := by
        rintro rfl
        exact absurd digit (by decide)
      rw [List.nil_append, seedText?_of_ne_minus (dropWhile_gap gap other _) plain, if_neg] at nothing
      · cases nothing
      · rw [takeWhile_digits_isEmpty]
        exact fun none => Bool.eq_false_iff.mp (none d rfl) digit
    · rw [List.singleton_append, seedText?_of_minus (dropWhile_gap gap (by decide) _), if_neg] at nothing
      · cases nothing
      · rw [takeWhile_digits_isEmpty]
        exact fun none => Bool.eq_false_iff.mp (none d rfl) digit
  · intro nowhere
    cases front : s.dropWhile isBlank with
    | nil =>
      rw [seedText?, front]
      rfl
    | cons c rest =>
      rw [front] at parts
      by_cases minus : c = '-'
      · subst minus
        rw [seedText?_of_minus front, if_pos]
        refine takeWhile_digits_isEmpty.mpr fun d first => Bool.eq_false_iff.mpr fun digit => nowhere ?_
        obtain ⟨rest, rfl⟩ := List.head?_eq_some_iff.mp first
        exact ⟨_, ['-'], d, rest, parts.symm, blank, .inr rfl, digit⟩
      · rw [seedText?_of_ne_minus front minus, if_pos]
        refine takeWhile_digits_isEmpty.mpr fun d first => Bool.eq_false_iff.mpr fun digit => nowhere ?_
        obtain rfl : c = d := Option.some.inj first
        exact ⟨_, [], c, rest, parts.symm, blank, .inl rfl, digit⟩

theorem modelText?_eq_none : modelText? s = none ↔
    (∀ c ∈ (s.dropWhile isBlank).head?, c = ',') ∧ ∀ c ∈ s.takeWhile isBlank, c = '\n' := by
  have lines : (s.takeWhile isBlank).any (· != '\n') = false ↔ ∀ c ∈ s.takeWhile isBlank, c = '\n' := by
    simp
  rw [modelText?, ← lines]
  cases (s.takeWhile isBlank).any (· != '\n') <;>
    cases s.dropWhile isBlank with
    | nil => simp
    | cons c rest => by_cases comma : c = ',' <;> simp [comma]

theorem modelText?_eq_none_iff : modelText? s = none ↔ ¬ NameAhead s := by
  have parts := List.takeWhile_append_dropWhile (p := isBlank) (l := s)
  have blank : ∀ c ∈ s.takeWhile isBlank, isBlank c := fun c mem => List.mem_takeWhile_imp mem
  rw [modelText?_eq_none]
  constructor
  · rintro ⟨comma, lines⟩ ⟨blanks, d, rest, rfl, gap, other, other'⟩
    cases isBlank' : isBlank d with
    | true =>
      refine other' (lines d ?_)
      rw [List.takeWhile_append_of_pos gap, List.takeWhile_cons_of_pos isBlank']
      exact List.mem_append_right _ List.mem_cons_self
    | false =>
      rw [dropWhile_gap gap isBlank'] at comma
      exact other (comma d rfl)
  · intro nowhere
    constructor
    · intro c first
      refine Decidable.byContradiction fun other => nowhere ?_
      obtain ⟨rest, front⟩ := List.head?_eq_some_iff.mp first
      have unblank := List.head?_dropWhile_not isBlank s
      rw [first] at unblank
      rw [front] at parts
      refine ⟨_, c, rest, parts.symm, blank, other, ?_⟩
      rintro rfl
      exact absurd unblank (by decide)
    · intro c mem
      refine Decidable.byContradiction fun other => nowhere ?_
      obtain ⟨front, back, split⟩ := List.append_of_mem mem
      have isBlank' := blank c mem
      rw [split, List.forall_mem_append] at blank
      rw [split, List.append_assoc] at parts
      refine ⟨front, c, _, parts.symm, blank.1, ?_, other⟩
      rintro rfl
      exact absurd isBlank' (by decide)

/-! ## What is read -/

/-- The seed that a text stands for, when it fits in 64 bits. -/
def seedOf (text : List Char) : Option Int64 :=
  ((readInt (twoTo 63 - 1) text).toOption).map Int64.ofInt

/-- The checkpoint that a text names, when it is not blank. -/
def modelOf (text : List Char) : Option String :=
  let name := trim text
  if name.isEmpty then none else some (String.ofList name)

/-- The text of a seed at the first place of a prompt where there is one. Settings follow on the next line. -/
def PromptSeed (p s : String) : List Char → Prop :=
  Finds "Seed:".toList (fun after => seedText? (after ++ '\n' :: s.toList)) p.toList

/-- The text of a name at the first place of a prompt where there is one. Settings follow on the next line. -/
def PromptModel (p s : String) : List Char → Prop :=
  Finds "Model:".toList (fun after => modelText? (after ++ '\n' :: s.toList)) p.toList

/-- A field is read as in the second line alone when what is found in the first line, if anything is, reads the same. -/
theorem bind_firstField?_iff {α : Type} {value : List Char → Option α} (written : label ≠ []) (unbroken : '\n' ∉ label)
    (p s : List Char) :
    (firstField? label fit? (p ++ '\n' :: s)).bind value = (firstField? label fit? s).bind value ↔
      ∀ text, Finds label (fun after => fit? (after ++ '\n' :: s)) p text →
        value text = (firstField? label fit? s).bind value := by
  simp only [← firstField?_eq_some_iff written]
  rw [firstField?_append_line written unbroken]
  cases firstField? label (fun after => fit? (after ++ '\n' :: s)) p with
  | none => exact ⟨fun _ => nofun, fun _ => rfl⟩
  | some text =>
    constructor
    · rintro same _ ⟨⟩
      exact same
    · exact fun same => same text rfl

theorem toList_lines (p s : String) : (p ++ "\n" ++ s).toList = p.toList ++ '\n' :: s.toList := by
  simp

theorem seed?_lines_iff (p s : String) :
    seed? (p ++ "\n" ++ s) = seed? s ↔ ∀ text, PromptSeed p s text → seedOf text = seed? s := by
  rw [seed?, toList_lines]
  exact bind_firstField?_iff (by decide) (by decide) p.toList s.toList

theorem model?_lines_iff (p s : String) :
    model? (p ++ "\n" ++ s) = model? s ↔ ∀ text, PromptModel p s text → modelOf text = model? s := by
  rw [model?, toList_lines]
  exact bind_firstField?_iff (by decide) (by decide) p.toList s.toList

/-- The seed is that of the settings where no number follows a label in the prompt. -/
theorem seed?_lines_of_none {p s : String} (none : ∀ before after, p.toList = before ++ "Seed:".toList ++ after →
    ¬ NumberAhead (after ++ '\n' :: s.toList)) : seed? (p ++ "\n" ++ s) = seed? s := by
  refine (seed?_lines_iff p s).mpr ?_
  rintro text ⟨before, after, whole, fits, -⟩
  exact nomatch (seedText?_eq_none_iff.mpr (none before after whole)).symm.trans fits

/-- The name is that of the settings where no name follows a label in the prompt. -/
theorem model?_lines_of_none {p s : String} (none : ∀ before after, p.toList = before ++ "Model:".toList ++ after →
    ¬ NameAhead (after ++ '\n' :: s.toList)) : model? (p ++ "\n" ++ s) = model? s := by
  refine (model?_lines_iff p s).mpr ?_
  rintro text ⟨before, after, whole, fits, -⟩
  exact nomatch (modelText?_eq_none_iff.mpr (none before after whole)).symm.trans fits

/-- **Reading the settings.** The seed of a text is that of its settings just when the first number that follows a
label in the prompt, if any does, is the same number, and so with the name of the checkpoint; in particular when
nothing that fits follows a label in the prompt. What follows a label goes on behind the line break only where nothing
but blanks stands before it. Then an image is recorded with the seed and the checkpoint of the settings, and its record
gives the same checkpoint as it would without the prompt. -/
theorem settings_read_unless_forged (p s : String) :
    (seed? (p ++ "\n" ++ s) = seed? s ↔ ∀ text, PromptSeed p s text → seedOf text = seed? s) ∧
    (model? (p ++ "\n" ++ s) = model? s ↔ ∀ text, PromptModel p s text → modelOf text = model? s) ∧
    ((∀ before after, p.toList = before ++ "Seed:".toList ++ after → ¬ NumberAhead (after ++ '\n' :: s.toList)) →
      seed? (p ++ "\n" ++ s) = seed? s) ∧
    ((∀ before after, p.toList = before ++ "Model:".toList ++ after → ¬ NameAhead (after ++ '\n' :: s.toList)) →
      model? (p ++ "\n" ++ s) = model? s) ∧
    (∀ after, seedText? (after ++ '\n' :: s.toList) =
      if after.all isBlank then seedText? s.toList else seedText? after) ∧
    (∀ after, modelText? (after ++ '\n' :: s.toList) =
      if after.all isBlank then (modelText? s.toList).or (if after.any (· != '\n') then some [] else none)
      else modelText? after) ∧
    ∀ (job : Job) (path : Path) (facts : Output.Facts) (now : Instant),
      seed? (p ++ "\n" ++ s) = seed? s → model? (p ++ "\n" ++ s) = model? s →
        let whole := Output.record job ⟨path, p ++ "\n" ++ s, seed? (p ++ "\n" ++ s)⟩ facts now
        let settings := Output.record job ⟨path, s, seed? s⟩ facts now
        whole = { settings with infotext := p ++ "\n" ++ s } ∧ whole.modelName? = settings.modelName? := by
  refine ⟨seed?_lines_iff p s, model?_lines_iff p s, seed?_lines_of_none, model?_lines_of_none,
    fun after => seedText?_append_line after _, fun after => modelText?_append_line after _,
    fun job path facts now seed model => ⟨?_, ?_⟩⟩
  · rw [Output.record, Output.record, seed, model]
  · rw [ImageRecord.modelName?, ImageRecord.modelName?, Output.record, Output.record, model]

/-- Labels in a prompt do no harm where no number and no name follows them. -/
theorem label_in_prompt_read_over :
    seed? ("Seeds: 3, Seed: of hope, Model:, Models: two" ++ "\n" ++ "Steps: 20, Seed: 42, Model: real") = some 42 ∧
      model? ("Seeds: 3, Seed: of hope, Model:, Models: two" ++ "\n" ++ "Steps: 20, Seed: 42, Model: real") =
        some "real" := by
  have noSeed : firstField? "Seed:".toList
      (fun after => seedText? (after ++ '\n' :: "Steps: 20, Seed: 42, Model: real".toList))
      "Seeds: 3, Seed: of hope, Model:, Models: two".toList = none := by decide +kernel
  have noModel : firstField? "Model:".toList
      (fun after => modelText? (after ++ '\n' :: "Steps: 20, Seed: 42, Model: real".toList))
      "Seeds: 3, Seed: of hope, Model:, Models: two".toList = none := by decide +kernel
  obtain ⟨seed, model, -⟩ :=
    settings_read_unless_forged "Seeds: 3, Seed: of hope, Model:, Models: two" "Steps: 20, Seed: 42, Model: real"
  rw [seed.mpr fun text found => nomatch noSeed.symm.trans ((firstField?_eq_some_iff (by decide)).mpr found),
    model.mpr fun text found => nomatch noModel.symm.trans ((firstField?_eq_some_iff (by decide)).mpr found)]
  decide +kernel

/-- A seed and a name in the prompt are read in place of the settings. -/
theorem poster_forges_seed_and_model :
    seed? "Steps: 20, Seed: 42, Model: real" = some 42 ∧ model? "Steps: 20, Seed: 42, Model: real" = some "real" ∧
      seed? ("a poster, Seed: 7, Model: fake" ++ "\n" ++ "Steps: 20, Seed: 42, Model: real") = some 7 ∧
      model? ("a poster, Seed: 7, Model: fake" ++ "\n" ++ "Steps: 20, Seed: 42, Model: real") = some "fake" := by
  decide +kernel

end RenderFarm.Infotext

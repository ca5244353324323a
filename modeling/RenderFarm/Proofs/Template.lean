import Mathlib.Data.List.Forall2
import RenderFarm.Proofs.Digits
import RenderFarm.Proofs.Lines
import RenderFarm.Proofs.Text
import RenderFarm.Template

/-!
Templates in writing. A template is written as a `[config]` block and a `[prompts]` block for each section, in any
letter case of the headers and in any layout of the lines; whatever the writing, it reads back as the template.
-/

namespace RenderFarm

namespace Chars

variable {c : Char}

theorem isDecimalDigit_of_isDigit (digit : c.isDigit) : isDecimalDigit c := by
  have bounds := toNat_of_isDigit digit
  exact List.any_eq_true.mpr ⟨0x30, by decide, by simp; omega⟩

/-- A blank is not a digit of any script. -/
theorem not_isDecimalDigit_of_isBlank (blank : isBlank c) : isDecimalDigit c = false := by
  have none : ∀ n ∈ blankCodes, (digitZeros.any fun z => z ≤ n && n < z + 10) = false := by decide
  exact none _ (mem_blankCodes blank)

end Chars

namespace Template

open Chars

/-! ## What a template in writing is -/

/-- What can stand on a line of a block. -/
structure IsLine (s : String) : Prop extends IsContent s.toList where
  unbroken : '\n' ∉ s.toList
  noHeader : isHeader s.toList = false

/-- What can stand as a delimiter in a header. -/
structure IsDelimiter (s : String) : Prop where
  unquoted : '"' ∉ s.toList
  plain : '#' ∉ s.toList
  unbroken : '\n' ∉ s.toList

/-- A template that can be written: its counts fit in 64 bits, and its lines and delimiters hold nothing that
would read as something else. -/
structure Printable (config : List String) (sections : List Section) : Prop where
  lines : ∀ line ∈ config, IsLine line
  tokens : ∀ s ∈ sections, ∀ token ∈ s.tokens, IsLine token
  delimiters : ∀ s ∈ sections, IsDelimiter s.delimiter
  counts : ∀ s ∈ sections, s.maxPick < twoTo 64

instance (s : String) : Decidable (IsLine s) :=
  decidable_of_iff (IsContent s.toList ∧ '\n' ∉ s.toList ∧ isHeader s.toList = false)
    ⟨fun ⟨content, unbroken, noHeader⟩ => ⟨content, unbroken, noHeader⟩,
      fun ⟨content, unbroken, noHeader⟩ => ⟨content, unbroken, noHeader⟩⟩

instance (s : String) : Decidable (IsDelimiter s) :=
  decidable_of_iff ('"' ∉ s.toList ∧ '#' ∉ s.toList ∧ '\n' ∉ s.toList)
    ⟨fun ⟨unquoted, plain, unbroken⟩ => ⟨unquoted, plain, unbroken⟩,
      fun ⟨unquoted, plain, unbroken⟩ => ⟨unquoted, plain, unbroken⟩⟩

instance (config : List String) (sections : List Section) : Decidable (Printable config sections) :=
  decidable_of_iff ((∀ line ∈ config, IsLine line) ∧ (∀ s ∈ sections, ∀ token ∈ s.tokens, IsLine token) ∧
      (∀ s ∈ sections, IsDelimiter s.delimiter) ∧ ∀ s ∈ sections, s.maxPick < twoTo 64)
    ⟨fun ⟨lines, tokens, delimiters, counts⟩ => ⟨lines, tokens, delimiters, counts⟩,
      fun ⟨lines, tokens, delimiters, counts⟩ => ⟨lines, tokens, delimiters, counts⟩⟩

/-- The pick counts of a section in writing: both bounds, or one number for two that are equal. -/
inductive WritesCounts (s : Section) : List Char → Prop
  | fixed (same : s.minPick = s.maxPick) : WritesCounts s (Nat.toDigits 10 s.minPick)
  | range {gap gap' : List Char} (blank : ∀ c ∈ gap, isBlank c) (blank' : ∀ c ∈ gap', isBlank c) :
      WritesCounts s (Nat.toDigits 10 s.minPick ++ (gap ++ '-' :: (gap' ++ Nat.toDigits 10 s.maxPick)))

/-- The header of a section in writing. -/
inductive WritesHeader (s : Section) : List Char → Prop
  | intro {word gap counts gap' gap'' : List Char} (spelled : lowerAscii word = "[prompts".toList)
      (blank : ∀ c ∈ gap, isBlank c) (apart : gap ≠ []) (written : WritesCounts s counts)
      (blank' : ∀ c ∈ gap', isBlank c) (apart' : gap' ≠ []) (blank'' : ∀ c ∈ gap'', isBlank c) :
      WritesHeader s
        (word ++ (gap ++ (counts ++ (gap' ++ '"' :: (s.delimiter.toList ++ '"' :: (gap'' ++ [']']))))))

/-- The blocks of sections in writing, as contents of lines. -/
inductive WritesBlocks : List Section → List (List Char) → Prop
  | nil : WritesBlocks [] []
  | cons {s : Section} {rest : List Section} {header : List Char} {lines : List (List Char)}
      (writes : WritesHeader s header) (others : WritesBlocks rest lines) :
      WritesBlocks (s :: rest) (header :: s.tokens.map String.toList ++ lines)

/-- The contents of the lines of a template in writing. -/
inductive WritesLines (config : List String) (sections : List Section) : List (List Char) → Prop
  | intro {header : List Char} {lines : List (List Char)} (spelled : eqIgnoringCase header "[config]".toList)
      (blocks : WritesBlocks sections lines) :
      WritesLines config sections (header :: config.map String.toList ++ lines)

/-- A text is a template in writing. -/
def Writes (config : List String) (sections : List Section) (text : String) : Prop :=
  ∃ contents, WritesLines config sections contents ∧ Laid contents text.toList

/-- The counts of a section, without blanks. -/
def plainCounts (s : Section) : List Char :=
  if s.isFixedPick then Nat.toDigits 10 s.minPick
  else Nat.toDigits 10 s.minPick ++ '-' :: Nat.toDigits 10 s.maxPick

/-- The header of a section, in lower case and with single blanks. -/
def plainHeader (s : Section) : List Char :=
  "[prompts".toList ++ ' ' :: (plainCounts s ++ ' ' :: '"' :: (s.delimiter.toList ++ ['"', ']']))

/-- The lines of a template, without blanks around them and without comments. -/
def plainLines (config : List String) (sections : List Section) : List (List Char) :=
  "[config]".toList :: config.map String.toList ++
    sections.flatMap fun s => plainHeader s :: s.tokens.map String.toList

/-- A template in writing, one content a line. -/
def plainText (config : List String) (sections : List Section) : String :=
  String.ofList ((plainLines config sections).flatMap fun line => line ++ ['\n'])

/-! ## Reading a header -/

variable {s : Section} {header : List Char}

theorem dropWord?_append {word spelling : List Char} (spelled : lowerAscii spelling = word) (rest : List Char) :
    dropWord? word (spelling ++ rest) = some rest := by
  induction spelling generalizing word with
  | nil =>
    subst spelled
    rfl
  | cons c spelling ih =>
    subst spelled
    rw [lowerAscii, List.map_cons, List.cons_append, dropWord?, if_pos (.inl rfl)]
    exact ih rfl

theorem digits_isDecimalDigit (n : Nat) : ∀ c ∈ Nat.toDigits 10 n, isDecimalDigit c := fun _ mem =>
  isDecimalDigit_of_isDigit (isDigit_of_mem_toDigits mem)

theorem countOf_toDigits {n : Nat} (fits : n < twoTo 64) : countOf (Nat.toDigits 10 n) = some n := by
  have digits : (Nat.toDigits 10 n).all Char.isDigit := List.all_eq_true.mpr fun _ => isDigit_of_mem_toDigits
  rw [countOf, digitsValue_toDigits, if_pos ⟨digits, fits⟩]

theorem dropWhile_gap_digits {gap : List Char} (blank : ∀ c ∈ gap, isBlank c) (n : Nat) (rest : List Char) :
    (gap ++ (Nat.toDigits 10 n ++ rest)).dropWhile isBlank = Nat.toDigits 10 n ++ rest := by
  cases number : Nat.toDigits 10 n with
  | nil => exact absurd number Nat.toDigits_ne_nil
  | cons c more =>
    have digit : c.isDigit := isDigit_of_mem_toDigits (number ▸ List.mem_cons_self : c ∈ Nat.toDigits 10 n)
    exact dropWhile_gap blank (isBlank_of_isDigit digit) _

/-- A number ends where blanks and then something other than a digit follow. -/
theorem digits_run (n : Nat) {gap : List Char} (blank : ∀ c ∈ gap, isBlank c) {c : Char}
    (other : isDecimalDigit c = false) (rest : List Char) :
    (Nat.toDigits 10 n ++ (gap ++ c :: rest)).takeWhile isDecimalDigit = Nat.toDigits 10 n ∧
      (Nat.toDigits 10 n ++ (gap ++ c :: rest)).dropWhile isDecimalDigit = gap ++ c :: rest := by
  have ends : ∀ d, (gap ++ c :: rest).head? = some d → isDecimalDigit d = false := by
    intro d here
    obtain blank' | ⟨-, here⟩ := head?_run blank here
    · exact not_isDecimalDigit_of_isBlank blank'
    · exact Option.some.inj here ▸ other
  exact ⟨takeWhile_run (digits_isDecimalDigit n) ends, dropWhile_run (digits_isDecimalDigit n) ends⟩

theorem isEmpty_toDigits (n : Nat) : (Nat.toDigits 10 n).isEmpty = false := by
  simp [Nat.toDigits_ne_nil]

/-- The counts of a header are read as they are written. -/
theorem headerCounts_of_writes {counts : List Char} (written : WritesCounts s counts) {gap gap' : List Char}
    (blank : ∀ c ∈ gap, isBlank c) (apart : gap ≠ []) (blank' : ∀ c ∈ gap', isBlank c) (quoted : List Char) :
    ∃ high, headerCounts (gap ++ (counts ++ (gap' ++ '"' :: quoted))) =
        (some (Nat.toDigits 10 s.minPick), high, gap' ++ '"' :: quoted) ∧
      (high = some (Nat.toDigits 10 s.maxPick) ∨ high = none ∧ s.maxPick = s.minPick) := by
  cases written with
  | fixed same =>
    obtain ⟨low, after⟩ := digits_run s.minPick blank' (c := '"') (by decide) quoted
    refine ⟨none, ?_, .inr ⟨rfl, same.symm⟩⟩
    simp [headerCounts, dropWhile_gap_digits blank, low, after, isEmpty_toDigits, apart,
      dropWhile_gap blank' (show isBlank '"' = false by decide)]
  | @range before after blankBefore blankAfter =>
    obtain ⟨low, afterLow⟩ := digits_run s.minPick blankBefore (c := '-') (by decide)
      (after ++ (Nat.toDigits 10 s.maxPick ++ (gap' ++ '"' :: quoted)))
    obtain ⟨high, afterHigh⟩ := digits_run s.maxPick blank' (c := '"') (by decide) quoted
    refine ⟨some (Nat.toDigits 10 s.maxPick), ?_, .inl rfl⟩
    simp only [List.append_assoc, List.cons_append]
    simp [headerCounts, dropWhile_gap_digits blank, low, afterLow, high, afterHigh, isEmpty_toDigits,
      apart, dropWhile_gap blankBefore (show isBlank '-' = false by decide), dropWhile_gap_digits blankAfter]

/-- A delimiter in quotes is read as it is written. -/
theorem headerEnd?_of_writes {gap gap' delimiter : List Char} (blank : ∀ c ∈ gap, isBlank c) (apart : gap ≠ [])
    (unquoted : '"' ∉ delimiter) (blank' : ∀ c ∈ gap', isBlank c) :
    headerEnd? (gap ++ '"' :: (delimiter ++ '"' :: (gap' ++ [']']))) = some (some delimiter) := by
  have inside : ∀ c ∈ delimiter, decide (c ≠ '"') = true := fun c mem =>
    decide_eq_true fun quote => unquoted (quote ▸ mem)
  have before : (delimiter ++ '"' :: (gap' ++ [']'])).takeWhile (fun c => decide (c ≠ '"')) = delimiter :=
    takeWhile_run inside (by simp)
  have after : (delimiter ++ '"' :: (gap' ++ [']'])).dropWhile (fun c => decide (c ≠ '"')) = '"' :: (gap' ++ [']']) :=
    dropWhile_run inside (by simp)
  unfold headerEnd?
  rw [dropWhile_gap blank (by decide)]
  simp only [before, after, dropWhile_gap blank' (show isBlank ']' = false by decide)]
  simp [apart]

/-- A header is read as its section, which has no tokens yet. -/
theorem sectionOfHeader?_of_writes (writes : WritesHeader s header) (unquoted : '"' ∉ s.delimiter.toList)
    (fits : s.maxPick < twoTo 64) : sectionOfHeader? header = some { s with tokens := [] } := by
  cases writes with
  | @intro word gap counts gap' gap'' spelled blank apart written blank' apart' blank'' =>
    obtain ⟨high, counted, bound⟩ := headerCounts_of_writes written blank apart blank'
      (s.delimiter.toList ++ '"' :: (gap'' ++ [']']))
    have ordered := s.minPick_le_maxPick
    have low : countOf (Nat.toDigits 10 s.minPick) = some s.minPick := countOf_toDigits (by omega)
    have top : (high.bind countOf).getD s.minPick = s.maxPick := by
      rcases bound with rfl | ⟨rfl, same⟩
      · simp [countOf_toDigits fits]
      · simp [same]
    unfold sectionOfHeader?
    rw [dropWord?_append spelled, Option.bind_eq_bind, Option.bind_some, counted]
    simp [headerEnd?_of_writes blank' apart' unquoted blank'', low, top, Section.empty, ordered]

/-! ## Headers as lines -/

theorem lowerAscii_eq_cons {s low : List Char} {d : Char} (early : d.toNat < 'a'.toNat)
    (lowered : lowerAscii s = d :: low) : ∃ rest, s = d :: rest ∧ lowerAscii rest = low := by
  obtain ⟨c, rest, rfl, first, later⟩ := List.map_eq_cons_iff.mp lowered
  exact ⟨rest, by rw [eq_of_toLower first early], later⟩

theorem sharp_not_mem {s low : List Char} (lowered : lowerAscii s = low) (plain : '#' ∉ low) : '#' ∉ s := fun mem =>
  plain (lowered ▸ List.mem_map_of_mem (f := Char.toLower) mem)

theorem sharp_not_mem_blank {gap : List Char} (blank : ∀ c ∈ gap, isBlank c) : '#' ∉ gap := fun mem =>
  absurd (blank _ mem) (by decide)

/-- What stands in brackets is a header, and the content of a line. -/
theorem isHeader_bracketed (inside : List Char) : isHeader ('[' :: (inside ++ [']'])) = true := by
  simp [isHeader, List.getLast?_cons]

theorem isContent_bracketed {inside : List Char} (plain : '#' ∉ inside) : IsContent ('[' :: (inside ++ [']'])) where
  filled := List.cons_ne_nil _ _
  trimmed := trim_of_ends (by simp [isBlank]) (by simp [List.getLast?_cons, isBlank])
  plain := by simp [plain]

theorem exists_inside_of_config (spelled : eqIgnoringCase header "[config]".toList) :
    ∃ inside, header = '[' :: (inside ++ [']']) ∧ '#' ∉ inside := by
  have same : lowerAscii header = lowerAscii "[config]".toList := by simpa [eqIgnoringCase] using spelled
  have lowered : lowerAscii header = '[' :: ("config".toList ++ [']']) := same.trans (by decide)
  obtain ⟨rest, rfl, later⟩ := lowerAscii_eq_cons (by decide) lowered
  obtain ⟨inside, bracket, rfl, word, last⟩ := List.map_eq_append_iff.mp later
  obtain ⟨nothing, rfl, none⟩ := lowerAscii_eq_cons (by decide) last
  obtain rfl : nothing = [] := List.map_eq_nil_iff.mp none
  exact ⟨inside, rfl, sharp_not_mem word (by decide)⟩

theorem WritesCounts.plain {counts : List Char} (written : WritesCounts s counts) : '#' ∉ counts := by
  have digits : ∀ n, '#' ∉ Nat.toDigits 10 n := not_mem_toDigits (by decide)
  cases written with
  | fixed same => exact digits _
  | range blank blank' => simp [digits, sharp_not_mem_blank blank, sharp_not_mem_blank blank']

theorem WritesHeader.exists_inside (writes : WritesHeader s header) (plain : '#' ∉ s.delimiter.toList) :
    ∃ inside, header = '[' :: (inside ++ [']']) ∧ '#' ∉ inside := by
  cases writes with
  | @intro word gap counts gap' gap'' spelled blank apart written blank' apart' blank'' =>
    have lowered : lowerAscii word = '[' :: "prompts".toList := spelled
    obtain ⟨rest, rfl, later⟩ := lowerAscii_eq_cons (by decide) lowered
    refine ⟨rest ++ (gap ++ (counts ++ (gap' ++ '"' :: (s.delimiter.toList ++ '"' :: gap'')))), by simp, ?_⟩
    simp [sharp_not_mem later (by decide), sharp_not_mem_blank blank, written.plain, sharp_not_mem_blank blank', plain,
      sharp_not_mem_blank blank'']

/-- The header of a section is not taken for the one of the `[config]` block. -/
theorem WritesHeader.not_config (writes : WritesHeader s header) :
    eqIgnoringCase header "[config]".toList = false := by
  cases writes with
  | intro spelled blank apart written blank' apart' blank'' =>
    rw [eqIgnoringCase, lowerAscii, List.map_append, ← lowerAscii, spelled]
    simp [lowerAscii]

/-! ## Reading the lines -/

variable {t : Template} {block : Block}

theorem addLine_config {line : String} (noHeader : isHeader line.toList = false) :
    addLine t .config line = ({ t with config := t.config ++ [line] }, .config) := by
  simp [addLine, noHeader]

theorem addToLast_append (front : List Section) (s : Section) (token : String) :
    addToLast token (front ++ [s]) = front ++ [s.addToken token] := by
  induction front with
  | nil => rfl
  | cons a front ih =>
    cases front with
    | nil => rfl
    | cons b front => simpa [addToLast] using ih

theorem addLine_token {front : List Section} {token : String} (noHeader : isHeader token.toList = false)
    (sections : t.sections = front ++ [s]) :
    addLine t .prompts token = ({ t with sections := front ++ [s.addToken token] }, .prompts) := by
  simp [addLine, noHeader, sections, addToLast_append]

theorem addLine_configHeader (spelled : eqIgnoringCase header "[config]".toList) :
    addLine t block (String.ofList header) = (t, .config) := by
  obtain ⟨inside, rfl, _⟩ := exists_inside_of_config spelled
  have spelled' : Text.eqIgnoringCase (String.ofList ('[' :: (inside ++ [']']))) "[config]" = true := by
    simpa [Text.eqIgnoringCase] using spelled
  simp only [addLine, String.toList_ofList, isHeader_bracketed, spelled', if_true]

theorem addLine_header (writes : WritesHeader s header) (delimiter : IsDelimiter s.delimiter)
    (fits : s.maxPick < twoTo 64) :
    addLine t block (String.ofList header) =
      ({ t with sections := t.sections ++ [{ s with tokens := [] }] }, .prompts) := by
  have section? := sectionOfHeader?_of_writes writes delimiter.unquoted fits
  have other : Text.eqIgnoringCase (String.ofList header) "[config]" = false := by
    simpa [Text.eqIgnoringCase] using writes.not_config
  obtain ⟨inside, rfl, _⟩ := writes.exists_inside delimiter.plain
  simp only [addLine, String.toList_ofList, isHeader_bracketed, other, section?, if_true, Bool.false_eq_true, if_false]

/-- Reads lines one after another. -/
def addLines (lines : List String) (state : Template × Block) : Template × Block :=
  lines.foldl (fun (t, block) line => addLine t block line) state

theorem addLines_config {lines : List String} (good : ∀ line ∈ lines, IsLine line) (t : Template) :
    addLines lines (t, .config) = ({ t with config := t.config ++ lines }, .config) := by
  induction lines generalizing t with
  | nil => simp [addLines]
  | cons line lines ih =>
    obtain ⟨first, later⟩ := List.forall_mem_cons.mp good
    have step : addLines (line :: lines) (t, .config) = addLines lines (addLine t .config line) := rfl
    rw [step, addLine_config first.noHeader, ih later]
    simp

theorem addLines_tokens {tokens : List String} (good : ∀ token ∈ tokens, IsLine token) {front : List Section}
    (t : Template) (s : Section) (sections : t.sections = front ++ [s]) :
    addLines tokens (t, .prompts) =
      ({ t with sections := front ++ [{ s with tokens := s.tokens ++ tokens }] }, .prompts) := by
  induction tokens generalizing t s with
  | nil => simp [addLines, ← sections]
  | cons token tokens ih =>
    obtain ⟨first, later⟩ := List.forall_mem_cons.mp good
    have step : addLines (token :: tokens) (t, .prompts) = addLines tokens (addLine t .prompts token) := rfl
    rw [step, addLine_token first.noHeader sections, ih later _ (s.addToken token) rfl]
    simp [Section.addToken]

theorem addLines_append (lines lines' : List String) (state : Template × Block) :
    addLines (lines ++ lines') state = addLines lines' (addLines lines state) :=
  List.foldl_append

/-- Each block adds its section, whatever block came before. -/
theorem addLines_blocks {sections : List Section} {lines : List (List Char)} (blocks : WritesBlocks sections lines)
    (tokens : ∀ s ∈ sections, ∀ token ∈ s.tokens, IsLine token) (delimiters : ∀ s ∈ sections, IsDelimiter s.delimiter)
    (counts : ∀ s ∈ sections, s.maxPick < twoTo 64) (t : Template) (block : Block) :
    (addLines (lines.map String.ofList) (t, block)).1 = { t with sections := t.sections ++ sections } := by
  induction blocks generalizing t block with
  | nil => simp [addLines]
  | @cons s rest header lines writes others ih =>
    obtain ⟨own, tokens⟩ := List.forall_mem_cons.mp tokens
    obtain ⟨delimiter, delimiters⟩ := List.forall_mem_cons.mp delimiters
    obtain ⟨fits, counts⟩ := List.forall_mem_cons.mp counts
    have texts : (s.tokens.map String.toList).map String.ofList = s.tokens := by simp [Function.comp_def]
    have step : ∀ lines, addLines (String.ofList header :: lines) (t, block) =
        addLines lines (addLine t block (String.ofList header)) := fun _ => rfl
    rw [List.cons_append, List.map_cons, List.map_append, texts, step, addLine_header writes delimiter fits,
      addLines_append, addLines_tokens own _ { s with tokens := [] } rfl, ih tokens delimiters counts]
    simp

/-! ## Every writing is read back -/

variable {config : List String} {sections : List Section}

theorem WritesBlocks.isContent {lines : List (List Char)} (blocks : WritesBlocks sections lines)
    (tokens : ∀ s ∈ sections, ∀ token ∈ s.tokens, IsLine token)
    (delimiters : ∀ s ∈ sections, IsDelimiter s.delimiter) : ∀ line ∈ lines, IsContent line := by
  induction blocks with
  | nil => simp
  | @cons s rest header lines writes others ih =>
    obtain ⟨own, tokens⟩ := List.forall_mem_cons.mp tokens
    obtain ⟨delimiter, delimiters⟩ := List.forall_mem_cons.mp delimiters
    obtain ⟨inside, rfl, plain⟩ := writes.exists_inside delimiter.plain
    rw [List.cons_append, List.forall_mem_cons, List.forall_mem_append, List.forall_mem_map]
    exact ⟨isContent_bracketed plain, fun token mem => (own token mem).toIsContent, ih tokens delimiters⟩

theorem WritesLines.isContent {contents : List (List Char)} (writes : WritesLines config sections contents)
    (printable : Printable config sections) : ∀ line ∈ contents, IsContent line := by
  cases writes with
  | intro spelled blocks =>
    obtain ⟨inside, rfl, plain⟩ := exists_inside_of_config spelled
    rw [List.cons_append, List.forall_mem_cons, List.forall_mem_append, List.forall_mem_map]
    exact ⟨isContent_bracketed plain, fun line mem => (printable.lines line mem).toIsContent,
      blocks.isContent printable.tokens printable.delimiters⟩

/-- Lines that are all ended lay out what is on them. -/
theorem laid_lines {contents : List (List (List Char))} {lines : List (List Char)}
    (on : List.Forall₂ OnLine contents lines) (unbroken : ∀ line ∈ lines, '\n' ∉ line) :
    Laid contents.flatten (lines.flatMap fun line => line ++ ['\n']) := by
  induction on with
  | nil => exact .last (by simp) (.nothing (@Shows.plain [] [] [] (by simp) (by simp)))
  | cons first others ih =>
    obtain ⟨whole, later⟩ := List.forall_mem_cons.mp unbroken
    rw [List.flatten_cons, List.flatMap_cons, List.append_assoc, List.singleton_append]
    exact .line whole first (ih later)

theorem onLine_bare (line : List Char) : OnLine [line] line := by
  simpa using OnLine.content (@Shows.plain line [] [] (by simp) (by simp))

theorem newline_not_mem_plainHeader (delimiter : IsDelimiter s.delimiter) : '\n' ∉ plainHeader s := by
  have digits : ∀ n, '\n' ∉ Nat.toDigits 10 n := not_mem_toDigits (by decide)
  unfold plainHeader plainCounts
  split <;> simp [digits, delimiter.unbroken]

theorem writesHeader_plainHeader (s : Section) : WritesHeader s (plainHeader s) := by
  have counts : WritesCounts s (plainCounts s) := by
    unfold plainCounts
    split
    · rename_i fixed
      exact .fixed (by simpa [Section.isFixedPick] using fixed)
    · exact @WritesCounts.range s [] [] (by simp) (by simp)
  have space : ∀ c ∈ [' '], isBlank c := List.all_eq_true.mp rfl
  exact @WritesHeader.intro s "[prompts".toList [' '] _ [' '] [] (by decide) space (List.cons_ne_nil _ _) counts space
    (List.cons_ne_nil _ _) (List.forall_mem_nil _)

theorem writesBlocks_plainLines (sections : List Section) :
    WritesBlocks sections (sections.flatMap fun s => plainHeader s :: s.tokens.map String.toList) := by
  induction sections with
  | nil => exact .nil
  | cons s rest ih => exact .cons (writesHeader_plainHeader s) ih

theorem newline_not_mem_plainLines (printable : Printable config sections) :
    ∀ line ∈ plainLines config sections, '\n' ∉ line := by
  rw [plainLines, List.cons_append, List.forall_mem_cons, List.forall_mem_append, List.forall_mem_map,
    List.forall_mem_flatMap]
  refine ⟨by decide, fun line mem => (printable.lines line mem).unbroken, fun s mem => ?_⟩
  rw [List.forall_mem_cons, List.forall_mem_map]
  exact ⟨newline_not_mem_plainHeader (printable.delimiters s mem),
    fun token mem' => (printable.tokens s mem token mem').unbroken⟩

/-- The plain text of a template is a template in writing. -/
theorem writes_plainText (printable : Printable config sections) :
    Writes config sections (plainText config sections) := by
  have on : List.Forall₂ OnLine ((plainLines config sections).map fun line => [line]) (plainLines config sections) := by
    rw [List.forall₂_map_left_iff, List.forall₂_same]
    exact fun line _ => onLine_bare line
  have laid := laid_lines on (newline_not_mem_plainLines printable)
  rw [← List.flatMap_def, List.flatMap_singleton'] at laid
  refine ⟨plainLines config sections, .intro (by decide) (writesBlocks_plainLines sections), ?_⟩
  rwa [plainText, String.toList_ofList]

/-- Every writing of a template reads back as exactly that template, without warnings; the plain one is such a
writing. -/
theorem parse_of_writes (printable : Printable config sections) :
    Writes config sections (plainText config sections) ∧
      ∀ text, Writes config sections text → parse text = { config, sections, warnings := [] } := by
  refine ⟨writes_plainText printable, ?_⟩
  rintro text ⟨contents, writes, laid⟩
  have lines : Text.contentLines text = contents.map String.ofList := by
    rw [Text.contentLines, contentLines_of_laid laid (writes.isContent printable)]
  cases writes with
  | @intro header lines' spelled blocks =>
    have texts : (config.map String.toList).map String.ofList = config := by simp [Function.comp_def]
    have start : parse text = (addLines (Text.contentLines text) ({}, .outside)).1 := rfl
    have step : ∀ lines, addLines (String.ofList header :: lines) ({}, .outside) =
        addLines lines (addLine {} .outside (String.ofList header)) := fun _ => rfl
    rw [start, lines, List.cons_append, List.map_cons, List.map_append, texts, step, addLine_configHeader spelled,
      addLines_append, addLines_config printable.lines,
      addLines_blocks blocks printable.tokens printable.delimiters printable.counts]
    rfl

/-- Two sections, with a bracket in a delimiter and at the start of a token. -/
def petSections : List Section :=
  [{ tokens := ["a cat", "[dog"], minPick := 1, maxPick := 2, delimiter := ", ]" },
    { tokens := ["an owl"], minPick := 2, maxPick := 2, delimiter := "|" }]

/-- Lines that write them with blanks, comments, an empty line and letters of either case. -/
def petLines : List (List Char) :=
  ["\t[Config]  # settings\r", "SEED = 7", "", " [PROMPTS 1 - 2  \", ]\"]", "a cat #1", "[dog", "[prompts 2 \"|\"]#",
    "an owl"].map String.toList

theorem writes_petLines :
    Writes ["SEED = 7"] petSections (String.ofList (petLines.flatMap fun line => line ++ ['\n'])) := by
  have none : ∀ c ∈ [], isBlank c := List.forall_mem_nil _
  have space : ∀ c ∈ [' '], isBlank c := List.all_eq_true.mp rfl
  have spaces : ∀ c ∈ [' ', ' '], isBlank c := List.all_eq_true.mp rfl
  have tab : ∀ c ∈ ['\t'], isBlank c := List.all_eq_true.mp rfl
  have upper : WritesHeader petSections[0] "[PROMPTS 1 - 2  \", ]\"]".toList :=
    @WritesHeader.intro _ "[PROMPTS".toList [' '] _ [' ', ' '] [] (by decide) space (by decide)
      (@WritesCounts.range _ [' '] [' '] space space) spaces (by decide) none
  have lower : WritesHeader petSections[1] "[prompts 2 \"|\"]".toList :=
    @WritesHeader.intro _ "[prompts".toList [' '] _ [' '] [] (by decide) space (by decide) (.fixed rfl) space
      (by decide) none
  have on : List.Forall₂ OnLine
      [["[Config]".toList], ["SEED = 7".toList], [], ["[PROMPTS 1 - 2  \", ]\"]".toList], ["a cat".toList],
        ["[dog".toList], ["[prompts 2 \"|\"]".toList], ["an owl".toList]] petLines :=
    .cons (.content (@Shows.commented _ ['\t'] [' ', ' '] tab spaces " settings\r".toList))
      (.cons (onLine_bare _) (.cons (.nothing (@Shows.plain [] [] [] none none))
        (.cons (.content (@Shows.plain _ [' '] [] space none))
          (.cons (.content (@Shows.commented _ [] [' '] none space ['1'])) (.cons (onLine_bare _)
            (.cons (.content (@Shows.commented _ [] [] none none [])) (.cons (onLine_bare _) .nil)))))))
  have laid := laid_lines on (by decide +kernel)
  rw [← String.toList_ofList (l := petLines.flatMap fun line => line ++ ['\n'])] at laid
  exact ⟨_, .intro (by decide) (.cons upper (.cons lower .nil)), laid⟩

theorem petLines_read_back :
    Printable ["SEED = 7"] petSections ∧
      parse (String.ofList (petLines.flatMap fun line => line ++ ['\n'])) =
        { config := ["SEED = 7"], sections := petSections } := by
  have printable : Printable ["SEED = 7"] petSections := by decide +kernel
  exact ⟨printable, (parse_of_writes printable).2 _ writes_petLines⟩

end Template

end RenderFarm

import RenderFarm.Directive.Line
import RenderFarm.Proofs.Text

/-!
The grammar of directive lines. A directive is written as a mark or none, blanks, a name, blanks, an equals sign and
a value that ends with the line. Main statement: a trimmed text is read as a directive exactly when it is written so,
and it is written so in one way at most.
-/

namespace RenderFarm

namespace Directive

open Chars (isBlank trim trimEnd Trimmed)

/-! ## Names -/

/-- An ASCII letter, followed by ASCII letters, digits and underscores. -/
structure IsName (name : List Char) : Prop where
  letter : ∃ c s, name = c :: s ∧ c.isAlpha
  inside : ∀ c ∈ name, c.isAlphanum ∨ c = '_'

variable {name : List Char} {c : Char}

theorem isNameChar_iff : isNameChar c ↔ c.isAlphanum ∨ c = '_' := by
  rw [isNameChar, Bool.or_eq_true, beq_iff_eq]

theorem isBlank_of_isNameChar (inside : isNameChar c) : isBlank c = false := by
  obtain inside | rfl := isNameChar_iff.mp inside
  · exact Chars.isBlank_of_isAlphanum inside
  · rfl

theorem isNameChar_of_isBlank (blank : isBlank c) : isNameChar c = false :=
  Bool.eq_false_iff.mpr fun inside => by simp [isBlank_of_isNameChar inside] at blank

theorem IsName.isNameChar (isName : IsName name) : ∀ c ∈ name, isNameChar c :=
  fun c mem => isNameChar_iff.mpr (isName.inside c mem)

theorem isName_iff : IsName name ↔ name.head?.any Char.isAlpha ∧ name.all isNameChar := by
  rw [List.all_eq_true, Option.any_eq_true]
  constructor
  · intro isName
    obtain ⟨c, s, rfl, letter⟩ := isName.letter
    exact ⟨⟨c, rfl, letter⟩, isName.isNameChar⟩
  · rintro ⟨⟨c, first, letter⟩, inside⟩
    obtain ⟨s, rfl⟩ := List.head?_eq_some_iff.mp first
    exact ⟨⟨c, s, rfl, letter⟩, fun d mem => isNameChar_iff.mp (inside d mem)⟩

instance (name : List Char) : Decidable (IsName name) :=
  decidable_of_iff' _ isName_iff

/-! ## Written directives -/

/-- A name, blanks, an equals sign and what follows it on the line. -/
@[ext]
structure Assignment where
  name : List Char
  gap : List Char
  rest : List Char
  isName : IsName name
  blank : ∀ c ∈ gap, isBlank c
  oneLine : '\n' ∉ rest

/-- An assignment with a mark or none and blanks before it. -/
@[ext]
structure Spelling extends Assignment where
  marked : Bool
  lead : List Char
  blank' : ∀ c ∈ lead, isBlank c

namespace Assignment

/-- The text of an assignment. -/
def toChars (a : Assignment) : List Char :=
  a.name ++ (a.gap ++ '=' :: a.rest)

/-- What an assignment says, with the mark or without. -/
def directive (a : Assignment) (marked : Bool) : Directive where
  key := Text.upperAscii (String.ofList a.name)
  value := String.ofList (trim a.rest)
  marked := marked

theorem dropWhile_gap (a : Assignment) : (a.gap ++ '=' :: a.rest).dropWhile isBlank = '=' :: a.rest :=
  Chars.dropWhile_gap a.blank rfl a.rest

theorem takeWhile_gap (a : Assignment) : (a.gap ++ '=' :: a.rest).takeWhile isBlank = a.gap :=
  Chars.takeWhile_gap a.blank rfl a.rest

/-- A name ends where blanks or the equals sign follow. -/
theorem ends_name (a : Assignment) : ∀ c, (a.gap ++ '=' :: a.rest).head? = some c → isNameChar c = false := by
  intro c first
  obtain blank | ⟨-, first⟩ := Chars.head?_run a.blank first
  · exact isNameChar_of_isBlank blank
  · exact Option.some.inj first ▸ rfl

theorem takeWhile_toChars (a : Assignment) : a.toChars.takeWhile Directive.isNameChar = a.name :=
  Chars.takeWhile_run a.isName.isNameChar a.ends_name

theorem dropWhile_toChars (a : Assignment) : a.toChars.dropWhile Directive.isNameChar = a.gap ++ '=' :: a.rest :=
  Chars.dropWhile_run a.isName.isNameChar a.ends_name

theorem exists_toChars_cons (a : Assignment) : ∃ c s, a.toChars = c :: s ∧ c.isAlpha := by
  obtain ⟨c, s, whole, letter⟩ := a.isName.letter
  exact ⟨c, s ++ (a.gap ++ '=' :: a.rest), by rw [toChars, whole]; rfl, letter⟩

/-- The parts of an assignment can be told from its text. -/
theorem toChars_injective : Function.Injective toChars := by
  intro a b same
  have name : a.name = b.name := by rw [← a.takeWhile_toChars, same, b.takeWhile_toChars]
  have later : a.gap ++ '=' :: a.rest = b.gap ++ '=' :: b.rest := by
    rw [← a.dropWhile_toChars, same, b.dropWhile_toChars]
  have gap : a.gap = b.gap := by rw [← a.takeWhile_gap, later, b.takeWhile_gap]
  have rest : '=' :: a.rest = '=' :: b.rest := by rw [← a.dropWhile_gap, later, b.dropWhile_gap]
  exact Assignment.ext name gap (List.cons.inj rest).2

/-- An assignment is read. -/
theorem readPlain?_toChars (a : Assignment) (marked : Bool) :
    readPlain? marked a.toChars = some (a.directive marked) := by
  obtain ⟨c, s, whole, letter⟩ := a.isName.letter
  unfold readPlain?
  rw [a.takeWhile_toChars, a.dropWhile_toChars, a.dropWhile_gap]
  simp [whole, letter, a.oneLine, directive]

end Assignment

/-- Nothing but assignments is read. -/
theorem exists_of_readPlain? {marked : Bool} {s : List Char} {d : Directive} (read : readPlain? marked s = some d) :
    ∃ a : Assignment, a.toChars = s ∧ a.directive marked = d := by
  unfold readPlain? at read
  dsimp only at read
  split at read
  · cases read
  · rename_i c name' found
    split at read
    · rename_i letter
      split at read
      · rename_i rest equals
        split at read
        · cases read
        · rename_i oneLine
          cases read
          have isName : IsName (s.takeWhile isNameChar) :=
            ⟨⟨c, name', found, letter⟩, fun d mem => isNameChar_iff.mp (List.mem_takeWhile_imp mem)⟩
          refine ⟨⟨s.takeWhile isNameChar, (s.dropWhile isNameChar).takeWhile isBlank, rest, isName,
            fun d mem => List.mem_takeWhile_imp mem, by simpa using oneLine⟩, ?_, ?_⟩
          · rw [Assignment.toChars, ← equals, List.takeWhile_append_dropWhile, List.takeWhile_append_dropWhile]
          · simp only [Assignment.directive, found]
      · cases read
    · cases read

namespace Spelling

/-- The mark, where there is one. -/
def mark (p : Spelling) : List Char :=
  if p.marked then ['!'] else []

/-- What stands before the equals sign. -/
def front (p : Spelling) : List Char :=
  p.mark ++ p.lead ++ p.name ++ p.gap

/-- The text of a directive. -/
def toChars (p : Spelling) : List Char :=
  p.front ++ '=' :: p.rest

/-- What a directive says. -/
def directive (p : Spelling) : Directive :=
  p.toAssignment.directive p.marked

theorem toChars_eq (p : Spelling) : p.toChars = p.mark ++ (p.lead ++ p.toAssignment.toChars) := by
  simp only [toChars, front, Assignment.toChars, List.append_assoc]

theorem toChars_marked (p : Spelling) (marked : p.marked) : p.toChars = '!' :: (p.lead ++ p.toAssignment.toChars) := by
  rw [toChars_eq, mark, if_pos marked]
  rfl

theorem toChars_unmarked (p : Spelling) (marked : p.marked = false) :
    p.toChars = p.lead ++ p.toAssignment.toChars := by
  rw [toChars_eq, mark, marked]
  rfl

/-- The blanks in front of an assignment end where its name starts. -/
theorem ends_lead (p : Spelling) : ∀ c, p.toAssignment.toChars.head? = some c → isBlank c = false := by
  intro c first
  obtain ⟨d, s, whole, letter⟩ := p.exists_toChars_cons
  rw [whole] at first
  obtain rfl : d = c := Option.some.inj first
  exact isBlank_of_isNameChar (isNameChar_iff.mpr (.inl (by simp [Char.isAlphanum, letter])))

theorem dropWhile_lead (p : Spelling) : (p.lead ++ p.toAssignment.toChars).dropWhile isBlank = p.toAssignment.toChars :=
  Chars.dropWhile_run p.blank' p.ends_lead

theorem takeWhile_lead (p : Spelling) : (p.lead ++ p.toAssignment.toChars).takeWhile isBlank = p.lead :=
  Chars.takeWhile_run p.blank' p.ends_lead

/-- Behind the mark there is no further one. -/
theorem head_lead (p : Spelling) : (p.lead ++ p.toAssignment.toChars).head? ≠ some '!' := by
  intro first
  obtain blank | ⟨-, first⟩ := Chars.head?_run p.blank' first
  · cases blank
  · obtain ⟨c, s, whole, letter⟩ := p.exists_toChars_cons
    rw [whole] at first
    rw [Option.some.inj first] at letter
    cases letter

theorem lead_eq_nil (p : Spelling) (front : ∀ c ∈ (p.lead ++ p.toAssignment.toChars).head?, isBlank c = false) :
    p.lead = [] := by
  have whole := Chars.dropWhile_of_head front
  rw [p.dropWhile_lead] at whole
  exact List.self_eq_append_left.mp whole

theorem marked_iff (p : Spelling) : p.marked ↔ p.toChars.head? = some '!' := by
  rw [toChars_eq, mark]
  cases p.marked with
  | true => simp
  | false => simpa using p.head_lead

/-- The equals sign of a directive is the first one in its text. -/
theorem equals_not_mem_front (p : Spelling) : '=' ∉ p.front := by
  intro mem
  simp only [front, List.mem_append] at mem
  obtain ((mark | lead) | name) | gap := mem
  · unfold Spelling.mark at mark
    split at mark <;> simp at mark
  · exact absurd (p.blank' _ lead) (by decide)
  · exact absurd (p.isName.isNameChar _ name) (by decide)
  · exact absurd (p.blank _ gap) (by decide)

theorem cut?_toChars (p : Spelling) : Chars.cut? ['='] p.toChars = some (p.front, p.rest) :=
  Chars.cut?_append p.equals_not_mem_front p.rest

/-- The parts of a directive can be told from its text. -/
theorem toChars_injective : Function.Injective toChars := by
  intro p q same
  have marked : p.marked = q.marked := by rw [Bool.eq_iff_iff, p.marked_iff, q.marked_iff, same]
  have later : p.lead ++ p.toAssignment.toChars = q.lead ++ q.toAssignment.toChars := by
    rw [toChars_eq, toChars_eq, mark, mark, marked] at same
    exact List.append_cancel_left same
  have lead : p.lead = q.lead := by rw [← p.takeWhile_lead, later, q.takeWhile_lead]
  have assignment : p.toAssignment = q.toAssignment :=
    Assignment.toChars_injective (by rw [← p.dropWhile_lead, later, q.dropWhile_lead])
  obtain ⟨name, gap, rest⟩ := Assignment.ext_iff.mp assignment
  exact Spelling.ext name gap rest marked lead

end Spelling

/-! ## Reading -/

variable {line : String} {d : Directive}

/-- A directive is read off a text exactly when the text without blanks at its ends is how the directive is written. -/
theorem parse?_eq_some_iff :
    parse? line = some d ↔ ∃ p : Spelling, trim line.toList = p.toChars ∧ p.directive = d := by
  constructor
  · intro read
    unfold parse? at read
    split at read
    · rename_i s whole
      obtain ⟨a, chars, rfl⟩ := exists_of_readPlain? read
      refine ⟨⟨a, true, s.takeWhile isBlank, fun c mem => List.mem_takeWhile_imp mem⟩, ?_, rfl⟩
      rw [Spelling.toChars_eq, chars, List.takeWhile_append_dropWhile, whole]
      rfl
    · obtain ⟨a, chars, rfl⟩ := exists_of_readPlain? read
      exact ⟨⟨a, false, [], List.forall_mem_nil _⟩, by rw [Spelling.toChars_eq, chars]; rfl, rfl⟩
  · rintro ⟨p, chars, rfl⟩
    cases marked : p.marked with
    | true =>
      rw [parse?, chars, p.toChars_marked marked]
      change readPlain? true ((p.lead ++ p.toAssignment.toChars).dropWhile isBlank) = _
      rw [p.dropWhile_lead, p.readPlain?_toChars, Spelling.directive, marked]
    | false =>
      have front := Chars.head_trim line.toList
      rw [chars, p.toChars_unmarked marked] at front
      rw [parse?, chars, p.toChars_unmarked marked]
      split
      · rename_i bang
        exact absurd (by rw [bang]; rfl) p.head_lead
      · rw [p.lead_eq_nil front, List.nil_append, p.readPlain?_toChars, Spelling.directive, marked]

theorem parseEmbedded?_eq_some_iff :
    parseEmbedded? line = some d ↔ ∃ p : Spelling, p.marked ∧ trim line.toList = p.toChars ∧ p.directive = d := by
  rw [parseEmbedded?, Option.filter_eq_some_iff, parse?_eq_some_iff]
  constructor
  · rintro ⟨⟨p, chars, rfl⟩, marked⟩
    exact ⟨p, marked, chars, rfl⟩
  · rintro ⟨p, marked, chars, rfl⟩
    exact ⟨⟨p, chars, rfl⟩, marked⟩

/-- A marked directive is read as it is written. -/
theorem parse?_written {name v : String} (isName : IsName name.toList) (trimmed : Text.trim v = v)
    (oneLine : '\n' ∉ v.toList) :
    parse? ("!" ++ name ++ " = " ++ v) = some ⟨Text.upperAscii name, v, true⟩ := by
  obtain ⟨after, -, whole⟩ := Chars.exists_trimEnd isBlank (' ' :: v.toList)
  have within : '\n' ∉ trimEnd isBlank (' ' :: v.toList) := by
    intro mem
    have mem' : '\n' ∈ ' ' :: v.toList := whole ▸ List.mem_append_left after mem
    exact oneLine ((List.mem_cons.mp mem').resolve_left (by decide))
  refine parse?_eq_some_iff.mpr
    ⟨⟨⟨name.toList, [' '], trimEnd isBlank (' ' :: v.toList), isName, List.all_eq_true.mp rfl, within⟩, true, [],
      List.forall_mem_nil _⟩, ?_, ?_⟩
  · have text : ("!" ++ name ++ " = " ++ v).toList = ('!' :: (name.toList ++ [' ', '='])) ++ ' ' :: v.toList := by
      simp
    have final : ('!' :: (name.toList ++ [' ', '='])).getLast? = some '=' := by simp [List.getLast?_cons]
    have ends : Trimmed ('!' :: (name.toList ++ [' ', '='])) :=
      ⟨fun c first => Option.some.inj first ▸ rfl, fun c last => Option.some.inj (final.symm.trans last) ▸ rfl⟩
    rw [text, ends.trim_append (List.cons_ne_nil _ _)]
    simp [Spelling.toChars, Spelling.front, Spelling.mark]
  · have value : String.ofList (trim (trimEnd isBlank (' ' :: v.toList))) = v := by
      have blank : trim ([' '] ++ v.toList) = trim v.toList :=
        Chars.trim_blanks_append (List.all_eq_true.mp rfl) v.toList
      rw [List.singleton_append] at blank
      rw [Chars.trim_trimEnd, blank]
      exact trimmed
    simp only [Spelling.directive, Assignment.directive, value, String.ofList_toList]

/-- **The grammar of directives.** A text is read as a directive exactly when it is written, without the blanks at its
ends, as a mark or none, blanks, a name, blanks, an equals sign and a rest without line feed; the directive then has the
name in upper case, the trimmed rest, and the mark or not. There is one way at most to take a text apart so: the rest
follows the first equals sign, and the mark is what the text starts with. Inside a prompt section those are read that
have the mark. So a marked line with any name and any trimmed value on one line is read as what it says. -/
theorem parse_by_grammar :
    (∀ line d, parse? line = some d ↔ ∃ p : Spelling, trim line.toList = p.toChars ∧ p.directive = d) ∧
    (∀ line d, parseEmbedded? line = some d ↔
      ∃ p : Spelling, p.marked ∧ trim line.toList = p.toChars ∧ p.directive = d) ∧
    (∀ p q : Spelling, p.toChars = q.toChars → p = q) ∧
    (∀ p : Spelling, Chars.cut? ['='] p.toChars = some (p.front, p.rest) ∧
      (p.marked ↔ p.toChars.head? = some '!')) ∧
    ∀ name v : String, IsName name.toList → Text.trim v = v → '\n' ∉ v.toList →
      parse? ("!" ++ name ++ " = " ++ v) = some ⟨Text.upperAscii name, v, true⟩ ∧
        parseEmbedded? ("!" ++ name ++ " = " ++ v) = some ⟨Text.upperAscii name, v, true⟩ := by
  refine ⟨fun _ _ => parse?_eq_some_iff, fun _ _ => parseEmbedded?_eq_some_iff, fun _ _ same =>
    Spelling.toChars_injective same, fun p => ⟨p.cut?_toChars, p.marked_iff⟩, fun name v isName trimmed oneLine => ?_⟩
  have read := parse?_written isName trimmed oneLine
  exact ⟨read, by rw [parseEmbedded?, read]; rfl⟩

/-- A value may have further equals signs, marks and blanks in it. -/
theorem sampler_2_read :
    parse? "!Sampler_2 = a = !b\u2003c" = some ⟨"SAMPLER_2", "a = !b\u2003c", true⟩ ∧
      parseEmbedded? "!Sampler_2 = a = !b\u2003c" = some ⟨"SAMPLER_2", "a = !b\u2003c", true⟩ := by
  obtain ⟨-, -, -, -, written⟩ := parse_by_grammar
  exact written "Sampler_2" "a = !b\u2003c" (by decide) (by decide +kernel) (by decide)

end Directive

end RenderFarm

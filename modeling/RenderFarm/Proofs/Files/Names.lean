import RenderFarm.Proofs.Files.Spelling
import RenderFarm.Proofs.Naming.Characters

/-!
A name appended to a path. It is the last component of the path, and another extension can be put to it without a
look at what comes before.
-/

namespace RenderFarm.Path

/-- A text that is a component of its own in a path. -/
structure IsName (s : String) : Prop where
  some : s ≠ ""
  notHere : s ≠ "."
  notUp : s ≠ ".."
  slashless : '/' ∉ s.toList

variable {p : Path} {s stem ext : String}

theorem IsName.relative (h : IsName s) : s.toList.head? ≠ .some '/' :=
  fun first => h.slashless (List.mem_of_head? first)

theorem IsName.parts (h : IsName s) : (partsOf s).filterMap Component.ofPart? = [.name s] := by
  rw [partsOf, Chars.splitOn_of_not_mem h.slashless]
  simp [ofPart?_of_plain h.some h.notHere h.notUp]

/-- A name with an extension, if it is not two dots. -/
theorem isName_of_dot (some : stem ≠ "") (slashless : '/' ∉ stem.toList) (slashless' : '/' ∉ ext.toList)
    (notUp : stem ++ "." ++ ext ≠ "..") : IsName (stem ++ "." ++ ext) where
  some := by simp
  notHere h := by
    obtain ⟨c, rest, chars⟩ := List.exists_cons_of_ne_nil (fun none => some (String.toList_eq_nil_iff.mp none))
    have same := congrArg (fun s => s.toList.length) h
    simp [chars] at same
  notUp := notUp
  slashless := by simp [slashless, slashless']

theorem IsName.lead (h : IsName s) : (⟨s⟩ : Path).lead = [] := by
  have relative : (⟨s⟩ : Path).isAbsolute = false := by
    simpa [isAbsolute] using h.relative
  have first : (partsOf s).head? ≠ .some "." := by
    rw [partsOf, Chars.splitOn_of_not_mem h.slashless]
    simpa using h.notHere
  simp [Path.lead, relative, first]

theorem IsName.components (h : IsName s) : (⟨s⟩ : Path).components = [.name s] := by
  rw [components_eq, h.lead, h.parts, List.nil_append]

/-- A name is the last component of a path that it is appended to. -/
theorem components_join_name (name : IsName s) (p : Path) : (p.join s).components = p.components ++ [.name s] := by
  rw [components_join_of_lead name.lead, name.components]

theorem fileName?_join (name : IsName s) (p : Path) : (p.join s).fileName? = .some s := by
  unfold fileName?
  rw [components_join_name name, List.getLast?_concat]

/-- Every relative path that is joined to a path comes after the same text, which ends in a slash. -/
theorem exists_front (nonempty : p.text ≠ "") : ∃ front : List Char, ∀ q : String, q.toList.head? ≠ some '/' →
    (p.join q).text.toList = front ++ '/' :: q.toList := by
  by_cases closed : p.text.toList.getLast? = .some '/'
  · obtain ⟨front, text⟩ := List.getLast?_eq_some_iff.mp closed
    refine ⟨front, fun q relative => ?_⟩
    unfold join
    rw [if_neg (by simp [relative, nonempty]), if_pos (by simp [closed]), String.toList_append, text]
    simp
  · refine ⟨p.text.toList, fun q relative => ?_⟩
    unfold join
    rw [if_neg (by simp [relative, nonempty]), if_neg (by simp [closed])]
    simp

/-- How a name ends: not in a slash, and not in a dot that stands alone. -/
theorem IsName.reverse_cases (h : IsName s) : ∃ c rest, s.toList.reverse = c :: rest ∧ c ≠ '/' ∧
    (c = '.' → ∃ d rest', rest = d :: rest' ∧ d ≠ '/') := by
  obtain ⟨c, rest, chars⟩ := List.exists_cons_of_ne_nil
    (fun none => h.some (String.toList_eq_nil_iff.mp (List.reverse_eq_nil_iff.mp none)))
  have among : ∀ d ∈ c :: rest, d ≠ '/' := by
    rintro d mem rfl
    exact h.slashless (List.mem_reverse.mp (chars ▸ mem))
  refine ⟨c, rest, chars, among c List.mem_cons_self, fun dot => ?_⟩
  cases rest with
  | nil =>
    refine absurd ?_ h.notHere
    rw [← String.toList_inj, ← List.reverse_inj, chars, dot]
    rfl
  | cons d rest' => exact ⟨d, rest', rfl, among d (List.mem_cons_of_mem _ List.mem_cons_self)⟩

/-- A path that ends in a name has nothing to be trimmed off. -/
theorem trimmedChars_of_name (name : IsName s) (front : List Char) :
    trimmedChars (front ++ '/' :: s.toList) = front ++ '/' :: s.toList := by
  obtain ⟨c, rest, chars, slash, dot⟩ := name.reverse_cases
  have stays : ∀ tail, trimmedChars.go (c :: rest ++ tail) = c :: rest ++ tail := by
    intro tail
    by_cases last : c = '.'
    · obtain ⟨d, rest', rfl, other⟩ := dot last
      unfold trimmedChars.go
      split <;> simp_all
    · unfold trimmedChars.go
      split <;> simp_all
  unfold trimmedChars
  rw [List.reverse_append, List.reverse_cons, chars, List.append_assoc, stays, ← chars]
  simp

/-- A path that ends in a name does not ask for a directory. -/
theorem asksForDirectory_join (name : IsName s) (nonempty : p.text ≠ "") : (p.join s).asksForDirectory = false := by
  obtain ⟨front, joined⟩ := exists_front nonempty
  obtain ⟨c, rest, chars, slash, dot⟩ := name.reverse_cases
  rw [asksForDirectory_of_toList (joined s name.relative), chars]
  by_cases last : c = '.'
  · obtain ⟨d, rest', rfl, other⟩ := dot last
    split <;> simp_all
  · split <;> simp_all

/-- What stands before a name that is joined stands before every other one. -/
theorem take_front (front : List Char) (s : String) :
    (front ++ '/' :: s.toList).take ((front ++ '/' :: s.toList).length - s.toList.length) = front ++ ['/'] := by
  have length : (front ++ '/' :: s.toList).length - s.toList.length = (front ++ ['/']).length := by
    rw [List.length_append, List.length_cons, List.length_append, List.length_singleton]
    omega
  rw [length, List.append_cons front '/' s.toList, List.take_left]

/-- A name with another extension. A single dot before an extension is left as two dots. -/
def renamed (s ext : String) : String :=
  if (splitName s).1 = "." then ".." else (splitName s).1 ++ "." ++ ext

theorem IsName.relative_renamed (h : IsName s) (ext : String) : (renamed s ext).toList.head? ≠ .some '/' := by
  have slashless : '/' ∉ (splitName s).1.toList := by
    have slashless := h.slashless
    obtain whole | ⟨stem, ext, split, rfl, -⟩ := splitName_cases s
    · rwa [whole]
    · rw [split]
      simp at slashless
      exact slashless.1
  unfold renamed
  split
  · decide
  · intro first
    cases chars : (splitName s).1.toList with
    | nil => simp [chars] at first
    | cons c rest =>
      simp [chars] at first
      exact slashless (chars ▸ first ▸ List.mem_cons_self)

/-- Another extension is put to the name that a path ends in, whatever comes before it. -/
theorem withExtension_join_name (nonempty : p.text ≠ "") (name : IsName s) (ext : String) :
    (p.join s).withExtension ext = p.join (renamed s ext) := by
  obtain ⟨front, joined⟩ := exists_front nonempty
  have put : ∀ q : String, q.toList.head? ≠ some '/' → String.ofList (front ++ ['/']) ++ q = (p.join q).text := by
    intro q relative
    rw [← String.toList_inj, joined q relative]
    simp
  have text := put _ (name.relative_renamed ext)
  unfold withExtension
  rw [fileName?_join name]
  dsimp only
  rw [joined _ name.relative, trimmedChars_of_name name, take_front]
  unfold renamed at text ⊢
  by_cases dot : (splitName s).1 = "."
  · rw [if_pos dot] at text ⊢
    rw [if_pos ⟨dot, rfl⟩, text]
  · rw [if_neg dot, ← String.append_assoc, ← String.append_assoc] at text
    rw [if_neg dot, if_neg fun both => dot both.1, text]

/-- A path that ends in a name with an extension gets another one. -/
theorem withExtension_join (nonempty : p.text ≠ "") (name : IsName (stem ++ "." ++ ext)) (some : stem ≠ "")
    (notHere : stem ≠ ".") (dotless : '.' ∉ ext.toList) (ext' : String) :
    (p.join (stem ++ "." ++ ext)).withExtension ext' = p.join (stem ++ "." ++ ext') := by
  rw [withExtension_join_name nonempty name, renamed, splitName_of_dot some dotless, if_neg notHere]

/-- When a single dot comes before the extension, two dots are left. -/
theorem withExtension_join_dot (nonempty : p.text ≠ "") (name : IsName ("." ++ "." ++ ext))
    (dotless : '.' ∉ ext.toList) (ext' : String) : (p.join ("." ++ "." ++ ext)).withExtension ext' = p.join ".." := by
  rw [withExtension_join_name nonempty name, renamed, splitName_of_dot (by decide) dotless, if_pos rfl]

/-! ## Spellings -/

end RenderFarm.Path

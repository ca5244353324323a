import RenderFarm.Path
import RenderFarm.Proofs.Text

/-!
The components of a path, and what they tell about it. They are all that matters of the way in which a path is
written, save for a slash at its very end.
-/

namespace RenderFarm

namespace Chars

variable {sep : Char}

theorem splitOn_ne_nil (s : List Char) : splitOn sep s ≠ [] := by
  cases s with
  | nil => simp [splitOn]
  | cons c s =>
    unfold splitOn
    split
    · simp
    · split <;> simp

@[simp] theorem splitOn_cons_self (s : List Char) : splitOn sep (sep :: s) = [] :: splitOn sep s := by
  rw [splitOn, if_pos rfl]

theorem splitOn_cons_of_ne {c : Char} (other : c ≠ sep) (s : List Char) :
    splitOn sep (c :: s) = (splitOn sep s).modifyHead (c :: ·) := by
  rw [splitOn, if_neg other]
  cases parts : splitOn sep s with
  | nil => exact absurd parts (splitOn_ne_nil s)
  | cons part parts => rfl

/-- A separator between two texts splits them apart. -/
theorem splitOn_append_cons (s t : List Char) : splitOn sep (s ++ sep :: t) = splitOn sep s ++ splitOn sep t := by
  induction s with
  | nil => simp [splitOn]
  | cons c s ih =>
    rw [List.cons_append]
    by_cases cut : c = sep
    · rw [cut, splitOn_cons_self, splitOn_cons_self, ih, List.cons_append]
    · rw [splitOn_cons_of_ne cut, splitOn_cons_of_ne cut, ih]
      cases parts : splitOn sep s with
      | nil => exact absurd parts (splitOn_ne_nil s)
      | cons part parts => rfl

/-- No part holds the separator. -/
theorem not_mem_of_mem_splitOn {sep : Char} {s part : List Char} (mem : part ∈ splitOn sep s) : sep ∉ part := by
  induction s generalizing part with
  | nil =>
    rw [splitOn, List.mem_singleton] at mem
    simp [mem]
  | cons c s ih =>
    by_cases cut : c = sep
    · rw [cut, splitOn_cons_self, List.mem_cons] at mem
      obtain rfl | mem := mem
      · exact List.not_mem_nil
      · exact ih mem
    · rw [splitOn_cons_of_ne cut] at mem
      cases parts : splitOn sep s with
      | nil => exact absurd parts (splitOn_ne_nil s)
      | cons first rest =>
        rw [parts, List.modifyHead_cons, List.mem_cons] at mem
        obtain rfl | mem := mem
        · have plain : sep ∉ first := ih (by rw [parts]; exact List.mem_cons_self)
          simp [plain, Ne.symm cut]
        · exact ih (by rw [parts]; exact List.mem_cons_of_mem _ mem)

/-- The parts of a text hold its characters, without the separators. -/
theorem exists_mem_splitOn {c : Char} (other : c ≠ sep) (s : List Char) :
    (∃ part ∈ splitOn sep s, c ∈ part) ↔ c ∈ s := by
  induction s with
  | nil => simp [splitOn]
  | cons d s ih =>
    by_cases cut : d = sep
    · rw [cut, splitOn_cons_self, List.mem_cons, ← ih]
      simp [other]
    · rw [splitOn_cons_of_ne cut, List.mem_cons, ← ih]
      cases parts : splitOn sep s with
      | nil => exact absurd parts (splitOn_ne_nil s)
      | cons part parts => simp [or_assoc]

/-- The first part is empty only when nothing stands before the first separator. -/
theorem head?_splitOn_eq_nil {s : List Char} (empty : (splitOn sep s).head? = some []) :
    s = [] ∨ s.head? = some sep := by
  cases s with
  | nil => exact .inl rfl
  | cons c s =>
    by_cases cut : c = sep
    · exact .inr (by rw [cut, List.head?_cons])
    · rw [splitOn_cons_of_ne cut] at empty
      cases parts : splitOn sep s with
      | nil => exact absurd parts (splitOn_ne_nil s)
      | cons part parts =>
        rw [parts] at empty
        cases empty

/-- What is put after a text goes to its last part, as long as it has no separator. -/
theorem exists_last_splitOn (sep : Char) (s : List Char) : ∃ parts last, splitOn sep s = parts ++ [last] ∧
    ∀ t, sep ∉ t → splitOn sep (s ++ t) = parts ++ [last ++ t] := by
  induction s with
  | nil => exact ⟨[], [], rfl, fun t plain => splitOn_of_not_mem plain⟩
  | cons c s ih =>
    obtain ⟨parts, last, split, more⟩ := ih
    by_cases cut : c = sep
    · refine ⟨[] :: parts, last, ?_, fun t plain => ?_⟩
      · rw [cut, splitOn_cons_self, split, List.cons_append]
      · rw [cut, List.cons_append, splitOn_cons_self, more t plain, List.cons_append]
    · cases parts with
      | nil =>
        refine ⟨[], c :: last, ?_, fun t plain => ?_⟩
        · rw [splitOn_cons_of_ne cut, split]
          rfl
        · rw [List.cons_append, splitOn_cons_of_ne cut, more t plain]
          rfl
      | cons part parts =>
        refine ⟨(c :: part) :: parts, last, ?_, fun t plain => ?_⟩
        · rw [splitOn_cons_of_ne cut, split]
          rfl
        · rw [List.cons_append, splitOn_cons_of_ne cut, more t plain]
          rfl

end Chars

/-- The component that a part between slashes stands for, unless it does not count. -/
def Component.ofPart? (s : String) : Option Component :=
  if s = "" ∨ s = "." then none else if s = ".." then some .up else some (.name s)

namespace Path

/-- The parts between slashes. -/
def partsOf (s : String) : List String :=
  (Chars.splitOn '/' s.toList).map String.ofList

/-- What a path starts with: the root, a dot, or neither. -/
def lead (p : Path) : List Component :=
  if p.isAbsolute then [.root] else if (partsOf p.text).head? == some "." then [.here] else []

theorem components_eq (p : Path) : p.components = p.lead ++ (partsOf p.text).filterMap Component.ofPart? := rfl

theorem ofPart?_ne_root (s : String) : Component.ofPart? s ≠ some .root := by
  unfold Component.ofPart?
  split
  · simp
  · split <;> simp

theorem ofPart?_eq_none {s : String} : Component.ofPart? s = none ↔ s = "" ∨ s = "." := by
  unfold Component.ofPart?
  split
  · rename_i skipped
    simpa using skipped
  · rename_i counts
    split <;> simpa using counts

/-- A part that is not special is the name itself. -/
theorem ofPart?_of_plain {s : String} (some : s ≠ "") (notHere : s ≠ ".") (notUp : s ≠ "..") :
    Component.ofPart? s = .some (.name s) := by
  unfold Component.ofPart?
  rw [if_neg (by simp [some, notHere]), if_neg notUp]

/-- A name comes from the part that it is. -/
theorem eq_of_ofPart?_eq_name {s t : String} (h : Component.ofPart? t = some (.name s)) : t = s := by
  unfold Component.ofPart? at h
  split at h
  · cases h
  · split at h
    · cases h
    · cases h
      rfl

/-- A path is absolute when its first component is the root. -/
theorem isAbsolute_iff (p : Path) : p.isAbsolute ↔ p.components.head? = some .root := by
  rw [components_eq]
  unfold lead
  split
  · rename_i absolute
    simp [absolute]
  · rename_i relative
    refine ⟨fun absolute => absurd absolute relative, fun first => ?_⟩
    split at first
    · cases first
    · rw [List.nil_append] at first
      obtain ⟨s, _, root⟩ := List.mem_filterMap.mp (List.mem_of_head? first)
      exact absurd root (ofPart?_ne_root s)

/-- Only the empty path has no components. -/
theorem components_eq_nil_iff (p : Path) : p.components = [] ↔ p.text = "" := by
  constructor
  · intro none
    rw [components_eq, List.append_eq_nil_iff] at none
    obtain ⟨noLead, noParts⟩ := none
    unfold lead at noLead
    split at noLead
    · cases noLead
    · rename_i relative
      split at noLead
      · cases noLead
      · rename_i notHere
        cases parts : Chars.splitOn '/' p.text.toList with
        | nil => exact absurd parts (Chars.splitOn_ne_nil _)
        | cons part parts' =>
          have skipped : Component.ofPart? (String.ofList part) = none := by
            refine List.filterMap_eq_nil_iff.mp noParts _ ?_
            rw [partsOf, parts]
            exact List.mem_cons_self
          obtain empty | here := ofPart?_eq_none.mp skipped
          · have first : (Chars.splitOn '/' p.text.toList).head? = some [] := by
              rw [parts, List.head?_cons, ← String.toList_ofList (l := part), empty]
              rfl
            obtain nothing | slash := Chars.head?_splitOn_eq_nil first
            · exact String.toList_eq_nil_iff.mp nothing
            · exact absurd (by simp [isAbsolute, slash]) relative
          · rw [partsOf, parts, List.map_cons, List.head?_cons, here] at notHere
            exact absurd (beq_self_eq_true _) notHere
  · intro empty
    rw [components_eq, lead, isAbsolute, empty]
    decide

theorem name_not_mem_lead (s : String) (p : Path) : .name s ∉ p.lead := by
  unfold lead
  split
  · simp
  · split <;> simp

/-- Every character but a slash or a dot shows up in a name. -/
theorem mem_text_iff {c : Char} (slash : c ≠ '/') (dot : c ≠ '.') (p : Path) :
    c ∈ p.text.toList ↔ ∃ s, .name s ∈ p.components ∧ c ∈ s.toList := by
  have inNames : (∃ s, .name s ∈ p.components ∧ c ∈ s.toList) ↔
      ∃ s ∈ partsOf p.text, c ∈ s.toList := by
    constructor
    · rintro ⟨s, mem, within⟩
      rw [components_eq, List.mem_append] at mem
      obtain leads | mem := mem
      · exact absurd leads (name_not_mem_lead s p)
      · obtain ⟨t, mem, part⟩ := List.mem_filterMap.mp mem
        exact ⟨s, eq_of_ofPart?_eq_name part ▸ mem, within⟩
    · rintro ⟨s, mem, within⟩
      have plain : Component.ofPart? s = some (.name s) := by
        refine ofPart?_of_plain ?_ ?_ ?_
        all_goals
          rintro rfl
          simp [dot] at within
      refine ⟨s, ?_, within⟩
      rw [components_eq, List.mem_append]
      exact .inr (List.mem_filterMap.mpr ⟨s, mem, plain⟩)
  rw [inNames, ← Chars.exists_mem_splitOn slash]
  constructor
  · rintro ⟨part, mem, within⟩
    exact ⟨String.ofList part, List.mem_map_of_mem mem, by simpa using within⟩
  · rintro ⟨s, mem, within⟩
    obtain ⟨part, among, rfl⟩ := List.mem_map.mp mem
    exact ⟨part, among, by simpa using within⟩

/-! ## Joining -/

/-- A relative path is put after a slash, either a new one or the one at the end. -/
theorem toList_join {p : Path} {q : String} (nonempty : p.text ≠ "") (relative : q.toList.head? ≠ some '/') :
    ∃ front, (p.join q).text.toList = front ++ '/' :: q.toList ∧
      (p.text.toList = front ++ ['/'] ∨ p.text.toList = front ∧ front ≠ []) := by
  have some : p.text.toList ≠ [] := fun none => nonempty (String.toList_eq_nil_iff.mp none)
  unfold join
  rw [if_neg (by simp [relative, nonempty])]
  by_cases closed : p.text.toList.getLast? = .some '/'
  · obtain ⟨front, text⟩ := List.getLast?_eq_some_iff.mp closed
    refine ⟨front, ?_, .inl text⟩
    rw [if_pos (by simp [closed]), String.toList_append, text]
    simp
  · refine ⟨p.text.toList, ?_, .inr ⟨rfl, some⟩⟩
    rw [if_neg (by simp [closed]), String.toList_append, String.toList_append]
    simp

/-- The components of a relative path come after those of the path that it is joined to. -/
theorem components_join {p : Path} {q : String} (nonempty : p.text ≠ "")
    (relative : q.toList.head? ≠ some '/') :
    (p.join q).components = p.components ++ (partsOf q).filterMap Component.ofPart? := by
  obtain ⟨front, joined, text⟩ := toList_join nonempty relative
  have parts : partsOf (p.join q).text = (Chars.splitOn '/' front).map String.ofList ++ partsOf q := by
    unfold partsOf
    rw [joined, Chars.splitOn_append_cons, List.map_append]
  -- A slash at the end leaves an empty part, which is no component.
  obtain ⟨tail, ended, skipped⟩ : ∃ tail, partsOf p.text = (Chars.splitOn '/' front).map String.ofList ++ tail ∧
      tail.filterMap Component.ofPart? = [] := by
    obtain closed | ⟨plain, _⟩ := text
    · refine ⟨[""], ?_, rfl⟩
      unfold partsOf
      rw [closed, Chars.splitOn_append_cons, List.map_append]
      rfl
    · exact ⟨[], by rw [partsOf, plain, List.append_nil], rfl⟩
  have head : (partsOf p.text).head? = (partsOf (p.join q).text).head? := by
    obtain ⟨part, rest, first⟩ := List.exists_cons_of_ne_nil
      (Chars.splitOn_ne_nil front : Chars.splitOn '/' front ≠ [])
    rw [ended, parts, first, List.map_cons, List.cons_append, List.cons_append, List.head?_cons, List.head?_cons]
  have absolute : p.isAbsolute = (p.join q).isAbsolute := by
    unfold isAbsolute
    rw [joined]
    obtain closed | ⟨plain, some⟩ := text
    · rw [closed]
      cases front <;> rfl
    · obtain ⟨c, rest, rfl⟩ := List.exists_cons_of_ne_nil some
      rw [plain]
      rfl
  rw [components_eq, components_eq, lead, lead, absolute, head, ended, parts, List.filterMap_append,
    List.filterMap_append, skipped, List.append_nil, List.append_assoc]

/-- A path that begins with a letter or the like begins with neither the root nor a dot. -/
theorem lead_eq_nil {s : String} {c : Char} {rest : List Char} (text : s.toList = c :: rest) (slash : c ≠ '/')
    (dot : c ≠ '.') : (⟨s⟩ : Path).lead = [] := by
  have relative : (⟨s⟩ : Path).isAbsolute = false := by simp [isAbsolute, text, slash]
  have first : (partsOf s).head? ≠ some "." := by
    rw [partsOf, text, Chars.splitOn_cons_of_ne slash]
    cases parts : Chars.splitOn '/' rest with
    | nil => exact absurd parts (Chars.splitOn_ne_nil rest)
    | cons part parts =>
      intro here
      have same : String.ofList (c :: part) = "." := by simpa using here
      have chars := congrArg String.toList same
      rw [String.toList_ofList] at chars
      injection chars with isDot _
      exact dot isDot
  rw [lead, relative, if_neg Bool.false_ne_true, if_neg (by simpa using first)]

/-- Such a path can be put after any other one. -/
theorem components_join_of_lead {q : String} (plain : (⟨q⟩ : Path).lead = []) (p : Path) :
    (p.join q).components = p.components ++ (⟨q⟩ : Path).components := by
  by_cases nonempty : p.text = ""
  · have alone : p.join q = ⟨q⟩ := by simp [join, nonempty]
    rw [alone, (components_eq_nil_iff p).mpr nonempty, List.nil_append]
  · have relative : q.toList.head? ≠ some '/' := by
      intro slash
      have absolute : (⟨q⟩ : Path).isAbsolute := by simp [isAbsolute, slash]
      rw [lead, absolute] at plain
      cases plain
    rw [components_join nonempty relative, components_eq ⟨q⟩, plain, List.nil_append]

/-- What is put after a text goes to its last part, as long as it has no slash and is more than dots. -/
theorem exists_last_part (s : String) : ∃ front last,
    (partsOf s).filterMap Component.ofPart? = front ++ (Component.ofPart? last).toList ∧
      ∀ t : String, '/' ∉ t.toList → (∃ c ∈ t.toList, c ≠ '.') →
        (partsOf (s ++ t)).filterMap Component.ofPart? = front ++ [.name (last ++ t)] := by
  obtain ⟨parts, last, split, more⟩ := Chars.exists_last_splitOn '/' s.toList
  refine ⟨(parts.map String.ofList).filterMap Component.ofPart?, String.ofList last, ?_, fun t plain other => ?_⟩
  · rw [partsOf, split, List.map_append, List.filterMap_append]
    cases part : Component.ofPart? (String.ofList last) <;> simp [part]
  · obtain ⟨c, mem, notDot⟩ := other
    have counts : Component.ofPart? (String.ofList last ++ t) = some (.name (String.ofList last ++ t)) := by
      refine ofPart?_of_plain ?_ ?_ ?_
      all_goals
        intro special
        have within : c ∈ (String.ofList last ++ t).toList := by simp [mem]
        rw [special] at within
        simp [notDot] at within
    have joined : String.ofList (last ++ t.toList) = String.ofList last ++ t := by
      rw [String.ofList_append, String.ofList_toList]
    rw [partsOf, String.toList_append, more t.toList plain, List.map_append, List.filterMap_append,
      List.map_singleton, joined, List.filterMap_cons_some counts, List.filterMap_nil]

end Path

end RenderFarm

import RenderFarm.Image.Folder
import RenderFarm.Proofs.Files.Components

/-!
Two spellings of a path, as with a doubled slash or a dot in the middle. They lead to the same place, and what
is listed there differs at most in the same way.
-/

namespace RenderFarm

namespace Path

variable {a b : Path}

theorem sameAs_iff : a.sameAs b ↔ a.components = b.components := by
  simp [sameAs]

theorem text_eq_empty_congr (same : a.components = b.components) : a.text = "" ↔ b.text = "" := by
  rw [← components_eq_nil_iff, ← components_eq_nil_iff, same]

theorem isAbsolute_congr (same : a.components = b.components) : a.isAbsolute = b.isAbsolute := by
  rw [Bool.eq_iff_iff, isAbsolute_iff, isAbsolute_iff, same]

theorem mem_text_congr (same : a.components = b.components) {c : Char} (slash : c ≠ '/') (dot : c ≠ '.') :
    c ∈ a.text.toList ↔ c ∈ b.text.toList := by
  rw [mem_text_iff slash dot, mem_text_iff slash dot, same]

/-- Joining keeps two spellings the same. -/
theorem components_join_congr (same : a.components = b.components) (q : String) :
    (a.join q).components = (b.join q).components := by
  by_cases nonempty : a.text = ""
  · have nonempty' : b.text = "" := (text_eq_empty_congr same).mp nonempty
    simp [join, nonempty, nonempty']
  · have nonempty' : b.text ≠ "" := fun empty => nonempty ((text_eq_empty_congr same).mpr empty)
    by_cases relative : q.toList.head? = some '/'
    · simp [join, relative]
    · rw [components_join nonempty relative, components_join nonempty' relative, same]

/-- A path asks for a directory by what comes after its last slash. -/
theorem asksForDirectory_of_toList {p : Path} {front last : List Char}
    (text : p.text.toList = front ++ '/' :: last) :
    p.asksForDirectory =
      match last.reverse with
      | [] => true
      | '/' :: _ => true
      | ['.'] => true
      | '.' :: '/' :: _ => true
      | _ => false := by
  unfold asksForDirectory
  rw [text, List.reverse_append, List.reverse_cons, List.append_assoc]
  rcases last.reverse with _ | ⟨c, _ | ⟨d, rest⟩⟩
  · rfl
  · by_cases slash : c = '/'
    · simp [slash]
    · by_cases dot : c = '.' <;> simp [slash, dot]
  · by_cases slash : c = '/'
    · simp [slash]
    · by_cases dot : c = '.'
      · by_cases slash' : d = '/' <;> simp [dot, slash']
      · simp [slash, dot]

/-- What is joined ends as the part that was appended does. -/
theorem asksForDirectory_join_congr (same : a.components = b.components) (q : String) :
    (a.join q).asksForDirectory = (b.join q).asksForDirectory := by
  by_cases nonempty : a.text = ""
  · have nonempty' : b.text = "" := (text_eq_empty_congr same).mp nonempty
    simp [join, nonempty, nonempty']
  · have nonempty' : b.text ≠ "" := fun empty => nonempty ((text_eq_empty_congr same).mpr empty)
    by_cases relative : q.toList.head? = some '/'
    · simp [join, relative]
    · obtain ⟨front, joined, _⟩ := toList_join nonempty relative
      obtain ⟨front', joined', _⟩ := toList_join nonempty' relative
      rw [asksForDirectory_of_toList joined, asksForDirectory_of_toList joined']

end Path

namespace FileSystem

variable {a b : Path} (fs : FileSystem)

theorem locate_congr (same : a.components = b.components) : fs.locate a = fs.locate b := by
  have empty : a.text.isEmpty = b.text.isEmpty := by
    rw [Bool.eq_iff_iff, String.isEmpty_iff, String.isEmpty_iff, Path.text_eq_empty_congr same]
  have zero : '\x00' ∈ a.text.toList ↔ '\x00' ∈ b.text.toList :=
    Path.mem_text_congr same (by decide) (by decide)
  unfold locate
  simp only [empty, zero, Path.isAbsolute_congr same, same]

/-- Whether a directory is found does not depend on how a path ends. -/
theorem isDirectory_eq (p : Path) :
    fs.isDirectory p = match fs.locate p with | .error _ => false | .ok l => fs.holdsDirectory l := by
  unfold isDirectory entryAt? holdsDirectory
  cases fs.locate p with
  | error fault => rfl
  | ok l =>
    dsimp only
    cases fs.get? l with
    | none => rfl
    | some e =>
      cases e with
      | directory => rfl
      | file bytes =>
        dsimp only
        split <;> rfl

theorem isDirectory_congr (same : a.components = b.components) : fs.isDirectory a = fs.isDirectory b := by
  rw [isDirectory_eq, isDirectory_eq, locate_congr fs same]

theorem list_congr (same : a.components = b.components) : fs.list a = fs.list b := by
  unfold list
  rw [locate_congr fs same]

theorem isFile_congr (same : a.components = b.components) (ends : a.asksForDirectory = b.asksForDirectory) :
    fs.isFile a = fs.isFile b := by
  unfold isFile entryAt?
  rw [locate_congr fs same, ends]

end FileSystem

namespace Image

variable {a b : Path} (fs : FileSystem)

/-- The images in a directory; there are none where it cannot be listed. -/
def found (fs : FileSystem) (dir : Path) : List Path :=
  (list fs dir).toOption.getD []

theorem isImage_congr (same : a.components = b.components) : isImage a = isImage b := by
  unfold isImage Path.extension? Path.fileName?
  rw [same]

/-- Two spellings of a directory list the same images, each in its own spelling. -/
theorem found_congr (same : a.components = b.components) :
    (found fs a).map Path.components = (found fs b).map Path.components := by
  unfold found list
  rw [FileSystem.isDirectory_congr fs same, FileSystem.list_congr fs same]
  split
  · cases fs.list b with
    | error fault => rfl
    | ok names =>
      have kept : ∀ name, (fs.isFile (a.join name) && isImage (a.join name)) =
          (fs.isFile (b.join name) && isImage (b.join name)) := by
        intro name
        have joined := Path.components_join_congr same name
        rw [FileSystem.isFile_congr fs joined (Path.asksForDirectory_join_congr same name), isImage_congr joined]
      have sorted : ∀ paths : List Path, (paths.mergeSort Path.le).map Path.components =
          (paths.map Path.components).mergeSort Path.componentsLe :=
        fun paths => List.map_mergeSort fun _ _ _ _ => rfl
      have joined : (Path.components ∘ a.join) = (Path.components ∘ b.join) :=
        funext (Path.components_join_congr same)
      simp only [Except.toOption, Option.getD_some, sorted, List.filter_map, List.map_map, joined, kept,
        Function.comp_def]
  · rfl

end Image

end RenderFarm

import Mathlib.Data.List.Basic
import RenderFarm.Proofs.Files.Names
import RenderFarm.Proofs.Files.Operations

/-!
The last step of a way. A path that ends in a name leads to that name in the location that the rest of it leads to,
which is a directory. As long as directories stay, every way leads where it led.
-/

namespace RenderFarm

/-- A path that goes on from another one is absolute when that one is. -/
theorem Path.isAbsolute_of_components_append {p q : Path} {cs : List Component} (nonempty : p.text ≠ "")
    (components : q.components = p.components ++ cs) : q.isAbsolute = p.isAbsolute := by
  have first := (components_eq_nil_iff p).not.mpr nonempty
  rw [Bool.eq_iff_iff, isAbsolute_iff, isAbsolute_iff, components, List.head?_append_of_ne_nil _ first]

namespace FileSystem

variable {fs fs' fs'' : FileSystem} {k l : Location} {cs : List Component} {c : Component} {s : String} {p : Path}

/-- The location after one step, which has to start from a directory. -/
def stepFrom (fs : FileSystem) (l : Location) (c : Component) : Except IoFault Location :=
  match fs.get? l with
  | none => .error .notFound
  | some (.file _) => .error .notDirectory
  | some .directory =>
    match c with
    | .root => .ok []
    | .here => .ok l
    | .up => .ok l.dropLast
    | .name s => if maxNameBytes < s.utf8ByteSize then .error .nameTooLong else .ok (l ++ [s])

theorem walk_cons (fs : FileSystem) (l : Location) (c : Component) (cs : List Component) :
    fs.walk l (c :: cs) = (fs.stepFrom l c).bind fun k => fs.walk k cs := by
  unfold stepFrom
  rw [walk.eq_def]
  dsimp only
  rcases fs.get? l with _ | _ | _
  · rfl
  · rfl
  · cases c with
    | root | here | up => rfl
    | name s =>
      dsimp only
      split <;> rfl

theorem walk_append (fs : FileSystem) (l : Location) (cs ds : List Component) :
    fs.walk l (cs ++ ds) = (fs.walk l cs).bind fun k => fs.walk k ds := by
  induction cs generalizing l with
  | nil => rfl
  | cons c cs ih =>
    rw [List.cons_append, walk_cons, walk_cons]
    cases fs.stepFrom l c with
    | error fault => rfl
    | ok k => exact ih k

/-- The last step of a way starts from a directory. -/
theorem walk_concat (leads : fs.walk l (cs ++ [c]) = .ok k) :
    ∃ dir, fs.walk l cs = .ok dir ∧ fs.get? dir = some .directory ∧ fs.stepFrom dir c = .ok k := by
  rw [walk_append] at leads
  cases before : fs.walk l cs with
  | error fault =>
    rw [before] at leads
    cases leads
  | ok dir =>
    have last : fs.stepFrom dir c = .ok k := by
      rw [before, Except.bind, walk_cons] at leads
      cases stepped : fs.stepFrom dir c with
      | error fault =>
        rw [stepped] at leads
        cases leads
      | ok k' =>
        rw [stepped] at leads
        exact leads
    refine ⟨dir, rfl, ?_, last⟩
    unfold stepFrom at last
    split at last
    · cases last
    · cases last
    · assumption

theorem stepFrom_name (steps : fs.stepFrom l (.name s) = .ok k) : k = l ++ [s] := by
  unfold stepFrom at steps
  split at steps
  · cases steps
  · cases steps
  · dsimp only at steps
    split at steps
    · cases steps
    · exact (Except.ok.inj steps).symm

/-- A way through a name leads to it from what comes before, and goes on from there. -/
theorem exists_folder_of_walk {ds : List Component} (leads : fs.walk k (cs ++ .name s :: ds) = .ok l) :
    ∃ dir, fs.walk k cs = .ok dir ∧ fs.walk (dir ++ [s]) ds = .ok l := by
  rw [walk_append] at leads
  cases before : fs.walk k cs with
  | error fault =>
    rw [before] at leads
    cases leads
  | ok dir =>
    rw [before, Except.bind, walk_cons] at leads
    cases stepped : fs.stepFrom dir (.name s) with
    | error fault =>
      rw [stepped] at leads
      cases leads
    | ok here =>
      rw [stepped] at leads
      exact ⟨dir, rfl, stepFrom_name stepped ▸ leads⟩

/-- A way that ends at an entry starts from one. -/
theorem exists_entry_of_walk {e : Entry} (leads : fs.walk k cs = .ok l) (there : fs.get? l = some e) :
    ∃ e', fs.get? k = some e' := by
  cases cs with
  | nil =>
    cases leads
    exact ⟨e, there⟩
  | cons c cs =>
    unfold walk at leads
    split at leads
    · cases leads
    · cases leads
    · exact ⟨_, ‹_›⟩

/-- What is stored at a location other than the root is an entry. -/
theorem mem_entries_of_get? {e : Entry} (nonroot : l ≠ []) (there : fs.get? l = some e) :
    l ∈ fs.entries.map (·.1) := by
  rw [get?_of_ne_nil nonroot, Option.map_eq_some_iff] at there
  obtain ⟨⟨k, e'⟩, found, _⟩ := there
  have same : k = l := by simpa using List.find?_some found
  exact same ▸ List.mem_map_of_mem (List.mem_of_find?_eq_some found)

/-- The location that a path starts from. -/
def origin (fs : FileSystem) (p : Path) : Location :=
  if p.isAbsolute then [] else fs.workingDirectory

theorem walk_of_locate (leads : fs.locate p = .ok l) : fs.walk (fs.origin p) p.components = .ok l := by
  unfold locate at leads
  split at leads
  · cases leads
  · split at leads
    · cases leads
    · exact leads

theorem locate_of_walk (nonempty : p.text ≠ "") (whole : '\x00' ∉ p.text.toList)
    (leads : fs.walk (fs.origin p) p.components = .ok l) : fs.locate p = .ok l := by
  rw [locate, if_neg (by simpa using nonempty), if_neg whole]
  exact leads

/-- The components of a path lead where they led. -/
theorem Keeps.walk_origin {lost : List Location} (kept : Keeps fs fs' lost)
    (leads : fs.walk (fs.origin p) p.components = .ok l) : fs'.walk (fs'.origin p) p.components = .ok l := by
  have origin : fs'.origin p = fs.origin p := by
    unfold FileSystem.origin
    rw [kept.workingDirectory]
  rw [origin]
  exact walk_of_keeps kept leads

/-- A path with one more component leads one step further, from a directory. -/
theorem exists_step_of_locate {q : Path} (nonempty : p.text ≠ "") (components : q.components = p.components ++ [c])
    (leads : fs.locate q = .ok l) :
    ∃ dir, fs.walk (fs.origin p) p.components = .ok dir ∧ fs.get? dir = some .directory ∧
      fs.stepFrom dir c = .ok l := by
  have origin : fs.origin q = fs.origin p := by
    have absolute := Path.isAbsolute_of_components_append nonempty components
    unfold FileSystem.origin
    rw [absolute]
  have walked := walk_of_locate leads
  rw [components, origin] at walked
  exact walk_concat walked

/-- A path that ends in a name leads to that name in its folder. -/
theorem exists_folder_of_locate (nonempty : p.text ≠ "") (name : Path.IsName s)
    (leads : fs.locate (p.join s) = .ok l) :
    ∃ dir, fs.walk (fs.origin p) p.components = .ok dir ∧ l = dir ++ [s] := by
  obtain ⟨dir, walked, _, steps⟩ := exists_step_of_locate nonempty (Path.components_join_name name p) leads
  exact ⟨dir, walked, stepFrom_name steps⟩

/-- A path that ends in a name is not empty. -/
theorem text_ne_empty_of_name {front : List Component} (folder : p.components = front ++ [.name s]) :
    p.text ≠ "" := by
  intro empty
  rw [(Path.components_eq_nil_iff p).mpr empty] at folder
  simp at folder

/-- A path that goes back up from a folder with a name leads to a directory. -/
theorem holdsDirectory_of_up {front : List Component} (folder : p.components = front ++ [.name s])
    (leads : fs.locate (p.join "..") = .ok l) : fs.holdsDirectory l := by
  have nonempty := text_ne_empty_of_name folder
  have components : (p.join "..").components = p.components ++ [.up] := Path.components_join nonempty (by decide)
  obtain ⟨dir, walked, directory, steps⟩ := exists_step_of_locate nonempty components leads
  rw [folder] at walked
  obtain ⟨parent, _, above, last⟩ := walk_concat walked
  unfold stepFrom at steps
  rw [directory] at steps
  cases steps
  rw [stepFrom_name last, List.dropLast_concat]
  exact holdsDirectory_iff.mpr above

/-- A path that leads to an entry leads to a location, and that holds it. -/
theorem exists_locate_of_exists? (there : fs.exists? p) : ∃ l e, fs.locate p = .ok l ∧ fs.get? l = some e := by
  unfold exists? entryAt? at there
  cases leads : fs.locate p with
  | error fault => simp [leads] at there
  | ok l =>
    cases entry : fs.get? l with
    | none => simp [leads, entry] at there
    | some e => exact ⟨l, e, rfl, entry⟩

/-! ## Directories that stay -/

/-- Whether all directories stay, whatever becomes of the files. -/
def KeepsWays (fs fs' : FileSystem) : Prop :=
  ∃ lost, Keeps fs fs' lost

theorem Keeps.ways {lost : List Location} (kept : Keeps fs fs' lost) : KeepsWays fs fs' :=
  ⟨lost, kept⟩

namespace KeepsWays

theorem refl (fs : FileSystem) : KeepsWays fs fs :=
  (Keeps.refl fs).ways

theorem trans (first : KeepsWays fs fs') (second : KeepsWays fs' fs'') : KeepsWays fs fs'' := by
  obtain ⟨_, kept⟩ := first
  obtain ⟨_, kept'⟩ := second
  exact (kept.trans kept').ways

theorem workingDirectory (h : KeepsWays fs fs') : fs'.workingDirectory = fs.workingDirectory := by
  obtain ⟨_, kept⟩ := h
  exact kept.workingDirectory

theorem directory (h : KeepsWays fs fs') (there : fs.holdsDirectory l) : fs'.holdsDirectory l := by
  obtain ⟨_, kept⟩ := h
  exact kept.directory l there

/-- A path leads where it led. -/
theorem locate (h : KeepsWays fs fs') (leads : fs.locate p = .ok l) : fs'.locate p = .ok l := by
  obtain ⟨_, kept⟩ := h
  exact kept.locate leads

/-- All that was stored may be lost but the directories. -/
theorem of_directories (same : fs'.workingDirectory = fs.workingDirectory)
    (directory : ∀ l, fs.holdsDirectory l → fs'.holdsDirectory l) : KeepsWays fs fs' := by
  refine ⟨fs.entries.map (·.1), same, directory, fun l outside there => ?_⟩
  obtain ⟨bytes, entry⟩ := holdsFile_iff.mp there
  have nonroot := ne_nil_of_not_holdsDirectory (not_holdsDirectory_of_holdsFile there)
  exact absurd (mem_entries_of_get? nonroot entry) outside

end KeepsWays

end FileSystem

end RenderFarm

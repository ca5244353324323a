import RenderFarm.Proofs.Output.Deposit

/-!
Where images go. The file of an image is put directly into the folder of its template and day, or into the folder of
sources inside it: its name is one component, whatever the template of the name and the values in it are.
-/

namespace RenderFarm

namespace Path

variable {p dir : Path}

/-- A path is that of a name directly in a folder. -/
def IsIn (p dir : Path) : Prop :=
  ∃ name, p.components = dir.components ++ [.name name]

theorem isIn_join {s : String} (name : IsName s) (dir : Path) : (dir.join s).IsIn dir :=
  ⟨s, components_join_name name dir⟩

/-- What is in a folder is in no folder inside it. -/
theorem IsIn.not_isIn_join {s : String} (name : IsName s) (inside : p.IsIn dir) : ¬ p.IsIn (dir.join s) := by
  rintro ⟨file, deeper⟩
  obtain ⟨file', components⟩ := inside
  have length := congrArg List.length (components.symm.trans deeper)
  simp [components_join_name name] at length

end Path

namespace Output

variable {fs fs' : FileSystem} {job : Job} {image : RenderedImage} {facts : Facts} {root path : Path} {now : Instant}

/-- Images that go into the folder of sources: those that are kept beside their enlargements. -/
def KeptAside (job : Job) (facts : Facts) : Prop :=
  job.upscale.enabled ∧ job.upscale.keepSource ∧ facts.upscaled = false

theorem folder_of_keptAside (aside : KeptAside job facts) :
    folder job facts.upscaled root now = (Naming.folder root job.templateStem now).join sourcesFolder := by
  obtain ⟨enabled, kept, plain⟩ := aside
  simp [folder, enabled, kept, plain]

theorem folder_of_not_keptAside (direct : ¬ KeptAside job facts) :
    folder job facts.upscaled root now = Naming.folder root job.templateStem now := by
  refine if_neg fun aside => direct ?_
  simpa [KeptAside, and_assoc, and_left_comm] using aside

/-- What is in the folder of an image is in the folder of the day, or else in that of sources. -/
theorem isIn_folder (inside : path.IsIn (folder job facts.upscaled root now)) :
    (path.IsIn (Naming.folder root job.templateStem now) ↔ ¬ KeptAside job facts) ∧
      (path.IsIn ((Naming.folder root job.templateStem now).join sourcesFolder) ↔ KeptAside job facts) := by
  by_cases aside : KeptAside job facts
  · rw [folder_of_keptAside aside] at inside
    refine ⟨iff_of_false (fun direct => ?_) (not_not_intro aside), iff_of_true inside aside⟩
    exact direct.not_isIn_join isName_sourcesFolder inside
  · rw [folder_of_not_keptAside aside] at inside
    exact ⟨iff_of_true inside aside, iff_of_false (inside.not_isIn_join isName_sourcesFolder) aside⟩

/-- The name of the file of an image: its stem, with a number or without one for zero, and its extension. -/
def fileName (job : Job) (image : RenderedImage) (facts : Facts) (now : Instant) (n : Nat) : String :=
  Naming.numberedStem (stem job (record job image facts now)) n ++ "." ++ extension image.path

/-- An image that gets to a path has its name there, directly in its folder. -/
theorem exists_fileName_of_persist (put : persist fs job image facts root now = (.ok path, fs')) :
    ∃ n, Path.IsName (fileName job image facts now n) ∧
      path = (folder job facts.upscaled root now).join (fileName job image facts now n) := by
  unfold persist at put
  dsimp only at put
  split at put
  · cases put
  · rename_i made created
    split at put
    · cases put
    · rename_i placed moved
      split at put
      · cases put
      · obtain rfl := Except.ok.inj (Prod.mk.inj put).1
        obtain ⟨front, last, named⟩ := components_folder job facts.upscaled root now
        obtain ⟨some, slashless⟩ := stem_plain job (record job image facts now)
        obtain ⟨n, target, isName, -⟩ :=
          exists_name_of_place named some slashless (extension_plain image.path).1 moved
        exact ⟨n, isName, target⟩

/-- **Images stay in their folder.** The stem of a file name is not empty, has at most the greatest length and holds
none of the characters that are special in paths. So an image that is put into the output tree gets to a path directly
in the folder of its template and day, which is one name below the root; or directly in the folder of sources in that
one, exactly when it is kept beside its enlargement. -/
theorem images_stay_in_folder :
    (∀ template v, Naming.render template v ≠ "" ∧ (Naming.render template v).length ≤ Naming.maxLength ∧
      ∀ c ∈ (Naming.render template v).toList, Naming.isPathChar c = false) ∧
    ∀ fs fs' job image facts root now path, persist fs job image facts root now = (.ok path, fs') →
      let day := Naming.folder root job.templateStem now
      day.components = root.components ++ [.name (now.date.text ++ "-" ++ job.templateStem)] ∧
      (day.join sourcesFolder).components = day.components ++ [.name sourcesFolder] ∧
      (path.IsIn day ↔ ¬ KeptAside job facts) ∧
      (path.IsIn (day.join sourcesFolder) ↔ KeptAside job facts) ∧
      ∃ n, path.fileName? = some (fileName job image facts now n) := by
  refine ⟨Naming.render_fits, fun fs fs' job image facts root now path put => ?_⟩
  obtain ⟨n, isName, rfl⟩ := exists_fileName_of_persist put
  have inside := Path.isIn_join isName (folder job facts.upscaled root now)
  obtain ⟨direct, aside⟩ := isIn_folder inside
  exact ⟨Path.components_join_name (isName_dated job now) root, Path.components_join_name isName_sourcesFolder _,
    direct, aside, n, Path.fileName?_join isName _⟩

/-- An image that waits in a scratch directory. -/
def scratchFiles : FileSystem where
  entries := [(["scratch"], .directory), (["scratch", "1.png"], .file "one".toUTF8)]
  workingDirectory := []

/-- A job whose images are kept beside their enlargements, and whose file names go astray. -/
def keptCastle : Job where
  prompt := "../castle"
  filename := some "../<prompt>/.."
  upscale := { enabled := true, keepSource := true }

theorem keptCastle_in_sources :
    let facts : Facts := { width := 512, height := 512 }
    let path : Path := ⟨"out/1970-01-01-adhoc/original/..castle...png"⟩
    (persist scratchFiles keptCastle ⟨⟨"scratch/1.png"⟩, "first", some 7⟩ facts ⟨"out"⟩ ⟨0, 0⟩).1 = .ok path ∧
      path.IsIn ((Naming.folder ⟨"out"⟩ keptCastle.templateStem ⟨0, 0⟩).join sourcesFolder) := by
  intro facts path
  have put : (persist scratchFiles keptCastle ⟨⟨"scratch/1.png"⟩, "first", some 7⟩ facts ⟨"out"⟩ ⟨0, 0⟩).1 =
      .ok path := by decide +kernel
  obtain ⟨-, -, -, aside, -⟩ := images_stay_in_folder.2 _ _ _ _ _ _ _ _ (Prod.ext put rfl)
  exact ⟨put, aside.mpr ⟨rfl, rfl, rfl⟩⟩

end Output

end RenderFarm

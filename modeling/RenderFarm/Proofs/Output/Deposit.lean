import RenderFarm.Output
import RenderFarm.Proofs.Files.Contents
import RenderFarm.Proofs.Naming.Unique

/-!
What becomes of the files when an image is put into the output tree. The image gets a place that nothing is at,
but its record gets the place that goes with the name of the image whatever its extension; so a file that is
there already is lost.
-/

namespace RenderFarm.Output

open FileSystem (Keeps mapError_eq_ok)

/-- A place for an image and its record: a folder, and a name without an extension. -/
structure Spot where
  folder : Location
  name : String

namespace Spot

/-- The location of the file of an extension. -/
def file (s : Spot) (ext : String) : Location :=
  s.folder ++ [s.name ++ "." ++ ext]

theorem file_ne_nil (s : Spot) (ext : String) : s.file ext ≠ [] := by
  simp [file]

theorem file_inj {s : Spot} {ext ext' : String} : s.file ext = s.file ext' ↔ ext = ext' := by
  simp [file]

/-- Files of different spots have the same place only when their extensions are the same. -/
theorem ext_eq_of_file_eq {s t : Spot} {ext ext' : String} (dotless : '.' ∉ ext.toList)
    (dotless' : '.' ∉ ext'.toList) (same : s.file ext = t.file ext') : ext = ext' := by
  have cut : ∀ (r : Spot) (e : String), '.' ∉ e.toList →
      Chars.cutLast? ['.'] (r.name ++ "." ++ e).toList = some (r.name.toList, e.toList) := by
    intro r e plain
    have text : (r.name ++ "." ++ e).toList = r.name.toList ++ '.' :: e.toList := by simp
    rw [text, Chars.cutLast?_append plain]
  have names : s.name ++ "." ++ ext = t.name ++ "." ++ ext' := by
    have last := congrArg List.getLast? same
    simpa only [file, List.getLast?_concat, Option.some.injEq] using last
  have parts := cut s ext dotless
  rw [names, cut t ext' dotless'] at parts
  exact (String.toList_inj.mp (Prod.mk.inj (Option.some.inj parts)).2).symm

end Spot

/-- An image of a job that is put into the output tree, and the files before and after that. -/
structure Deposit where
  job : Job
  image : RenderedImage
  facts : Facts
  now : Instant
  bytes : ByteArray
  before : FileSystem
  /-- The path that the image is put to. -/
  path : Path
  after : FileSystem

namespace Deposit

/-- The record that belongs to the image. -/
def record (d : Deposit) : ImageRecord :=
  Output.record d.job d.image d.facts d.now

/-- The extension that the image gets. -/
def extension (d : Deposit) : String :=
  Output.extension d.image.path

/-- Whether the image is the input of its job, which stays where it is. -/
def copied (d : Deposit) : Bool :=
  d.job.inputImage.any (·.sameAs d.image.path)

/-- The image is read, and put into the output tree with success. -/
def Done (d : Deposit) (root : Path) : Prop :=
  d.before.read d.image.path = .ok d.bytes ∧
    persist d.before d.job d.image d.facts root d.now = (.ok d.path, d.after)

/-- A deposit from the files before it, when the image gets to a path. -/
def attempt (root : Path) (before : FileSystem) (job : Job) (image : RenderedImage) (facts : Facts) (now : Instant)
    (bytes : ByteArray) (path : Path) : Deposit where
  job := job
  image := image
  facts := facts
  now := now
  bytes := bytes
  before := before
  path := path
  after := (persist before job image facts root now).2

/-- Any image can be attempted to be put to any path. -/
theorem exists_attempt (before : FileSystem) (job : Job) (image : RenderedImage) (facts : Facts) (now : Instant)
    (bytes : ByteArray) (path : Path) : ∃ d : Deposit, d.before = before ∧ d.job = job ∧ d.image = image ∧
      d.facts = facts ∧ d.now = now ∧ d.bytes = bytes ∧ d.path = path :=
  ⟨⟨job, image, facts, now, bytes, before, path, before⟩, rfl, rfl, rfl, rfl, rfl, rfl, rfl⟩

theorem done_attempt {root : Path} {before : FileSystem} {job : Job} {image : RenderedImage} {facts : Facts}
    {now : Instant} {bytes : ByteArray} {path : Path} (read : before.read image.path = .ok bytes)
    (put : (persist before job image facts root now).1 = .ok path) :
    (attempt root before job image facts now bytes path).Done root :=
  ⟨read, Prod.ext put rfl⟩

/-- The call takes the file at a location away, as its image. -/
def Takes (d : Deposit) (l : Location) : Prop :=
  d.copied = false ∧ d.before.locate d.image.path = .ok l

/-- What has become of the files. Of the two at the spot, that of the record is written whether or not it was free. -/
structure Effect (d : Deposit) (spot : Spot) : Prop where
  path : d.after.locate d.path = .ok (spot.file d.extension)
  plain : d.path.asksForDirectory = false
  sidecar : d.after.locate (ImageRecord.sidecarPath d.path) = .ok (spot.file "json")
  sidecarPlain : (ImageRecord.sidecarPath d.path).asksForDirectory = false
  free : ∀ bytes, d.before.get? (spot.file d.extension) ≠ some (.file bytes)
  image : d.extension ≠ "json" → d.after.get? (spot.file d.extension) = some (.file d.bytes)
  record : d.after.get? (spot.file "json") = some (.file d.record.text.toUTF8)
  /-- Other files stay as they are, but for the image itself where it was moved from. -/
  others : ∀ l, l ≠ spot.file d.extension → l ≠ spot.file "json" → ∀ bytes,
    d.after.get? l = some (.file bytes) ↔ d.before.get? l = some (.file bytes) ∧ ¬ d.Takes l
  ways : ∀ p l, d.before.locate p = .ok l → d.after.locate p = .ok l

end Deposit

/-! ## The folder -/

variable {job : Job} {root : Path} {now : Instant} {fs fs' : FileSystem}

/-- The folder of a template on a day is one name. -/
theorem isName_dated (job : Job) (now : Instant) : Path.IsName (now.date.text ++ "-" ++ job.templateStem) := by
  have dash : '-' ∈ (now.date.text ++ "-" ++ job.templateStem).toList := by simp
  refine ⟨?_, ?_, ?_, by simp [slash_not_mem_dateText, slash_not_mem_templateStem]⟩
  all_goals
    intro same
    rw [same] at dash
    exact absurd dash (by decide)

theorem isName_sourcesFolder : Path.IsName sourcesFolder :=
  ⟨by decide, by decide, by decide, by decide⟩

/-- The folder of an image has a name. -/
theorem components_folder (job : Job) (upscaled : Bool) (root : Path) (now : Instant) :
    ∃ front last, (folder job upscaled root now).components = front ++ [.name last] := by
  unfold folder Naming.folder
  dsimp only
  split
  · exact ⟨_, _, Path.components_join_name isName_sourcesFolder _⟩
  · exact ⟨_, _, Path.components_join_name (isName_dated job now) _⟩

/-! ## The steps -/

/-- Moving to a free place is the same as renaming: where that fails, copying fails as well. -/
theorem rename_of_move {source target : Path} {bytes : ByteArray} (moved : move fs source target = .ok fs')
    (read : fs.read source = .ok bytes) (free : ¬ fs.exists? target) : fs.rename source target = .ok fs' := by
  unfold move at moved
  cases renamed : fs.rename source target with
  | ok fs'' =>
    rw [renamed] at moved
    rw [← Except.ok.inj moved]
  | error fault =>
    rw [renamed] at moved
    cases copied : fs.copy source target with
    | error fault' => simp [copied, Except.mapError, bind, Except.bind] at moved
    | ok fs'' =>
      obtain ⟨_, able⟩ := FileSystem.exists_rename_of_copy copied read free
      rw [renamed] at able
      cases able

/-- The place that an image is put to. -/
theorem exists_locate_of_place {source target : Path} (placed : place fs job source target = .ok fs') :
    ∃ l, fs.locate target = .ok l := by
  unfold place at placed
  split at placed
  · exact FileSystem.exists_locate_of_copy (mapError_eq_ok.mp placed)
  · unfold move at placed
    cases renamed : fs.rename source target with
    | ok _ => exact FileSystem.exists_locate_of_rename renamed
    | error _ =>
      cases copied : fs.copy source target with
      | ok _ => exact FileSystem.exists_locate_of_copy copied
      | error _ => simp [renamed, copied, Except.mapError, bind, Except.bind] at placed

/-- An image that is put to a place where nothing is gets there, and nothing else changes but that it is gone from
where it was, unless it is the input. -/
theorem exists_set_of_place {source target : Path} {bytes : ByteArray} (placed : place fs job source target = .ok fs')
    (read : fs.read source = .ok bytes) (free : ¬ fs.exists? target) (plain : target.asksForDirectory = false) :
    ∃ k l, fs.locate source = .ok k ∧ fs.get? k = some (.file bytes) ∧ fs.locate target = .ok l ∧
      fs.get? l = none ∧
      fs' = (if job.inputImage.any (·.sameAs source) then fs else fs.erase k).set l (.file bytes) := by
  unfold place at placed
  split at placed
  · rename_i input
    obtain ⟨k, leads, there, _⟩ := FileSystem.read_eq_ok_iff.mp read
    have written := FileSystem.write_of_copy (mapError_eq_ok.mp placed) read
    obtain ⟨l, leads', _, _, _, rfl⟩ := FileSystem.exists_set_of_write written
    exact ⟨k, l, leads, there, leads', FileSystem.get?_of_not_exists? free leads' plain, by rw [if_pos input]⟩
  · rename_i output
    obtain ⟨k, l, leads, there, leads', _, rfl⟩ :=
      FileSystem.exists_set_of_rename (rename_of_move placed read free) read
    exact ⟨k, l, leads, there, leads', FileSystem.get?_of_not_exists? free leads' plain, by rw [if_neg output]⟩

/-- A path that goes back up from a folder asks for no directory by its spelling. -/
theorem asksForDirectory_up {dir : Path} (nonempty : dir.text ≠ "") : (dir.join "..").asksForDirectory = false := by
  obtain ⟨front, joined⟩ := Path.exists_front nonempty
  rw [Path.asksForDirectory_of_toList (joined ".." (by decide))]
  decide

/-- The path that an image is put to is that of a name in the folder, at which nothing is. -/
theorem exists_name_of_place {dir source : Path} {front : List Component} {last stem ext : String}
    (named : dir.components = front ++ [.name last]) (some : stem ≠ "") (slashless : '/' ∉ stem.toList)
    (slashless' : '/' ∉ ext.toList) (placed : place fs job source (Naming.uniquePath fs dir stem ext) = .ok fs') :
    ∃ n, Naming.uniquePath fs dir stem ext = dir.join (Naming.numberedStem stem n ++ "." ++ ext) ∧
      Path.IsName (Naming.numberedStem stem n ++ "." ++ ext) ∧
      ¬ fs.exists? (Naming.uniquePath fs dir stem ext) := by
  obtain ⟨n, -, found, free, -⟩ := Naming.uniquePath_least fs dir stem ext
  obtain ⟨some, slashless⟩ := Naming.numberedStem_plain some slashless n
  rw [← found] at free
  have path := found.trans (Naming.numbered_eq dir stem ext n)
  refine ⟨n, path, Path.isName_of_dot some slashless slashless' fun up => ?_, free⟩
  -- Nothing can be put to the directory above the folder.
  obtain ⟨l, leads⟩ := exists_locate_of_place placed
  rw [path, up] at leads free
  have nothing := FileSystem.get?_of_not_exists? free leads
    (asksForDirectory_up (FileSystem.text_ne_empty_of_name named))
  have directory := FileSystem.holdsDirectory_of_up named leads
  rw [FileSystem.holdsDirectory, nothing] at directory
  cases directory

/-- What was placed keeps all but the image that was moved. -/
theorem keeps_placed {k l : Location} {bytes : ByteArray} (copied : Bool) (there : fs.get? k = some (.file bytes))
    (free : fs.get? l = none) : Keeps fs ((if copied then fs else fs.erase k).set l (.file bytes)) [k] := by
  have file : fs.holdsFile k := FileSystem.holdsFile_iff.mpr ⟨bytes, there⟩
  cases copied with
  | true =>
    rw [if_pos rfl]
    exact (Keeps.setFile (by simp [FileSystem.holdsDirectory, free]) bytes).mono (List.nil_subset _)
  | false =>
    have apart : l ≠ k := by
      rintro rfl
      rw [free] at there
      cases there
    rw [if_neg (by simp)]
    refine (Keeps.eraseFile file).trans (Keeps.setFile ?_ bytes)
    rw [FileSystem.holdsDirectory, FileSystem.get?_erase_of_ne apart, free]
    simp

namespace Deposit

variable {d : Deposit}

/-- The steps of a deposit that has succeeded. -/
theorem exists_steps_of_done (done : d.Done root) :
    ∃ made placed, d.before.createDirectories (folder d.job d.facts.upscaled root d.now) = .ok made ∧
      d.path = Naming.uniquePath made (folder d.job d.facts.upscaled root d.now) (stem d.job d.record) d.extension ∧
      place made d.job d.image.path d.path = .ok placed ∧
      placed.write (ImageRecord.sidecarPath d.path) d.record.text.toUTF8 = .ok d.after := by
  have persisted := done.2
  unfold persist at persisted
  dsimp only at persisted
  split at persisted
  · cases persisted
  · rename_i made created
    split at persisted
    · cases persisted
    · rename_i placed moved
      split at persisted
      · cases persisted
      · rename_i written recorded
        obtain ⟨target, rfl⟩ := Prod.mk.inj persisted
        obtain target := Except.ok.inj target
        rw [target] at moved recorded
        exact ⟨made, placed, created, target.symm, moved, mapError_eq_ok.mp recorded⟩

/-- The path of a deposit is that of a name in the folder, at which nothing is. -/
theorem exists_name_of_done {made placed : FileSystem} {dir : Path} {front : List Component} {last : String}
    (named : dir.components = front ++ [.name last])
    (target : d.path = Naming.uniquePath made dir (stem d.job d.record) d.extension)
    (moved : place made d.job d.image.path d.path = .ok placed) :
    ∃ name, d.path = dir.join (name ++ "." ++ d.extension) ∧ name ≠ "" ∧ '/' ∉ name.toList ∧
      Path.IsName (name ++ "." ++ d.extension) ∧ ¬ made.exists? d.path := by
  obtain ⟨some, slashless⟩ := stem_plain d.job d.record
  rw [target] at moved ⊢
  obtain ⟨n, path, isName, free⟩ :=
    exists_name_of_place named some slashless (extension_plain d.image.path).1 moved
  obtain ⟨some, slashless⟩ := Naming.numberedStem_plain some slashless n
  exact ⟨_, path, some, slashless, isName, free⟩

/-- A record is written beside its image, under the same name. -/
theorem exists_set_of_record {placed after : FileSystem} {dir : Path} {front : List Component}
    {last name ext : String} {bytes : ByteArray} (named : dir.components = front ++ [.name last]) (some : name ≠ "")
    (slashless : '/' ∉ name.toList) (isName : Path.IsName (name ++ "." ++ ext)) (dotless : '.' ∉ ext.toList)
    (written : placed.write (ImageRecord.sidecarPath (dir.join (name ++ "." ++ ext))) bytes = .ok after) :
    ∃ place, placed.walk (placed.origin dir) dir.components = .ok place ∧
      placed.locate (ImageRecord.sidecarPath (dir.join (name ++ "." ++ ext))) =
        .ok (place ++ [name ++ "." ++ "json"]) ∧
      (ImageRecord.sidecarPath (dir.join (name ++ "." ++ ext))).asksForDirectory = false ∧
      ¬ placed.holdsDirectory (place ++ [name ++ "." ++ "json"]) ∧
      after = placed.set (place ++ [name ++ "." ++ "json"]) (.file bytes) := by
  have nonempty := FileSystem.text_ne_empty_of_name named
  obtain ⟨l, leads, notDirectory, plain, _, rfl⟩ := FileSystem.exists_set_of_write written
  by_cases dot : name = "."
  · -- A record of this name would be the directory above the folder.
    subst dot
    rw [ImageRecord.sidecarPath, Path.withExtension_join_dot nonempty isName dotless] at leads
    exact absurd (FileSystem.holdsDirectory_of_up named leads) notDirectory
  · have sidecar : ImageRecord.sidecarPath (dir.join (name ++ "." ++ ext)) = dir.join (name ++ "." ++ "json") :=
      Path.withExtension_join nonempty isName some dot dotless "json"
    have isName' : Path.IsName (name ++ "." ++ "json") := by
      refine Path.isName_of_dot some slashless (by decide) fun up => ?_
      have letter : 'j' ∈ (name ++ "." ++ "json").toList := by simp
      rw [up] at letter
      exact absurd letter (by decide)
    rw [sidecar] at leads plain ⊢
    obtain ⟨place, walked, rfl⟩ := FileSystem.exists_folder_of_locate nonempty isName' leads
    exact ⟨place, walked, leads, plain, notDirectory, rfl⟩

/-- The files with the image at its spot, when the folder was made and the image came from a location. -/
def placed (d : Deposit) (made : FileSystem) (origin : Location) (spot : Spot) : FileSystem :=
  (if d.copied then made else made.erase origin).set (spot.file d.extension) (.file d.bytes)

/-- The course of a deposit: a folder is made, the image is put where nothing is, and the record is written. -/
structure Course (d : Deposit) (made : FileSystem) (origin : Location) (spot : Spot) : Prop where
  kept : Keeps d.before made []
  files : ∀ l bytes, made.get? l = some (.file bytes) ↔ d.before.get? l = some (.file bytes)
  source : d.before.locate d.image.path = .ok origin
  bytes : made.get? origin = some (.file d.bytes)
  path : made.locate d.path = .ok (spot.file d.extension)
  plain : d.path.asksForDirectory = false
  free : made.get? (spot.file d.extension) = none
  sidecar : (d.placed made origin spot).locate (ImageRecord.sidecarPath d.path) = .ok (spot.file "json")
  sidecarPlain : (ImageRecord.sidecarPath d.path).asksForDirectory = false
  notDirectory : ¬ (d.placed made origin spot).holdsDirectory (spot.file "json")
  after : d.after = (d.placed made origin spot).set (spot.file "json") (.file d.record.text.toUTF8)

/-- The place of an image that was put where nothing is, and of the record that goes with it. -/
theorem exists_spot {made placed : FileSystem} {dir : Path} {front : List Component} {last : String}
    (named : dir.components = front ++ [.name last])
    (target : d.path = Naming.uniquePath made dir (stem d.job d.record) d.extension)
    (moved : place made d.job d.image.path d.path = .ok placed) (read : made.read d.image.path = .ok d.bytes) :
    ∃ origin, ∃ spot : Spot, made.locate d.image.path = .ok origin ∧ made.get? origin = some (.file d.bytes) ∧
      made.walk (made.origin dir) dir.components = .ok spot.folder ∧
      made.locate d.path = .ok (spot.file d.extension) ∧ d.path.asksForDirectory = false ∧
      made.get? (spot.file d.extension) = none ∧ placed = d.placed made origin spot ∧
      ∀ after bytes, placed.write (ImageRecord.sidecarPath d.path) bytes = .ok after →
        placed.locate (ImageRecord.sidecarPath d.path) = .ok (spot.file "json") ∧
          (ImageRecord.sidecarPath d.path).asksForDirectory = false ∧
          ¬ placed.holdsDirectory (spot.file "json") ∧ after = placed.set (spot.file "json") (.file bytes) := by
  have nonempty := FileSystem.text_ne_empty_of_name named
  obtain ⟨name, path, some, slashless, isName, free⟩ := exists_name_of_done named target moved
  have plain : d.path.asksForDirectory = false := path ▸ Path.asksForDirectory_join isName nonempty
  obtain ⟨origin, l, leads, there, toTarget, empty, rfl⟩ := exists_set_of_place moved read free plain
  obtain ⟨place, walked, rfl⟩ := FileSystem.exists_folder_of_locate nonempty isName (path ▸ toTarget)
  refine ⟨origin, ⟨place, name⟩, leads, there, walked, toTarget, plain, empty, rfl, fun after bytes written => ?_⟩
  rw [path] at written ⊢
  obtain ⟨place', walked', recorded⟩ :=
    exists_set_of_record named some slashless isName (extension_plain d.image.path).2 written
  -- The folder of the record is that of the image.
  have kept := keeps_placed d.copied there empty
  obtain rfl : place' = place := Except.ok.inj (walked'.symm.trans (kept.walk_origin walked))
  exact recorded

theorem exists_course (done : d.Done root) : ∃ made origin spot, d.Course made origin spot := by
  obtain ⟨made, placed, created, target, moved, written⟩ := exists_steps_of_done done
  obtain ⟨front, last, named⟩ := components_folder d.job d.facts.upscaled root d.now
  obtain ⟨origin, leads, there, asks⟩ := FileSystem.read_eq_ok_iff.mp done.1
  have kept := FileSystem.createDirectories_keeps created
  have files := FileSystem.file_createDirectories created
  have read : made.read d.image.path = .ok d.bytes :=
    FileSystem.read_eq_ok_iff.mpr ⟨origin, kept.locate leads, (files _ _).mpr there, asks⟩
  obtain ⟨origin', spot, leads', there', _, toTarget, plain, empty, rfl, record⟩ := exists_spot named target moved read
  cases (kept.locate leads).symm.trans leads'
  obtain ⟨toRecord, asks', notDirectory, after⟩ := record _ _ written
  exact ⟨made, origin, spot, kept, files, leads, there', toTarget, plain, empty, toRecord, asks', notDirectory, after⟩

namespace Course

variable {made : FileSystem} {origin : Location} {spot : Spot}

theorem keepsPlaced (c : d.Course made origin spot) : Keeps made (d.placed made origin spot) [origin] :=
  keeps_placed d.copied c.bytes c.free

theorem keepsRecord (c : d.Course made origin spot) : Keeps (d.placed made origin spot) d.after [] := by
  rw [c.after]
  exact Keeps.setFile c.notDirectory _

theorem takes_iff (c : d.Course made origin spot) {l : Location} : d.Takes l ↔ d.copied = false ∧ l = origin := by
  unfold Takes
  rw [c.source, Except.ok.injEq, eq_comm (a := origin)]

/-- Where neither the image nor the record is put, only the image can be gone. -/
theorem get?_other (c : d.Course made origin spot) {l : Location} (other : l ≠ spot.file d.extension)
    (other' : l ≠ spot.file "json") (bytes : ByteArray) :
    d.after.get? l = some (.file bytes) ↔ d.before.get? l = some (.file bytes) ∧ ¬ d.Takes l := by
  rw [c.after, FileSystem.get?_set_of_ne other', placed, FileSystem.get?_set_of_ne other, c.takes_iff, ← c.files]
  cases d.copied with
  | true => simp
  | false =>
    have nonroot : origin ≠ [] := by
      rintro rfl
      cases c.bytes
    rw [if_neg (by simp)]
    by_cases taken : l = origin
    · simp [taken, FileSystem.get?_erase_self nonroot]
    · simp [taken, FileSystem.get?_erase_of_ne taken]

theorem effect (c : d.Course made origin spot) : d.Effect spot where
  path := c.keepsRecord.locate (c.keepsPlaced.locate c.path)
  plain := c.plain
  sidecar := c.keepsRecord.locate c.sidecar
  sidecarPlain := c.sidecarPlain
  free bytes there := by
    rw [← c.files, c.free] at there
    cases there
  image notRecord := by
    rw [c.after, FileSystem.get?_set_of_ne (Spot.file_inj.not.mpr notRecord), placed,
      FileSystem.get?_set_self (spot.file_ne_nil _)]
  record := by
    rw [c.after, FileSystem.get?_set_self (spot.file_ne_nil _)]
  others l other other' := c.get?_other other other'
  ways p l leads := c.keepsRecord.locate (c.keepsPlaced.locate (c.kept.locate leads))

end Course

/-- Every deposit that succeeds has its effect, at some spot. -/
theorem exists_effect (done : d.Done root) : ∃ spot, d.Effect spot := by
  obtain ⟨_, _, spot, course⟩ := exists_course done
  exact ⟨spot, course.effect⟩

end Deposit

end RenderFarm.Output

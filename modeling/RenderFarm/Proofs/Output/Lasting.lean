import RenderFarm.Proofs.Output.Deposit

/-!
What lasts of the images and records that are put into an output tree. An image stays as it is; a record stays until
one is written to the same place, which is when an image gets the same name with another extension.
-/

namespace RenderFarm

namespace ImageRecord

variable {fs : FileSystem} {image : Path}

theorem read_eq_ok (r : ImageRecord) : read fs image = .ok r ↔
    ∃ bytes, fs.read (sidecarPath image) = .ok bytes ∧ (String.fromUTF8? bytes).bind ofText? = some r := by
  unfold read
  dsimp only
  cases fs.read (sidecarPath image) with
  | error fault => simp
  | ok bytes =>
    dsimp only
    cases decoded : (String.fromUTF8? bytes).bind ofText? <;> simp [decoded]

/-- The record of an image is what its text reads as. -/
theorem read_eq_ok_iff {text : String} (written : fs.read (sidecarPath image) = .ok text.toUTF8) (r : ImageRecord) :
    read fs image = .ok r ↔ ofText? text = some r := by
  have decoded := FileSystem.fromUTF8?_toUTF8 text
  rw [read_eq_ok, written]
  constructor
  · rintro ⟨bytes, same, record⟩
    rwa [← Except.ok.inj same, decoded] at record
  · intro record
    exact ⟨_, rfl, by rwa [decoded]⟩

end ImageRecord

namespace Output

variable {root : Path} {fs fs' : FileSystem} {l : Location} {bytes : ByteArray}

namespace Deposit

variable {d e : Deposit}

/-- The place of the image. -/
def imagePlace (d : Deposit) : Option Location :=
  d.after.place? d.path

/-- The place of the record. -/
def recordPlace (d : Deposit) : Option Location :=
  d.after.place? (ImageRecord.sidecarPath d.path)

namespace Effect

variable {spot : Spot}

theorem imagePlace_eq (h : d.Effect spot) : d.imagePlace = some (spot.file d.extension) :=
  FileSystem.place?_eq_some.mpr h.path

theorem recordPlace_eq (h : d.Effect spot) : d.recordPlace = some (spot.file "json") :=
  FileSystem.place?_eq_some.mpr h.sidecar

/-- No file is at the place of the image before. -/
theorem imagePlace_ne (h : d.Effect spot) (there : d.before.get? l = some (.file bytes)) : d.imagePlace ≠ some l := by
  rw [h.imagePlace_eq]
  intro here
  exact h.free bytes (Option.some.inj here ▸ there)

/-- Of the files that are there before, only the one that the record takes the place of can change, and the image
itself when it is moved. -/
theorem file_stays_iff (h : d.Effect spot) (there : d.before.get? l = some (.file bytes)) :
    d.after.get? l = some (.file bytes) ↔
      if d.recordPlace = some l then bytes = d.record.text.toUTF8 else ¬ d.Takes l := by
  have other : l ≠ spot.file d.extension := by
    rintro rfl
    exact h.free bytes there
  rw [h.recordPlace_eq]
  by_cases here : l = spot.file "json"
  · rw [here, if_pos rfl, h.record]
    simp [eq_comm]
  · rw [if_neg (by simpa using Ne.symm here), h.others l other here]
    simp [there]

end Effect

/-- No record takes the place of an image, unless the image looks like a record. -/
theorem recordPlace_ne_imagePlace {root' : Path} (done : d.Done root) (done' : e.Done root')
    (image : d.extension ≠ "json") : e.recordPlace ≠ d.imagePlace := by
  obtain ⟨spot, effect⟩ := exists_effect done
  obtain ⟨spot', effect'⟩ := exists_effect done'
  rw [effect.imagePlace_eq, effect'.recordPlace_eq]
  intro same
  exact image (Spot.ext_eq_of_file_eq (by decide) (extension_plain d.image.path).2 (Option.some.inj same)).symm

end Deposit

/-- Deposits into one output tree, one after the other, that lead from some files to others. -/
inductive Deposits (root : Path) : FileSystem → List Deposit → FileSystem → Prop where
  | nil (fs : FileSystem) : Deposits root fs [] fs
  | cons {d : Deposit} {ds : List Deposit} {fs' : FileSystem} (done : d.Done root)
      (rest : Deposits root d.after ds fs') : Deposits root d.before (d :: ds) fs'

namespace Deposits

variable {d e : Deposit} {ds earlier later : List Deposit}

/-- Each of the deposits is one, with the later ones after it. -/
theorem split (run : Deposits root fs (earlier ++ d :: later) fs') :
    d.Done root ∧ Deposits root d.after later fs' := by
  induction earlier generalizing fs with
  | nil =>
    cases run with
    | cons done rest => exact ⟨done, rest⟩
  | cons e earlier ih =>
    cases run with
    | cons _ rest => exact ih rest

theorem done (run : Deposits root fs ds fs') (mem : d ∈ ds) : d.Done root := by
  obtain ⟨earlier, later, rfl⟩ := List.append_of_mem mem
  exact run.split.1

/-- A path leads where it led. -/
theorem locate (run : Deposits root fs ds fs') {p : Path} (leads : fs.locate p = .ok l) : fs'.locate p = .ok l := by
  induction run with
  | nil fs => exact leads
  | cons done rest ih =>
    obtain ⟨spot, effect⟩ := Deposit.exists_effect done
    exact ih (effect.ways p l leads)

/-- A file stays as it is as long as no record takes its place and it is not moved away. -/
theorem file_stays (run : Deposits root fs ds fs') (there : fs.get? l = some (.file bytes))
    (spared : ∀ e ∈ ds, e.recordPlace ≠ some l ∧ ¬ e.Takes l) : fs'.get? l = some (.file bytes) := by
  induction run with
  | nil fs => exact there
  | cons done rest ih =>
    obtain ⟨spot, effect⟩ := Deposit.exists_effect done
    obtain ⟨apart, kept⟩ := spared _ List.mem_cons_self
    refine ih ((effect.file_stays_iff there).mpr ?_) fun e mem => spared e (List.mem_cons_of_mem _ mem)
    rwa [if_neg apart]

/-- The same for what is read from a path. -/
theorem read_stays (run : Deposits root fs ds fs') {p : Path} (leads : fs.locate p = .ok l)
    (there : fs.get? l = some (.file bytes)) (plain : p.asksForDirectory = false)
    (spared : ∀ e ∈ ds, e.recordPlace ≠ some l ∧ ¬ e.Takes l) : fs'.read p = .ok bytes :=
  FileSystem.read_eq_ok_iff.mpr ⟨l, run.locate leads, run.file_stays there spared, plain⟩

/-- The place of a record is where its path leads in the end. -/
theorem exists_recordPlace (run : Deposits root fs ds fs') (mem : d ∈ ds) :
    ∃ l, d.recordPlace = some l ∧ fs'.locate (ImageRecord.sidecarPath d.path) = .ok l ∧
      (ImageRecord.sidecarPath d.path).asksForDirectory = false := by
  obtain ⟨_, _, rfl⟩ := List.append_of_mem mem
  obtain ⟨done, rest⟩ := run.split
  obtain ⟨spot, effect⟩ := Deposit.exists_effect done
  exact ⟨_, effect.recordPlace_eq, rest.locate effect.sidecar, effect.sidecarPlain⟩

/-- The records of two images have one place when their paths are the same. -/
theorem recordPlace_congr (run : Deposits root fs ds fs') (mem : d ∈ ds) (mem' : e ∈ ds)
    (same : ImageRecord.sidecarPath e.path = ImageRecord.sidecarPath d.path) : e.recordPlace = d.recordPlace := by
  obtain ⟨l, place, leads, -⟩ := run.exists_recordPlace mem
  obtain ⟨l', place', leads', -⟩ := run.exists_recordPlace mem'
  rw [same, leads] at leads'
  rw [place, place', Except.ok.inj leads']

/-- Images whose records have one place have the same record in the end. -/
theorem read_record_congr (run : Deposits root fs ds fs') (mem : d ∈ ds) (mem' : e ∈ ds)
    (same : e.recordPlace = d.recordPlace) (r : ImageRecord) :
    ImageRecord.read fs' d.path = .ok r ↔ ImageRecord.read fs' e.path = .ok r := by
  obtain ⟨l, place, leads, plain⟩ := run.exists_recordPlace mem
  obtain ⟨l', place', leads', plain'⟩ := run.exists_recordPlace mem'
  rw [place, place', Option.some.injEq] at same
  rw [same] at leads'
  simp only [ImageRecord.read_eq_ok, FileSystem.read_eq_ok_iff, leads, leads', plain, plain']

/-- **What becomes of a deposit among others.** Of the files that are there before, only the one that the record takes
the place of can change, and the image itself when it is moved. The image can be read at its path in the end unless
it is moved away, or its own record has taken its place. So can the record, unless a later one has taken its place;
then both images have the same record. -/
theorem lasting (run : Deposits root fs (earlier ++ d :: later) fs') :
    (∀ l bytes, d.before.get? l = some (.file bytes) →
      (d.after.get? l = some (.file bytes) ↔
        if d.recordPlace = some l then bytes = d.record.text.toUTF8 else ¬ d.Takes l)) ∧
    (d.recordPlace = d.imagePlace ↔ d.extension = "json") ∧
    (d.extension ≠ "json" → (∀ e ∈ later, ∀ l, d.imagePlace = some l → ¬ e.Takes l) →
      fs'.read d.path = .ok d.bytes) ∧
    ((∀ e ∈ later, ∀ l, d.recordPlace = some l → ¬ e.Takes l) →
      (∀ e ∈ later, e.recordPlace ≠ d.recordPlace) →
      ∀ r, ImageRecord.read fs' d.path = .ok r ↔ ImageRecord.ofText? d.record.text = some r) ∧
    (∀ e ∈ later, e.recordPlace = d.recordPlace →
      ∀ r, ImageRecord.read fs' d.path = .ok r ↔ ImageRecord.read fs' e.path = .ok r) := by
  obtain ⟨done, rest⟩ := run.split
  obtain ⟨spot, effect⟩ := Deposit.exists_effect done
  refine ⟨fun l bytes there => effect.file_stays_iff there, ?_, fun image kept => ?_, fun kept apart r => ?_,
    fun e mem same => run.read_record_congr (by simp) (by simp [mem]) same⟩
  · rw [effect.recordPlace_eq, effect.imagePlace_eq, Option.some.injEq, Spot.file_inj, eq_comm]
  · refine rest.read_stays effect.path (effect.image image) effect.plain fun e mem => ⟨?_, ?_⟩
    · rw [← effect.imagePlace_eq]
      exact Deposit.recordPlace_ne_imagePlace done (rest.done mem) image
    · exact kept e mem _ effect.imagePlace_eq
  · refine ImageRecord.read_eq_ok_iff (rest.read_stays effect.sidecar effect.record effect.sidecarPlain ?_) r
    intro e mem
    rw [← effect.recordPlace_eq]
    exact ⟨apart e mem, kept e mem _ effect.recordPlace_eq⟩

end Deposits

/-! ## Two images of one name -/

/-- Two images in a scratch directory, of different formats. -/
def castleFiles : FileSystem where
  entries := [(["scratch"], .directory), (["scratch", "1.png"], .file "one".toUTF8),
    (["scratch", "2.jpg"], .file "two".toUTF8)]
  workingDirectory := []

def castle : Job := { prompt := "a castle" }

/-- The deposit of an image of a castle, when it gets to a path. -/
def castleDeposit (before : FileSystem) (image : RenderedImage) (bytes : ByteArray) (path : Path) : Deposit :=
  .attempt ⟨"out"⟩ before castle image { width := 512, height := 512 } ⟨0, 0⟩ bytes path

def castlePng : Deposit :=
  castleDeposit castleFiles ⟨⟨"scratch/1.png"⟩, "first", some 7⟩ "one".toUTF8
    ⟨"out/1970-01-01-adhoc/7-a-castle.png"⟩

def castleJpg : Deposit :=
  castleDeposit castlePng.after ⟨⟨"scratch/2.jpg"⟩, "second", some 7⟩ "two".toUTF8
    ⟨"out/1970-01-01-adhoc/7-a-castle.jpg"⟩

theorem castleDeposit_before (before : FileSystem) (image : RenderedImage) (bytes : ByteArray) (path : Path) :
    (castleDeposit before image bytes path).before = before := rfl

theorem castleJpg_before : castleJpg.before = castlePng.after :=
  castleDeposit_before castlePng.after _ _ _

theorem deposits_castles : Deposits ⟨"out"⟩ castleFiles ([] ++ castlePng :: [castleJpg]) castleJpg.after := by
  have png : castlePng.Done ⟨"out"⟩ := Deposit.done_attempt (by decide +kernel) (by decide +kernel)
  have jpg : castleJpg.Done ⟨"out"⟩ := Deposit.done_attempt (by decide +kernel) (by decide +kernel)
  have rest : Deposits ⟨"out"⟩ castlePng.after [castleJpg] castleJpg.after := by
    rw [← castleJpg_before]
    exact .cons jpg (.nil castleJpg.after)
  exact .cons png rest

theorem castles_recordPlace : castleJpg.recordPlace = castlePng.recordPlace :=
  deposits_castles.recordPlace_congr (by simp) (by simp) (by decide +kernel)

theorem castleJpg_spares_image : ∀ l, castlePng.imagePlace = some l → ¬ castleJpg.Takes l := by
  obtain ⟨spot, effect⟩ := Deposit.exists_effect (deposits_castles.done List.mem_cons_self)
  have leads : castleFiles.locate ⟨"scratch/2.jpg"⟩ = .ok ["scratch", "2.jpg"] := by decide +kernel
  have there : castleFiles.get? ["scratch", "2.jpg"] = some (.file "two".toUTF8) := rfl
  rintro l place ⟨_, taken⟩
  rw [castleJpg_before] at taken
  have same := Except.ok.inj (taken.symm.trans (effect.ways _ _ leads))
  exact effect.imagePlace_ne there (same ▸ place)

/-- The first image lasts, but its record is that of the second. -/
theorem castles_lasting :
    Deposits ⟨"out"⟩ castleFiles [castlePng, castleJpg] castleJpg.after ∧
      castleJpg.after.read castlePng.path = .ok castlePng.bytes ∧
      ∀ r, ImageRecord.read castleJpg.after castlePng.path = .ok r ↔
        ImageRecord.read castleJpg.after castleJpg.path = .ok r := by
  obtain ⟨_, _, image, _, shared⟩ := deposits_castles.lasting
  have format : castlePng.extension ≠ "json" := by decide +kernel
  refine ⟨deposits_castles, image format ?_, shared castleJpg List.mem_cons_self castles_recordPlace⟩
  intro e mem
  rw [List.mem_singleton.mp mem]
  exact castleJpg_spares_image

/-- The record of the first image is lost, for the second one got the same place. -/
theorem castles_share_a_record :
    Deposits ⟨"out"⟩ castleFiles [castlePng, castleJpg] castleJpg.after ∧
      ¬ (ImageRecord.read castleJpg.after castlePng.path = .ok castlePng.record ∧
        ImageRecord.read castleJpg.after castleJpg.path = .ok castleJpg.record) := by
  refine ⟨deposits_castles, fun ⟨first, second⟩ => ?_⟩
  have both := (deposits_castles.read_record_congr (by simp) (by simp) castles_recordPlace _).mp first
  have infotext := congrArg ImageRecord.infotext (Except.ok.inj (both.symm.trans second))
  exact absurd infotext (by decide)

end Output

end RenderFarm

import RenderFarm.StorageError
import RenderFarm.Random

/-!
Images in a directory: which files count as images, in which order they are listed, and how one of them is
picked at random.
-/

namespace RenderFarm.Image

/-- File extensions of images. -/
def extensions : List String := ["png", "jpg", "jpeg", "webp"]

/-- Whether a path has an image extension, in any letter case. -/
def isImage (p : Path) : Bool :=
  match p.extension? with
  | some ext => extensions.any fun e => Text.eqIgnoringCase e ext
  | none => false

/-- The images directly inside a directory, sorted by path. -/
def list (fs : FileSystem) (dir : Path) : Except StorageError (List Path) :=
  if fs.isDirectory dir then
    match fs.list dir with
    | .error fault => .error (.ofFault dir fault)
    | .ok names =>
      let files := (names.map dir.join).filter fun p => fs.isFile p && isImage p
      .ok (files.mergeSort Path.le)
  else .error (.notFound dir)

/-- One of the images directly inside a directory, each as likely as the others. -/
def pick {γ : Type} [Generator γ] (fs : FileSystem) (dir : Path) (g : γ) : Option Path × γ :=
  match list fs dir with
  | .ok images => Random.choose images g
  | .error _ => (none, g)

end RenderFarm.Image

import Mathlib.Data.List.Forall2
import Mathlib.Data.List.Nodup
import RenderFarm.Proofs.Base64
import RenderFarm.Proofs.Device.Requests
import RenderFarm.Proofs.Files.Contents
import RenderFarm.Proofs.Naming.Unique

/-!
Images of an answer in the scratch folder. Their names come from seeds that the backend is asked for one by one, which
may repeat or be missing; still every image gets a file of its own, which was not there before.
-/

namespace RenderFarm

open Backend

/-! ## Image data -/

namespace Supervisor

/-! ## Storing -/

/-- What storing images has done: each is at a place of its own, at which nothing was, and every other place is left as
it was. -/
structure StoresAt (fs fs' : FileSystem) (images : List RenderedImage) (contents : List ByteArray)
    (places : List Location) : Prop where
  kept : fs.Keeps fs' []
  leads : List.Forall₂ (fun image l => fs'.locate image.path = .ok l ∧ image.path.asksForDirectory = false) images
    places
  apart : places.Nodup
  free : ∀ l ∈ places, fs.get? l = none
  holds : List.Forall₂ (fun l bytes => fs'.get? l = some (.file bytes)) places contents
  rest : ∀ l ∉ places, fs'.get? l = fs.get? l

theorem StoresAt.nil (fs : FileSystem) : StoresAt fs fs [] [] [] :=
  ⟨.refl fs, .nil, .nil, nofun, .nil, fun _ _ => rfl⟩

/-- An image is stored, and then the others. -/
theorem StoresAt.cons {fs fs' : FileSystem} {image : RenderedImage} {images : List RenderedImage}
    {bytes : ByteArray} {contents : List ByteArray} {l : Location} {places : List Location}
    (leads : fs.locate image.path = .ok l) (plain : image.path.asksForDirectory = false)
    (free : fs.get? l = none) (others : StoresAt (fs.set l (.file bytes)) fs' images contents places) :
    StoresAt fs fs' (image :: images) (bytes :: contents) (l :: places) := by
  have notDirectory : ¬ fs.holdsDirectory l := by simp [FileSystem.holdsDirectory, free]
  have nonroot := FileSystem.ne_nil_of_not_holdsDirectory notDirectory
  have stored : (fs.set l (.file bytes)).get? l = some (.file bytes) := FileSystem.get?_set_self nonroot _
  have kept := FileSystem.Keeps.setFile notDirectory bytes
  have new : l ∉ places := fun mem => by
    rw [others.free l mem] at stored
    cases stored
  have other (k : Location) (mem : k ∈ places) : k ≠ l := fun same => new (same ▸ mem)
  exact {
    kept := kept.trans others.kept
    leads := .cons ⟨others.kept.locate (kept.locate leads), plain⟩ others.leads
    apart := List.nodup_cons.mpr ⟨new, others.apart⟩
    free := List.forall_mem_cons.mpr ⟨free, fun k mem => by
      rw [← others.free k mem, FileSystem.get?_set_of_ne (other k mem)]⟩
    holds := .cons (by rw [others.rest l new, stored]) others.holds
    rest := fun k outside => by
      rw [List.mem_cons, not_or] at outside
      rw [others.rest k outside.2, FileSystem.get?_set_of_ne outside.1] }

namespace StoresAt

variable {fs fs' : FileSystem} {images : List RenderedImage} {contents : List ByteArray} {places : List Location}

/-- The images lead to the places, one by one. -/
theorem locations (stores : StoresAt fs fs' images contents places) :
    images.map (fs'.locate ·.path) = places.map .ok := by
  refine List.forall₂_eq_eq_eq ▸ List.forall₂_map_left_iff.mpr (List.forall₂_map_right_iff.mpr ?_)
  exact stores.leads.imp fun _ _ leads => leads.1

theorem exists_image (stores : StoresAt fs fs' images contents places) {l : Location} (mem : l ∈ places) :
    ∃ image ∈ images, fs'.locate image.path = .ok l := by
  have among : Except.ok l ∈ images.map (fs'.locate ·.path) := stores.locations ▸ List.mem_map_of_mem mem
  exact List.mem_map.mp among

theorem reads (stores : StoresAt fs fs' images contents places) :
    List.Forall₂ (fun image bytes => fs'.read image.path = .ok bytes) images contents := by
  obtain ⟨size, leads⟩ := List.forall₂_iff_get.mp stores.leads
  obtain ⟨size', holds⟩ := List.forall₂_iff_get.mp stores.holds
  refine List.forall₂_iff_get.mpr ⟨size.trans size', fun i inside inside' => ?_⟩
  have there : i < places.length := size ▸ inside
  obtain ⟨leads, plain⟩ := leads i inside there
  exact FileSystem.read_eq_ok_iff.mpr ⟨_, leads, holds i there inside', plain⟩

end StoresAt

/-! ## Requests that were answered -/

end Supervisor

/-! ## Two images without a seed -/

end RenderFarm

import RenderFarm.Proofs.Files.Additions
import RenderFarm.Proofs.Naming.Unique

/-!
Names taken one after the other. A file that was made is there when the next name is looked for, so no path is given
out twice, whatever folders, stems and extensions are asked for.
-/

namespace RenderFarm.Naming

open FileSystem

variable {fs fs' : FileSystem} {paths : List Path}

/-- A file that is to be made: its folder, the stem and the extension of its name, and its content. -/
structure Order where
  dir : Path
  stem : String
  ext : String
  content : ByteArray

/-- The path that is chosen for a file. -/
def Order.path (order : Order) (fs : FileSystem) : Path :=
  uniquePath fs order.dir order.stem order.ext

/-- Makes one file after the other, each at the path that is chosen when its turn comes. -/
def makeEach : List Order → FileSystem → Except IoFault (List Path × FileSystem)
  | [], fs => .ok ([], fs)
  | order :: orders, fs => do
    let made ← fs.write (order.path fs) order.content
    let (paths, after) ← makeEach orders made
    pure (order.path fs :: paths, after)

theorem not_exists?_uniquePath (fs : FileSystem) (dir : Path) (stem ext : String) :
    ¬ fs.exists? (uniquePath fs dir stem ext) := by
  obtain ⟨n, -, found, free, -⟩ := uniquePath_least fs dir stem ext
  rwa [found]

/-- What a run of orders leaves behind: everything that was there, and a file at every path, at none of which anything
was before. -/
structure Makes (fs fs' : FileSystem) (paths : List Path) : Prop where
  adds : Adds fs fs'
  free : ∀ p ∈ paths, ¬ fs.exists? p
  there : ∀ p ∈ paths, fs'.exists? p
  apart : paths.Nodup

theorem Makes.cons {made : FileSystem} {path : Path} (free : ¬ fs.exists? path) (adds : Adds fs made)
    (there : made.exists? path) (others : Makes made fs' paths) : Makes fs fs' (path :: paths) where
  adds := adds.trans others.adds
  free := List.forall_mem_cons.mpr ⟨free, fun p mem before => others.free p mem (adds.exists? before)⟩
  there := List.forall_mem_cons.mpr ⟨others.adds.exists? there, others.there⟩
  apart := List.nodup_cons.mpr ⟨fun again => others.free path again there, others.apart⟩

theorem makes_makeEach {orders : List Order} (made : makeEach orders fs = .ok (paths, fs')) :
    Makes fs fs' paths := by
  induction orders generalizing fs paths with
  | nil =>
    rw [makeEach] at made
    cases made
    exact ⟨.refl _, List.forall_mem_nil _, List.forall_mem_nil _, List.nodup_nil⟩
  | cons order orders ih =>
    rw [makeEach] at made
    cases written : fs.write (order.path fs) order.content with
    | error fault =>
      rw [written] at made
      cases made
    | ok after =>
      rw [written] at made
      cases rest : makeEach orders after with
      | error fault => simp [bind, Except.bind, rest] at made
      | ok others =>
        simp only [bind, Except.bind, rest, pure, Except.pure] at made
        cases made
        obtain ⟨adds, there⟩ := adds_write written
        exact .cons (not_exists?_uniquePath fs _ _ _) adds there (ih rest)

/-- **The first free name.** Nothing is at the path that is chosen. It is the one without a number where nothing is
there, and otherwise the one with the smallest number from one on at which nothing is; this number is at most one more
than there are entries, so it fits in 32 bits where the entries and the root are fewer than `2 ^ 32`. Paths that are
chosen one after the other, with a file made at each before the next one is chosen, are all different. -/
theorem uniquePath_first_free (fs : FileSystem) (dir : Path) (stem ext : String) :
    ¬ fs.exists? (uniquePath fs dir stem ext) ∧
    (¬ fs.exists? (dir.join (stem ++ "." ++ ext)) → uniquePath fs dir stem ext = dir.join (stem ++ "." ++ ext)) ∧
    (fs.exists? (dir.join (stem ++ "." ++ ext)) →
      ∃ n, 1 ≤ n ∧ n ≤ fs.entries.length + 1 ∧
        uniquePath fs dir stem ext = dir.join (stem ++ "-" ++ toString n ++ "." ++ ext) ∧
        ∀ m, 1 ≤ m → m < n → fs.exists? (dir.join (stem ++ "-" ++ toString m ++ "." ++ ext))) ∧
    ∀ orders paths fs', makeEach orders fs = .ok (paths, fs') →
      paths.Nodup ∧ ∀ p ∈ paths, ¬ fs.exists? p ∧ fs'.exists? p := by
  obtain ⟨n, le, found, free, before⟩ := uniquePath_least fs dir stem ext
  have first : numbered dir stem ext 0 = dir.join (stem ++ "." ++ ext) := rfl
  have later (m : Nat) (numbers : 1 ≤ m) :
      numbered dir stem ext m = dir.join (stem ++ "-" ++ toString m ++ "." ++ ext) := by
    rw [numbered, if_neg (Nat.ne_of_gt numbers)]
  refine ⟨not_exists?_uniquePath fs dir stem ext, fun unclaimed => ?_, fun taken => ?_, fun orders paths fs' made => ?_⟩
  · cases n with
    | zero => rw [found, first]
    | succ n => exact absurd (first ▸ before 0 (Nat.succ_pos n)) unclaimed
  · have numbers : 1 ≤ n := Nat.one_le_iff_ne_zero.mpr fun zero => free (by rwa [zero, first])
    refine ⟨n, numbers, le, by rw [found, later n numbers], fun m numbers' less => ?_⟩
    rw [← later m numbers']
    exact before m less
  · have makes := makes_makeEach made
    exact ⟨makes.apart, fun p mem => ⟨makes.free p mem, makes.there p mem⟩⟩

/-- A folder with an image and one more of the same name. -/
def shelf : FileSystem :=
  ⟨[(["out"], .directory), (["out", "img.png"], .file "x".toUTF8), (["out", "img-1.png"], .file "x".toUTF8)], []⟩

/-- Two more images of this name, and one of another. -/
def shelfOrders : List Order :=
  [⟨⟨"out"⟩, "img", "png", "y".toUTF8⟩, ⟨⟨"out"⟩, "cat", "png", "y".toUTF8⟩, ⟨⟨"out/"⟩, "img", "png", "y".toUTF8⟩]

theorem shelf_takes_next_numbers :
    shelf.exists? ⟨"out/img.png"⟩ ∧ uniquePath shelf ⟨"out"⟩ "img" "png" = ⟨"out/img-2.png"⟩ ∧
      ∃ after, makeEach shelfOrders shelf =
          .ok ([⟨"out/img-2.png"⟩, ⟨"out/cat.png"⟩, ⟨"out/img-3.png"⟩], after) ∧
        ∀ p ∈ ([⟨"out/img-2.png"⟩, ⟨"out/cat.png"⟩, ⟨"out/img-3.png"⟩] : List Path),
          ¬ shelf.exists? p ∧ after.exists? p := by
  obtain ⟨-, -, -, each⟩ := uniquePath_first_free shelf ⟨"out"⟩ "img" "png"
  have there : shelf.exists? ⟨"out/img.png"⟩ := by decide +kernel
  have given : (makeEach shelfOrders shelf).map Prod.fst =
      .ok [⟨"out/img-2.png"⟩, ⟨"out/cat.png"⟩, ⟨"out/img-3.png"⟩] := by decide +kernel
  refine ⟨there, ?_, ?_⟩
  · decide +kernel
  · cases made : makeEach shelfOrders shelf with
    | error fault =>
      rw [made] at given
      cases given
    | ok result =>
      obtain ⟨paths, after⟩ := result
      rw [made] at given
      obtain rfl := Except.ok.inj given
      exact ⟨after, rfl, (each shelfOrders _ after made).2⟩

end RenderFarm.Naming

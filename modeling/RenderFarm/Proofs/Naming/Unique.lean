import Mathlib.Data.List.Nodup
import Mathlib.Data.List.Perm.Subperm
import RenderFarm.Proofs.Files.Walk

/-!
A name that is not taken. Beyond the first, the paths with a number lead through the same components but for one name,
so each at which something is takes an entry of its own. There are only so many entries, so the search ends at a path
at which nothing is, whatever the folder, the stem and the extension are.
-/

namespace RenderFarm.Naming

open FileSystem

variable {fs : FileSystem} {dir : Path} {stem ext : String}

/-- The stem with a number, or without one for zero. -/
def numberedStem (stem : String) (n : Nat) : String :=
  if n = 0 then stem else stem ++ "-" ++ toString n

theorem numbered_eq (dir : Path) (stem ext : String) (n : Nat) :
    numbered dir stem ext n = dir.join (numberedStem stem n ++ "." ++ ext) := by
  unfold numbered numberedStem
  split <;> rfl

theorem numberedStem_plain (some : stem ≠ "") (slashless : '/' ∉ stem.toList) (n : Nat) :
    numberedStem stem n ≠ "" ∧ '/' ∉ (numberedStem stem n).toList := by
  unfold numberedStem
  split
  · exact ⟨some, slashless⟩
  · refine ⟨by simp, ?_⟩
    simp [slashless, not_mem_toDigits (c := '/') (by decide) n]

/-- The first free path is the one with the smallest number, or all that were tried are taken. -/
theorem firstFree_cases (fs : FileSystem) (dir : Path) (stem ext : String) (bound n : Nat) :
    ∃ k ≤ bound, firstFree fs dir stem ext bound n = numbered dir stem ext (n + k) ∧
      (∀ m < k, fs.exists? (numbered dir stem ext (n + m))) ∧
      (k < bound → ¬ fs.exists? (numbered dir stem ext (n + k))) := by
  induction bound generalizing n with
  | zero => exact ⟨0, Nat.le_refl 0, rfl, by simp, by simp⟩
  | succ bound ih =>
    rw [firstFree]
    split
    · rename_i taken
      obtain ⟨k, le, found, before, free⟩ := ih (n + 1)
      refine ⟨k + 1, Nat.succ_le_succ le, ?_, fun m less => ?_, fun less => ?_⟩
      · rw [found, Nat.add_right_comm, Nat.add_assoc]
      · cases m with
        | zero => exact taken
        | succ m =>
          have earlier := before m (Nat.lt_of_succ_lt_succ less)
          rwa [Nat.add_right_comm, Nat.add_assoc] at earlier
      · have later := free (Nat.lt_of_succ_lt_succ less)
        rwa [Nat.add_right_comm, Nat.add_assoc] at later
    · rename_i free
      exact ⟨0, Nat.zero_le _, rfl, by simp, fun _ => free⟩

/-- Beyond the first, the paths are one text with different numbers after it. -/
theorem exists_text_numbered (dir : Path) (stem ext : String) : ∃ front : String, ∀ n ≠ 0,
    (numbered dir stem ext n).text = front ++ ("-" ++ toString n ++ "." ++ ext) := by
  have named (n : Nat) (numbered : n ≠ 0) :
      numberedStem stem n ++ "." ++ ext = stem ++ ("-" ++ toString n ++ "." ++ ext) := by
    simp [numberedStem, numbered, String.append_assoc]
  have first (n : Nat) : (stem ++ ("-" ++ toString n ++ "." ++ ext)).toList.head? =
      stem.toList.head?.or (some '-') := by
    simp [List.head?_append]
  by_cases replaced : stem.toList.head?.or (some '-') == some '/' || dir.text.isEmpty
  · refine ⟨stem, fun n numbered => ?_⟩
    rw [numbered_eq, named n numbered, Path.join, first, if_pos replaced]
  · by_cases closed : dir.text.toList.getLast? == some '/'
    · refine ⟨dir.text ++ stem, fun n numbered => ?_⟩
      rw [numbered_eq, named n numbered, Path.join, first, if_neg replaced, if_pos closed]
      simp only [String.append_assoc]
    · refine ⟨dir.text ++ "/" ++ stem, fun n numbered => ?_⟩
      rw [numbered_eq, named n numbered, Path.join, first, if_neg replaced, if_neg closed]
      simp only [String.append_assoc]

/-- The parts of the paths beyond the first differ in one name only, and not twice in the same. -/
theorem exists_parts_numbered (front ext : String) : ∃ (before after : List String) (name : Nat → String),
    Function.Injective name ∧ ∀ n, '-' ∈ (name n).toList ∧
      Path.partsOf (front ++ ("-" ++ toString n ++ "." ++ ext)) = before ++ name n :: after := by
  obtain ⟨parts, last, -, more⟩ := Chars.exists_last_splitOn '/' front.toList
  -- The name goes on up to the first slash of the extension.
  obtain ⟨own, after, plain, cut⟩ : ∃ own after, '/' ∉ own ∧ ∀ word, '/' ∉ word →
      Chars.splitOn '/' (front.toList ++ word ++ ext.toList) = parts ++ (last ++ word ++ own) :: after := by
    by_cases slash : '/' ∈ ext.toList
    · obtain ⟨own, rest, split, plain⟩ := List.eq_append_cons_of_mem slash
      refine ⟨own, Chars.splitOn '/' rest, plain, fun word plain' => ?_⟩
      rw [split, ← List.append_assoc, Chars.splitOn_append_cons, List.append_assoc,
        more (word ++ own) (by simp [plain, plain'])]
      simp
    · refine ⟨ext.toList, [], slash, fun word plain' => ?_⟩
      rw [List.append_assoc, more (word ++ ext.toList) (by simp [slash, plain'])]
      simp
  refine ⟨parts.map String.ofList, after.map String.ofList,
    fun n => String.ofList (last ++ ("-" ++ toString n ++ ".").toList ++ own), fun m n same => ?_, fun n => ⟨?_, ?_⟩⟩
  · have digits : Nat.toDigits 10 m = Nat.toDigits 10 n := by
      simpa using congrArg String.toList same
    simpa using congrArg (fun digits => Nat.ofDigitChars 10 digits 0) digits
  · simp
  · have word : '/' ∉ ("-" ++ toString n ++ ".").toList := by simp [not_mem_toDigits (c := '/') (by decide) n]
    have text : (front ++ ("-" ++ toString n ++ "." ++ ext)).toList =
        front.toList ++ ("-" ++ toString n ++ ".").toList ++ ext.toList := by
      simp only [String.toList_append, List.append_assoc]
    rw [Path.partsOf, text, cut _ word, List.map_append, List.map_cons]

/-- The paths beyond the first lead through the same components but for one name, which is not the same twice. -/
theorem exists_components_numbered (dir : Path) (stem ext : String) :
    ∃ (before after : List Component) (name : Nat → String), Function.Injective name ∧
      ∀ n ≠ 0, (numbered dir stem ext n).components = before ++ .name (name n) :: after := by
  obtain ⟨front, text⟩ := exists_text_numbered dir stem ext
  obtain ⟨before, after, name, injective, parts⟩ := exists_parts_numbered front ext
  have other (n : Nat) {special : String} (dashless : '-' ∉ special.toList) : name n ≠ special :=
    fun same => dashless (same ▸ (parts n).1)
  have counts (n : Nat) : Component.ofPart? (name n) = some (.name (name n)) :=
    Path.ofPart?_of_plain (other n (by decide)) (other n (by decide)) (other n (by decide))
  -- What a path starts with is settled by its first character and its first part.
  obtain ⟨lead, leads⟩ : ∃ lead, ∀ n ≠ 0, (numbered dir stem ext n).lead = lead := by
    refine ⟨if front.toList.head?.or (some '-') == some '/' then [.root]
      else if before.head? == some "." then [.here] else [], fun n numbered => ?_⟩
    have first : (front ++ ("-" ++ toString n ++ "." ++ ext)).toList.head? = front.toList.head?.or (some '-') := by
      simp [List.head?_append]
    have part : ((before ++ name n :: after).head? == some ".") = (before.head? == some ".") := by
      cases before with
      | nil =>
        have dotless : name n ≠ "." := other n (by decide)
        simp [dotless]
      | cons part before => rfl
    rw [Path.lead, Path.isAbsolute, text n numbered, first, (parts n).2, part]
  refine ⟨lead ++ before.filterMap Component.ofPart?, after.filterMap Component.ofPart?, name, injective,
    fun n numbered => ?_⟩
  rw [Path.components_eq, leads n numbered, text n numbered, (parts n).2, List.filterMap_append,
    List.filterMap_cons_some (counts n), List.append_assoc]

/-- There are no more places in a list of entries without repetition than entries. -/
theorem length_le_entries (fs : FileSystem) {places : List Location} (distinct : places.Nodup)
    (stored : ∀ l ∈ places, l ∈ fs.entries.map (·.1)) : places.length ≤ fs.entries.length := by
  simpa using (distinct.subperm stored).length_le

/-- Each path beyond the first at which something is takes an entry, and no two take the same. -/
theorem exists_places (fs : FileSystem) (dir : Path) (stem ext : String) :
    ∃ place : Nat → Location, Function.Injective place ∧
      ∀ n ≠ 0, fs.exists? (numbered dir stem ext n) → place n ∈ fs.entries.map (·.1) := by
  obtain ⟨before, after, name, injective, components⟩ := exists_components_numbered dir stem ext
  have origin (n : Nat) (numbered : n ≠ 0) :
      fs.origin (Naming.numbered dir stem ext n) = fs.origin (Naming.numbered dir stem ext 1) := by
    have absolute : (Naming.numbered dir stem ext n).isAbsolute = (Naming.numbered dir stem ext 1).isAbsolute := by
      rw [Bool.eq_iff_iff, Path.isAbsolute_iff, Path.isAbsolute_iff, components n numbered,
        components 1 Nat.one_ne_zero]
      cases before <;> simp
    rw [FileSystem.origin, absolute, FileSystem.origin]
  -- All of them lead through one folder, if it is there.
  refine ⟨fun n => (fs.walk (fs.origin (numbered dir stem ext 1)) before).toOption.getD [] ++ [name n],
    fun m n same => injective (by simpa using same), fun n numbered there => ?_⟩
  obtain ⟨l, e, leads, entry⟩ := exists_locate_of_exists? there
  have walked := walk_of_locate leads
  rw [components n numbered, origin n numbered] at walked
  obtain ⟨folder, shared, onwards⟩ := exists_folder_of_walk walked
  obtain ⟨e', taken⟩ := exists_entry_of_walk onwards entry
  dsimp only
  rw [shared]
  exact mem_entries_of_get? (List.concat_ne_nil _ _) taken

/-- The path that is chosen is the first one at which nothing is. Its number is at most one more than there are
entries. -/
theorem uniquePath_least (fs : FileSystem) (dir : Path) (stem ext : String) :
    ∃ n ≤ fs.entries.length + 1, uniquePath fs dir stem ext = numbered dir stem ext n ∧
      ¬ fs.exists? (numbered dir stem ext n) ∧ ∀ m < n, fs.exists? (numbered dir stem ext m) := by
  obtain ⟨n, le, found, before, free⟩ := firstFree_cases fs dir stem ext (fs.entries.length + 1) 0
  simp only [Nat.zero_add] at found before free
  refine ⟨n, le, found, fun there => ?_, before⟩
  obtain ⟨place, injective, taken⟩ := exists_places fs dir stem ext
  -- With a free path before it the search would have ended there, so all of them are taken.
  have last : n = fs.entries.length + 1 := by
    by_contra other
    exact free (Nat.lt_of_le_of_ne le other) there
  have distinct : ((List.range n).map fun m => place (m + 1)).Nodup :=
    List.Nodup.map (injective.comp (add_left_injective 1)) List.nodup_range
  have few := length_le_entries fs distinct fun l mem => by
    obtain ⟨m, less, rfl⟩ := List.mem_map.mp mem
    refine taken (m + 1) (Nat.succ_ne_zero m) ?_
    obtain last | earlier := Nat.eq_or_lt_of_le (Nat.succ_le_of_lt (List.mem_range.mp less))
    · rwa [← last] at there
    · exact before (m + 1) earlier
  simp [last] at few

end RenderFarm.Naming

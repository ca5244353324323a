import RenderFarm.Proofs.Files.Additions
import RenderFarm.Proofs.Lines
import RenderFarm.Proofs.Trigger.Lookup

/-!
Reading a trigger registry back from the file that it was saved to. A line has the name of a checkpoint and its phrase
as they are, with a comma between them. So the entries are read back exactly when no line is misread: names must not be
empty and hold no comma, no sharp sign and no line feed. Phrases that come from a file are never misread.
-/

namespace RenderFarm.TriggerRegistry

open Chars (Trimmed IsContent Laid OnLine Shows trim)

variable {r : TriggerRegistry} {e : TriggerEntry} {entries : List TriggerEntry} {models : List Model}

/-- A name that is read back from a line: it ends at the first comma, a comment begins at a sharp sign, and without a
name there is no entry. -/
structure ReadsBack (name : String) : Prop where
  filled : name ≠ ""
  commaless : ',' ∉ name.toList
  plain : '#' ∉ name.toList
  unbroken : '\n' ∉ name.toList

instance (name : String) : Decidable (ReadsBack name) :=
  decidable_of_iff (name ≠ "" ∧ ',' ∉ name.toList ∧ '#' ∉ name.toList ∧ '\n' ∉ name.toList)
    ⟨fun ⟨filled, commaless, plain, unbroken⟩ => ⟨filled, commaless, plain, unbroken⟩,
      fun ⟨filled, commaless, plain, unbroken⟩ => ⟨filled, commaless, plain, unbroken⟩⟩

/-- A phrase as it stands behind the comma of a line. -/
structure IsPhrase (phrase : String) : Prop where
  trimmed : Trimmed phrase.toList
  plain : '#' ∉ phrase.toList
  unbroken : '\n' ∉ phrase.toList

/-- An entry as it is read from a line. -/
structure Readable (e : TriggerEntry) : Prop where
  name : ReadsBack e.model
  trimmed : Trimmed e.model.toList
  phrase : IsPhrase e.phrase

theorem isPhrase_empty : IsPhrase "" :=
  ⟨⟨nofun, nofun⟩, by decide, by decide⟩

/-! ## Reading lines -/

/-- What is read from a line with a comma. -/
theorem entryOfLine_comma {name : List Char} (commaless : ',' ∉ name) (rest : List Char) :
    entryOfLine (String.ofList (name ++ ',' :: rest)) = ⟨String.ofList (trim name), String.ofList (trim rest)⟩ := by
  have cut : Chars.cut? ",".toList (name ++ ',' :: rest) = some (name, rest) := Chars.cut?_append commaless rest
  simp only [entryOfLine, Text.cut?, String.toList_ofList, cut, Option.map_some, Text.trim]

theorem entryOfLine_commaless {line : List Char} (commaless : ',' ∉ line) :
    entryOfLine (String.ofList line) = ⟨String.ofList (trim line), ""⟩ := by
  have cut : Chars.cut? ",".toList line = none := Chars.cut?_eq_none commaless
  simp only [entryOfLine, Text.cut?, String.toList_ofList, cut, Option.map_none, Text.trim]

/-- What a part of a content becomes when it is trimmed. -/
theorem isPhrase_trim {s content : List Char} (part : s <:+: content) (plain : '#' ∉ content)
    (unbroken : '\n' ∉ content) : IsPhrase (String.ofList (trim s)) := by
  have within := ((Chars.trimBy_infix Chars.isBlank s).trans part).subset
  refine ⟨?_, ?_, ?_⟩
  all_goals rw [String.toList_ofList]
  · exact Chars.trimmed_trim s
  · exact fun sharp => plain (within sharp)
  · exact fun broken => unbroken (within broken)

/-- Every entry that is read from a file is readable. -/
theorem readable_of_mem_parse {contents : String} (mem : e ∈ parse contents) : Readable e := by
  obtain ⟨read, named⟩ := List.mem_filter.mp mem
  obtain ⟨line, among, rfl⟩ := List.mem_map.mp read
  obtain ⟨content, there, rfl⟩ := List.mem_map.mp among
  obtain ⟨isContent, unbroken⟩ := Chars.isContent_of_mem there
  have filled : (entryOfLine (String.ofList content)).model ≠ "" := by simpa using named
  by_cases comma : ',' ∈ content
  · obtain ⟨name, rest, rfl, commaless⟩ := List.eq_append_cons_of_mem comma
    rw [entryOfLine_comma commaless] at filled ⊢
    have isName := isPhrase_trim (List.prefix_append name _).isInfix isContent.plain unbroken
    refine ⟨⟨filled, fun comma => ?_, isName.plain, isName.unbroken⟩, isName.trimmed,
      isPhrase_trim ⟨name ++ [','], [], by simp⟩ isContent.plain unbroken⟩
    rw [String.toList_ofList] at comma
    exact commaless ((Chars.trimBy_infix Chars.isBlank name).subset comma)
  · rw [entryOfLine_commaless comma] at filled ⊢
    have isName := isPhrase_trim (List.infix_refl content) isContent.plain unbroken
    refine ⟨⟨filled, fun comma' => ?_, isName.plain, isName.unbroken⟩, isName.trimmed, isPhrase_empty⟩
    rw [String.toList_ofList] at comma'
    exact comma ((Chars.trimBy_infix Chars.isBlank content).subset comma')

/-! ## Lines that were written -/

/-- The content of the line of an entry. Without a phrase the line ends in a blank. -/
def content (e : TriggerEntry) : List Char :=
  e.model.toList ++ ',' :: if e.phrase = "" then [] else ' ' :: e.phrase.toList

theorem shows_self (content : List Char) : Shows content content := by
  have line : Shows content ([] ++ content ++ []) := .plain nofun nofun
  simpa using line

theorem shows_content (e : TriggerEntry) : Shows (content e) (e.model.toList ++ ',' :: ' ' :: e.phrase.toList) := by
  unfold content
  by_cases empty : e.phrase = ""
  · rw [if_pos empty, empty]
    have line : Shows (e.model.toList ++ [',']) ([] ++ (e.model.toList ++ [',']) ++ [' ']) :=
      .plain nofun (List.all_eq_true.mp rfl)
    simpa using line
  · rw [if_neg empty]
    exact shows_self _

namespace Readable

variable (readable : Readable e)

include readable

theorem trim_content : trim (content e) = content e := by
  obtain ⟨c, name, chars⟩ := List.exists_cons_of_ne_nil
    (fun none => readable.name.filled (String.toList_eq_nil_iff.mp none))
  refine Chars.trim_of_ends ?_ ?_
  · intro d first
    refine readable.trimmed.front d ?_
    rw [content, chars] at first
    rwa [chars]
  · intro d last
    rw [content, List.getLast?_append_of_ne_nil _ (List.cons_ne_nil _ _)] at last
    by_cases empty : e.phrase = ""
    · rw [if_pos empty] at last
      cases last
      decide
    · rw [if_neg empty, List.getLast?_cons_cons] at last
      rw [List.getLast?_cons_of_ne_nil (fun none => empty (String.toList_eq_nil_iff.mp none))] at last
      exact readable.phrase.trimmed.back d last

theorem isContent : IsContent (content e) := by
  refine ⟨by simp [content], readable.trim_content, ?_⟩
  have plain := readable.name.plain
  have plain' := readable.phrase.plain
  unfold content
  split <;> simp [plain, plain']

theorem entryOfLine_content : entryOfLine (String.ofList (content e)) = e := by
  rw [content, entryOfLine_comma readable.name.commaless, readable.trimmed.trim_eq]
  split
  · rename_i empty
    have nothing : trim [] = [] := rfl
    cases e
    simp_all
  · have blank : trim ([' '] ++ e.phrase.toList) = trim e.phrase.toList :=
      Chars.trim_blanks_append (List.all_eq_true.mp rfl) _
    rw [List.singleton_append, readable.phrase.trimmed.trim_eq] at blank
    rw [blank]
    simp

end Readable

/-- The entries are laid out on the lines that are written for them. -/
theorem laid_lines (readable : ∀ e ∈ entries, Readable e) :
    Laid (entries.map content) (String.join (entries.map TriggerEntry.line)).toList := by
  induction entries with
  | nil => exact .last (by decide) (.nothing (shows_self []))
  | cons e entries ih =>
    obtain ⟨first, later⟩ := List.forall_mem_cons.mp readable
    have unbroken : '\n' ∉ e.model.toList ++ ',' :: ' ' :: e.phrase.toList := by
      simp [first.name.unbroken, first.phrase.unbroken]
    have laid := Laid.line unbroken (.content (shows_content e)) (ih later)
    simpa [TriggerEntry.line, String.join_cons] using laid

/-- The first line of a file is a comment. -/
def header : List Char :=
  '#' :: " model-name, trigger-phrase".toList

theorem toList_text (r : TriggerRegistry) :
    r.text.toList = header ++ '\n' :: (String.join (r.entries.map TriggerEntry.line)).toList := by
  have titled : "# model-name, trigger-phrase\n".toList = header ++ ['\n'] := by decide +kernel
  unfold text
  rw [String.toList_append, titled, List.append_assoc]
  rfl

theorem onLine_header : OnLine [] header :=
  .nothing (@Shows.commented [] [] [] nofun nofun _)

theorem laid_text (readable : ∀ e ∈ r.entries, Readable e) : Laid (r.entries.map content) r.text.toList := by
  rw [toList_text]
  have laid : Laid ([] ++ r.entries.map content) _ := .line (by decide +kernel) onLine_header (laid_lines readable)
  exact laid

/-- Entries are read back from the text of a registry when all of them are readable. -/
theorem parse_text_iff : parse r.text = r.entries ↔ ∀ e ∈ r.entries, Readable e := by
  constructor
  · intro same e mem
    exact readable_of_mem_parse (same ▸ mem)
  · intro readable
    have good : ∀ c ∈ r.entries.map content, IsContent c := by
      intro c mem
      obtain ⟨e, among, rfl⟩ := List.mem_map.mp mem
      exact (readable e among).isContent
    have same : ((r.entries.map content).map String.ofList).map entryOfLine = r.entries := by
      have each : ∀ e ∈ r.entries, entryOfLine (String.ofList (content e)) = e :=
        fun e mem => (readable e mem).entryOfLine_content
      simp only [List.map_map, Function.comp_def]
      rw [List.map_congr_left each, List.map_id']
    rw [parse, Text.contentLines, Chars.contentLines_of_laid (laid_text readable) good, same, List.filter_eq_self]
    intro e mem
    simpa using (readable e mem).name.filled

/-! ## Saving and loading -/

/-- An entry that a checkpoint gets from a file's entries is readable when its name is read back. -/
theorem readable_entryFor {contents title : String} :
    Readable (entryFor (parse contents) (Title.stripHash title)) ↔ ReadsBack (Title.stripHash title) := by
  rw [entryFor_eq]
  refine ⟨fun readable => readable.name, fun name => ⟨name, ?_, ?_⟩⟩
  · rw [Title.stripHash, String.toList_ofList]
    exact Title.trimmed_stripHashChars _
  · unfold entryFor
    split
    · rename_i old found
      exact (readable_of_mem_parse (List.mem_of_find?_eq_some found)).phrase
    · exact isPhrase_empty

/-- What a registry is saved to: its text is written to its path. -/
theorem written_of_save {fs fs' : FileSystem} (saved : r.save fs = .ok fs') :
    ∃ made : FileSystem, made.writeText r.path r.text = .ok fs' := by
  unfold save at saved
  dsimp only at saved
  split at saved
  · rename_i parent _
    cases made : fs.createDirectories parent with
    | error fault => simp [made, bind, Except.bind, Except.mapError] at saved
    | ok made' =>
      rw [made] at saved
      exact ⟨made', FileSystem.mapError_eq_ok.mp saved⟩
  · exact ⟨fs, FileSystem.mapError_eq_ok.mp saved⟩

/-- What is loaded after a registry was saved is the registry when its entries are read back from its text. -/
theorem load_of_save_iff {fs fs' : FileSystem} (saved : r.save fs = .ok fs') :
    load fs' r.path = .ok r ↔ parse r.text = r.entries := by
  obtain ⟨made, written⟩ := written_of_save saved
  have loaded : load fs' r.path = .ok ⟨r.path, parse r.text⟩ := by
    rw [load, FileSystem.loadText, FileSystem.readText_of_write written]
    rfl
  obtain ⟨path, entries⟩ := r
  rw [loaded, Except.ok.injEq, TriggerRegistry.mk.injEq]
  exact and_iff_right rfl

/-- **Saving and loading a registry.** The registry has the entries of a file's text, brought in line with the backend's
checkpoints. Its entries are read back from its own text, all of them and in their order, exactly when the name of every
checkpoint, without its hash, is read back from a line; and so it is with the file that it is saved to. -/
theorem reloads_iff (path : Path) (contents : String) (models : List Model) :
    let r := ((⟨path, parse contents⟩ : TriggerRegistry).sync models).1
    (parse r.text = r.entries ↔ ∀ m ∈ models, ReadsBack (Title.stripHash m.title)) ∧
    ∀ fs fs', r.save fs = .ok fs' →
      (load fs' path = .ok r ↔ ∀ m ∈ models, ReadsBack (Title.stripHash m.title)) := by
  intro r
  have reads : parse r.text = r.entries ↔ ∀ m ∈ models, ReadsBack (Title.stripHash m.title) := by
    rw [parse_text_iff]
    constructor
    · intro readable m listed
      exact readable_entryFor.mp (readable _ (mem_entries_sync.mpr ⟨m, listed, rfl⟩))
    · intro names e mem
      obtain ⟨m, listed, rfl⟩ := mem_entries_sync.mp mem
      exact readable_entryFor.mpr (names m listed)
  exact ⟨reads, fun _ _ saved => (load_of_save_iff (r := r) saved).trans reads⟩

/-- An empty file system, in which a registry can be saved. -/
def emptyFiles : FileSystem := ⟨[], []⟩

theorem stylesFile_reloads :
    let models : List Model := [⟨"beta.safetensors [1234]", none⟩, ⟨"alpha.ckpt [abcd]", none⟩]
    let loaded : TriggerRegistry := ⟨⟨"triggers.txt"⟩, parse "ALPHA.ckpt, alpha style, bold\nold.ckpt, gone\n"⟩
    let r := (loaded.sync models).1
    ∃ fs', r.save emptyFiles = .ok fs' ∧ (∀ m ∈ models, ReadsBack (Title.stripHash m.title)) ∧
      load fs' ⟨"triggers.txt"⟩ = .ok r := by
  intro models loaded r
  have names : ∀ m ∈ models, ReadsBack (Title.stripHash m.title) := by decide +kernel
  have saved : r.save emptyFiles = .ok (emptyFiles.set ["triggers.txt"] (.file r.text.toUTF8)) := by
    have target (s : String) : emptyFiles.writeText ⟨"triggers.txt"⟩ s =
        .ok (emptyFiles.set ["triggers.txt"] (.file s.toUTF8)) := rfl
    have rootless : (Path.mk "triggers.txt").parent?.filter (fun p => !p.text.isEmpty) = none := by decide +kernel
    have path : r.path = ⟨"triggers.txt"⟩ := rfl
    unfold save
    rw [path, rootless]
    exact congrArg (Except.mapError (StorageError.ofFault ⟨"triggers.txt"⟩)) (target r.text)
  have reloads := (reloads_iff ⟨"triggers.txt"⟩ "ALPHA.ckpt, alpha style, bold\nold.ckpt, gone\n" models).2
  exact ⟨_, saved, names, (reloads _ _ saved).mpr names⟩

/-- A comma in the title of a checkpoint ends its name when the file is read. -/
theorem comma_in_title_misread :
    let r := ((⟨⟨"triggers.txt"⟩, []⟩ : TriggerRegistry).sync [⟨"red, blue.ckpt", none⟩]).1
    r.entries = [⟨"red, blue.ckpt", ""⟩] ∧ parse r.text = [⟨"red", "blue.ckpt,"⟩] := by
  have entries : ((⟨⟨"triggers.txt"⟩, []⟩ : TriggerRegistry).sync [⟨"red, blue.ckpt", none⟩]).1.entries =
      [⟨"red, blue.ckpt", ""⟩] := by
    rw [entries_sync, List.map_singleton, List.mergeSort_singleton]
    decide +kernel
  intro r
  refine ⟨entries, ?_⟩
  have read : parse (text ⟨⟨"triggers.txt"⟩, [⟨"red, blue.ckpt", ""⟩]⟩) = [⟨"red", "blue.ckpt,"⟩] := by decide +kernel
  rw [← entries] at read
  exact read

end RenderFarm.TriggerRegistry

import RenderFarm.Proofs.Files.Additions
import RenderFarm.Proofs.Launch.Script

/-!
Launch scripts as files. Launching a device leaves the user's script as it is or turns its assignments into comments,
and a later device gets the same script from either.
-/

namespace RenderFarm.Launch

open FileSystem (Adds)

variable {fs fs' : FileSystem} {dir : Path} {p : Platform} {port : UInt16} {device contents : String}

/-- The script of a device is not written over the user's own. -/
def Apart (fs : FileSystem) (dir : Path) (p : Platform) (device : String) : Prop :=
  ∀ l, fs.locate (dir.join p.baseScript) = .ok l → fs.locate (dir.join (p.deviceScript device)) ≠ .ok l

/-- The files after some devices are launched, each with its port, whether or not their scripts can be written. -/
def launchAll (fs : FileSystem) (dir : Path) (p : Platform) (devices : List (UInt16 × String)) : FileSystem :=
  devices.foldl (fun fs (port, device) => (write fs dir p port device).2) fs

/-- What is written over the user's script, if anything. -/
def quieted? (p : Platform) (contents : String) : Option String :=
  if p = .unix then (silenced? contents.toList).map String.ofList else none

theorem isName_baseScript (p : Platform) : Path.IsName p.baseScript := by
  cases p <;> exact ⟨by decide, by decide, by decide, by decide⟩

/-- What the name of a device's script is made of. -/
theorem exists_toList_deviceScript (p : Platform) (device : String) :
    ∃ ending, '/' ∉ ending ∧ (p.deviceScript device).toList = "df-start-gpu-".toList ++ (device.toList ++ ending) := by
  have whole : ∀ ending : String, ("df-start-gpu-" ++ device ++ ending).toList =
      "df-start-gpu-".toList ++ (device.toList ++ ending.toList) := by
    intro ending
    rw [String.toList_append, String.toList_append, List.append_assoc]
  cases p with
  | unix => exact ⟨".sh".toList, by decide, whole ".sh"⟩
  | windows => exact ⟨".bat".toList, by decide, whole ".bat"⟩

theorem isName_deviceScript (slashless : '/' ∉ device.toList) (p : Platform) :
    Path.IsName (p.deviceScript device) := by
  obtain ⟨ending, plain, whole⟩ := exists_toList_deviceScript p device
  have other : ∀ s : String, s.toList.length < 13 → p.deviceScript device ≠ s := by
    rintro s short rfl
    rw [whole, List.length_append] at short
    exact absurd short (Nat.not_lt.mpr (Nat.le_add_right 13 _))
  refine ⟨other "" (by decide), other "." (by decide), other ".." (by decide), ?_⟩
  have plain' : '/' ∉ "df-start-gpu-".toList := by decide
  rw [whole, List.mem_append, List.mem_append]
  simp only [plain, plain', slashless, or_self, not_false_eq_true]

/-- A device without a slash in its name has a script of its own. -/
theorem apart_of_slashless (nonempty : dir.text ≠ "") (slashless : '/' ∉ device.toList) (fs : FileSystem)
    (p : Platform) : Apart fs dir p device := by
  intro l leads leads'
  obtain ⟨_, -, rfl⟩ := FileSystem.exists_folder_of_locate nonempty (isName_baseScript p) leads
  obtain ⟨_, -, same⟩ := FileSystem.exists_folder_of_locate nonempty (isName_deviceScript slashless p) leads'
  have names : p.baseScript = p.deviceScript device := List.singleton_inj.mp (List.append_inj' same rfl).2
  obtain ⟨ending, -, whole⟩ := exists_toList_deviceScript p device
  have first : p.baseScript.toList.head? = some 'd' := by
    rw [names, whole]
    rfl
  cases p <;> cases first

/-! ## One launch -/

/-- The files after the user's script at a location is written over, if need be. -/
def quietFiles (fs : FileSystem) (l : Location) (p : Platform) (contents : String) : FileSystem :=
  match quieted? p contents with
  | some text => fs.set l (.file text.toUTF8)
  | none => fs

/-- The user's script is written over if need be, and then the device's is written. -/
theorem write_eq {l : Location} (text : fs.readText (dir.join p.baseScript) = .ok contents)
    (leads : fs.locate (dir.join p.baseScript) = .ok l) (port : UInt16) (device : String) :
    write fs dir p port device =
      match (quietFiles fs l p contents).writeText (dir.join (p.deviceScript device))
          (deviceScriptText contents p port device) with
      | .error fault => (.error (.io (dir.join (p.deviceScript device)) fault), quietFiles fs l p contents)
      | .ok after => (.ok (dir.join (p.deviceScript device)), after) := by
  obtain ⟨l', leads', file, plain⟩ := FileSystem.exists_locate_of_readText text
  obtain rfl : l = l' := Except.ok.inj (leads.symm.trans leads')
  have isFile : fs.isFile (dir.join p.baseScript) :=
    (FileSystem.isFile_of_locate leads).mpr ⟨file, by simp [plain]⟩
  have quiets := FileSystem.writeText_of_holdsFile leads file plain
  unfold write quietFiles quieted?
  dsimp only
  rw [if_neg (by simp [isFile]), text]
  cases p with
  | windows => rfl
  | unix =>
    dsimp only
    rw [if_pos rfl, if_pos rfl]
    cases silenced? contents.toList with
    | none => rfl
    | some quieted =>
      dsimp only [Option.map_some]
      rewrite [quiets]
      rfl

/-- What the user's script may be: as it was, or with its assignments turned into comments. -/
def IsUsers (p : Platform) (contents text : String) : Prop :=
  text = contents ∨ p = .unix ∧ text.toList = quietText contents.toList

/-- A user's script stays one when a device is launched. -/
theorem IsUsers.quieted {text quieted : String} (h : IsUsers p contents text) (new : quieted? p text = some quieted) :
    IsUsers p contents quieted := by
  unfold quieted? at new
  split at new
  · rename_i unix
    obtain ⟨chars, quiets, rfl⟩ := Option.map_eq_some_iff.mp new
    obtain rfl | ⟨-, same⟩ := h
    · rw [silenced?_eq] at quiets
      split at quiets
      · cases quiets
        exact .inr ⟨unix, String.toList_ofList⟩
      · cases quiets
    · rw [same, silenced?_quietText] at quiets
      cases quiets
  · cases new

/-- A device gets the same script from either of the user's scripts. -/
theorem IsUsers.deviceScriptText {text : String} (h : IsUsers p contents text)
    (plain : p = .unix → '\r' ∉ contents.toList) (port : UInt16) (device : String) :
    deviceScriptText text p port device = deviceScriptText contents p port device := by
  obtain rfl | ⟨rfl, same⟩ := h
  · rfl
  · unfold Launch.deviceScriptText
    rw [same, deviceScriptChars_quietText (plain rfl)]

/-- The same paths lead to the same places before and after the user's script is written over. -/
theorem adds_quietFiles {l : Location} (file : fs.holdsFile l) (p : Platform) (contents : String) :
    Adds fs (quietFiles fs l p contents) ∧ Adds (quietFiles fs l p contents) fs := by
  unfold quietFiles
  split
  · exact ⟨.setFile (FileSystem.not_holdsDirectory_of_holdsFile file) _, .of_setFile file _⟩
  · exact ⟨.refl fs, .refl fs⟩

/-! ## Earlier launches -/

/-- Files after some launches: others may have been added, and the user's script is one still. -/
structure Launched (dir : Path) (p : Platform) (contents : String) (fs fs' : FileSystem) : Prop where
  adds : Adds fs fs'
  users : ∃ text, fs'.readText (dir.join p.baseScript) = .ok text ∧ IsUsers p contents text

namespace Launched

/-- Writing over the user's script is all that is done to it. -/
theorem quiet {l : Location} {text : String} (h : Launched dir p contents fs fs')
    (read : fs'.readText (dir.join p.baseScript) = .ok text) (leads : fs'.locate (dir.join p.baseScript) = .ok l)
    (users : IsUsers p contents text) : Launched dir p contents fs (quietFiles fs' l p text) := by
  obtain ⟨l', leads', file, plain⟩ := FileSystem.exists_locate_of_readText read
  obtain rfl : l = l' := Except.ok.inj (leads.symm.trans leads')
  refine ⟨h.adds.trans (adds_quietFiles file p text).1, ?_⟩
  unfold quietFiles
  cases new : quieted? p text with
  | none => exact ⟨text, read, users⟩
  | some quieted =>
    have written := FileSystem.writeText_of_holdsFile leads file plain quieted
    exact ⟨quieted, FileSystem.readText_of_write written, users.quieted new⟩

/-- A launch of a device apart from the user's script. -/
theorem write (h : Launched dir p contents fs fs') (apart : Apart fs dir p device) (port : UInt16) :
    Launched dir p contents fs (write fs' dir p port device).2 := by
  obtain ⟨text, read, users⟩ := h.users
  obtain ⟨l, leads, file, -⟩ := FileSystem.exists_locate_of_readText read
  have quieted := h.quiet read leads users
  rw [write_eq read leads]
  split
  · exact quieted
  · rename_i after written
    obtain ⟨k, leads', other, -, -, rfl⟩ := FileSystem.exists_set_of_write written
    obtain ⟨text', read', users'⟩ := quieted.users
    have base : (quietFiles fs' l p text).locate (dir.join p.baseScript) = .ok l :=
      (adds_quietFiles file p text).1.keeps.locate leads
    have elsewhere : l ≠ k := by
      rintro rfl
      exact apart l (h.adds.locate_back leads) (quieted.adds.locate_back leads')
    refine ⟨quieted.adds.trans (.setFile other _), text', ?_, users'⟩
    rw [FileSystem.readText_set_of_ne base elsewhere other, read']

end Launched

/-- However many devices are launched, the user's script stays one. -/
theorem launched_launchAll (read : fs.readText (dir.join p.baseScript) = .ok contents)
    {earlier : List (UInt16 × String)} (apart : ∀ e ∈ earlier, Apart fs dir p e.2) :
    Launched dir p contents fs (launchAll fs dir p earlier) := by
  have run : ∀ {earlier : List (UInt16 × String)} {fs' : FileSystem}, (∀ e ∈ earlier, Apart fs dir p e.2) →
      Launched dir p contents fs fs' → Launched dir p contents fs (launchAll fs' dir p earlier) := by
    intro earlier
    induction earlier with
    | nil => exact fun _ h => h
    | cons e earlier ih =>
      intro fs' apart h
      obtain ⟨first, rest⟩ := List.forall_mem_cons.mp apart
      exact ih rest (h.write first e.1)
  exact run apart ⟨.refl fs, contents, read, .inl rfl⟩

/-- What a launch writes. -/
theorem exists_of_write {l : Location} {path : Path} {after : FileSystem}
    (read : fs.readText (dir.join p.baseScript) = .ok contents) (leads : fs.locate (dir.join p.baseScript) = .ok l)
    (written : write fs dir p port device = (.ok path, after)) :
    path = dir.join (p.deviceScript device) ∧
      (quietFiles fs l p contents).writeText path (deviceScriptText contents p port device) = .ok after := by
  rw [write_eq read leads] at written
  split at written
  · cases written
  · cases written
    exact ⟨rfl, ‹_›⟩

/-- A device that can be launched can be launched after others, and gets the same script. -/
theorem exists_write_launchAll {path : Path} {after : FileSystem}
    (read : fs.readText (dir.join p.baseScript) = .ok contents) (plain : p = .unix → '\r' ∉ contents.toList)
    {earlier : List (UInt16 × String)} (apart : ∀ e ∈ earlier, Apart fs dir p e.2)
    (written : write fs dir p port device = (.ok path, after)) :
    after.readText path = .ok (deviceScriptText contents p port device) ∧
      ∃ after', write (launchAll fs dir p earlier) dir p port device = (.ok path, after') ∧
        after'.readText path = .ok (deviceScriptText contents p port device) := by
  obtain ⟨l, leads, file, -⟩ := FileSystem.exists_locate_of_readText read
  obtain ⟨rfl, alone⟩ := exists_of_write read leads written
  refine ⟨FileSystem.readText_of_write alone, ?_⟩
  have launched := launched_launchAll read apart
  obtain ⟨text, read', users⟩ := launched.users
  have leads' := launched.adds.keeps.locate leads
  obtain ⟨l', same, file', -⟩ := FileSystem.exists_locate_of_readText read'
  obtain rfl : l = l' := Except.ok.inj (leads'.symm.trans same)
  have adds : Adds (quietFiles fs l p contents) (quietFiles (launchAll fs dir p earlier) l p text) :=
    (adds_quietFiles file p contents).2.trans (launched.adds.trans (adds_quietFiles file' p text).1)
  obtain ⟨after', again⟩ := adds.exists_write alone (deviceScriptText text p port device).toUTF8
  change (quietFiles _ l p text).writeText _ (deviceScriptText text p port device) = _ at again
  refine ⟨after', ?_, ?_⟩
  · rw [write_eq read' leads', again]
  · rw [FileSystem.readText_of_write again, users.deviceScriptText plain]

/-- The script of a device whose name is one token. One line binds the device, to the arguments of the first line that
has any; other lines stay as they are, or are comments. On Unix, turning the assignments of the user's script into
comments leaves none and makes no difference to the script of a device. So it does not depend on what is launched
before. -/
theorem device_script_spec (contents : String) (p : Platform) (port : UInt16) (device : String)
    (single : ∀ c ∈ device.toList, Chars.isBlank c = false) :
    (∃ bound lines, Binds p port device.toList bound (Chars.lines contents.toList) lines ∧
        (∀ l ∈ lines ++ p.closing, '\n' ∉ l) ∧
        (deviceScriptText contents p port device).toList = (lines ++ p.closing).flatMap (· ++ p.lineEnd) ∧
        (Chars.lines (deviceScriptText contents p port device).toList).filter p.activates = [bound]) ∧
      (∀ quieted, silenced? contents.toList = some quieted →
        silenced? quieted = none ∧
          ('\r' ∉ contents.toList → deviceScriptChars quieted .unix port device.toList =
            deviceScriptChars contents.toList .unix port device.toList)) ∧
      ∀ (fs : FileSystem) (dir : Path) (earlier : List (UInt16 × String)),
        fs.readText (dir.join p.baseScript) = .ok contents → (p = .unix → '\r' ∉ contents.toList) →
        (∀ e ∈ earlier, Apart fs dir p e.2) →
        ∀ path after, write fs dir p port device = (.ok path, after) →
          after.readText path = .ok (deviceScriptText contents p port device) ∧
            ∃ after', write (launchAll fs dir p earlier) dir p port device = (.ok path, after') ∧
              after'.readText path = .ok (deviceScriptText contents p port device) := by
  refine ⟨?_, ?_, fun fs dir earlier read plain apart path after => exists_write_launchAll read plain apart⟩
  · obtain ⟨bound, lines, binds, whole⟩ := binds_deviceLines p port device.toList (Chars.lines contents.toList)
    have unbroken : ∀ l ∈ Chars.lines contents.toList, '\n' ∉ l := fun l => Chars.not_mem_of_mem_lines
    have text : (deviceScriptText contents p port device).toList =
        (lines ++ p.closing).flatMap (· ++ p.lineEnd) := by
      rw [deviceScriptText, String.toList_ofList, deviceScriptChars_eq, whole]
    refine ⟨bound, lines, binds, ?_, text, ?_⟩
    · exact List.forall_mem_append.mpr ⟨binds.unbroken single unbroken, by cases p <;> decide⟩
    · rw [text]
      exact binds.filter_lines single unbroken
  · intro quieted quiets
    rw [silenced?_eq] at quiets
    split at quiets
    · cases quiets
      exact ⟨silenced?_quietText _, fun plain => deviceScriptChars_quietText plain port device.toList⟩
    · cases quiets

/-- A directory with a user's script that assigns arguments. -/
def userFiles : FileSystem :=
  ⟨[(["webui"], .directory),
    (["webui", "webui-user.sh"], .file "# arguments\nexport COMMANDLINE_ARGS=\"--xformers\"\n".toUTF8)], []⟩

theorem userFiles_third_device :
    ∃ after', write (launchAll userFiles ⟨"webui"⟩ .unix [(7861, "1"), (7862, "2")]) ⟨"webui"⟩ .unix 7860 "0" =
        (.ok ⟨"webui/df-start-gpu-0.sh"⟩, after') ∧
      after'.readText ⟨"webui/df-start-gpu-0.sh"⟩ = .ok ("# arguments\n" ++
        "export COMMANDLINE_ARGS=\"--xformers --api --port 7860 --device-id 0\"\nsource webui.sh\n") := by
  have spec := device_script_spec "# arguments\nexport COMMANDLINE_ARGS=\"--xformers\"\n" .unix 7860 "0"
    (not_blank_of_all (by decide))
  have apart : ∀ e ∈ [((7861 : UInt16), "1"), (7862, "2")], Apart userFiles ⟨"webui"⟩ .unix e.2 := by
    intro e mem
    refine apart_of_slashless (by decide) ?_ userFiles .unix
    revert e
    decide
  have written : write userFiles ⟨"webui"⟩ .unix 7860 "0" =
      (.ok ⟨"webui/df-start-gpu-0.sh"⟩, (write userFiles ⟨"webui"⟩ .unix 7860 "0").2) :=
    Prod.ext (by decide +kernel) rfl
  obtain ⟨-, after', again, text⟩ := spec.2.2 userFiles ⟨"webui"⟩ _ (by decide +kernel) (by decide) apart _ _ written
  refine ⟨after', again, ?_⟩
  rw [text]
  decide +kernel

end RenderFarm.Launch

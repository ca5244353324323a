import RenderFarm.Device.Setup
import RenderFarm.Proofs.Files.Names

/-!
What the devices of a farm have to themselves. Ports are counted up from the first one and stop at the last port
there is; folders and files are named after the ids of the devices. So devices get in each other's way when there are
more of them than ports, and when ids name the same folder.
-/

namespace RenderFarm

namespace DeviceSetup

/-- The files that a device logs to. -/
def logFiles (d : DeviceSetup) : List Path :=
  [d.logPath, d.errorLogPath]

/-- The name of the script that a device is launched with. -/
def scriptName (d : DeviceSetup) : String :=
  d.platform.deviceScript d.id

/-- Whether two devices share nothing that each is to have to itself. -/
structure Apart (a b : DeviceSetup) : Prop where
  port : a.port ≠ b.port
  scratch : ¬ a.scratchDir.sameAs b.scratchDir
  logs : ∀ file ∈ a.logFiles, ∀ file' ∈ b.logFiles, ¬ file.sameAs file'
  script : a.scriptName ≠ b.scriptName

/-- Whether two ids name the same folder. -/
def sameFolder (id id' : String) : Bool :=
  Path.sameAs ⟨"gpu-" ++ id⟩ ⟨"gpu-" ++ id'⟩

/-! ## Folders and files -/

section Names

variable {id id' : String}

theorem toList_label (id : String) : ("gpu-" ++ id).toList = 'g' :: 'p' :: 'u' :: '-' :: id.toList := by
  rw [String.toList_append]
  rfl

theorem lead_label (id : String) : (⟨"gpu-" ++ id⟩ : Path).lead = [] :=
  Path.lead_eq_nil (toList_label id) (by decide) (by decide)

theorem lead_file (id s : String) : (⟨"gpu-" ++ id ++ s⟩ : Path).lead = [] := by
  have text := String.toList_append (s := "gpu-" ++ id) (t := s)
  rw [toList_label, List.cons_append] at text
  exact Path.lead_eq_nil text (by decide) (by decide)

theorem components_label (id : String) :
    (⟨"gpu-" ++ id⟩ : Path).components = (Path.partsOf ("gpu-" ++ id)).filterMap Component.ofPart? := by
  rw [Path.components_eq, lead_label, List.nil_append]

/-- The end of the name of a log file, which may be the one for errors. -/
def logSuffix (errors : Bool) : String :=
  if errors then "-errors.txt" else "-log.txt"

theorem plain_logSuffix (errors : Bool) :
    '/' ∉ (logSuffix errors).toList ∧ ∃ c ∈ (logSuffix errors).toList, c ≠ '.' := by
  cases errors
  · exact ⟨by decide, '-', by decide, by decide⟩
  · exact ⟨by decide, '-', by decide, by decide⟩

/-- What stands before the end of the name of a log file is known from the name. -/
theorem eq_of_logSuffix {last last' : String} {errors errors' : Bool}
    (same : last ++ logSuffix errors = last' ++ logSuffix errors') : last = last' := by
  have chars := congrArg String.toList same
  rw [String.toList_append, String.toList_append] at chars
  by_cases kind : errors = errors'
  · rw [kind] at chars
    exact String.toList_inj.mp (List.append_cancel_right chars)
  · -- The ends differ in the fifth character from the right.
    have reversed := congrArg List.reverse chars
    cases errors <;> cases errors' <;> simp [logSuffix] at kind reversed

/-- Devices that share a log file share their scratch folder. -/
theorem sameFolder_of_logs {errors errors' : Bool}
    (same : (⟨"gpu-" ++ id ++ logSuffix errors⟩ : Path).components =
      (⟨"gpu-" ++ id' ++ logSuffix errors'⟩ : Path).components) : sameFolder id id' := by
  obtain ⟨front, last, label, more⟩ := Path.exists_last_part ("gpu-" ++ id)
  obtain ⟨front', last', label', more'⟩ := Path.exists_last_part ("gpu-" ++ id')
  obtain ⟨plain, other⟩ := plain_logSuffix errors
  obtain ⟨plain', other'⟩ := plain_logSuffix errors'
  rw [Path.components_eq, Path.components_eq, lead_file, lead_file, more _ plain other, more' _ plain' other',
    List.nil_append, List.nil_append] at same
  obtain ⟨rfl, names⟩ := List.append_inj' same rfl
  have text : last ++ logSuffix errors = last' ++ logSuffix errors' := by
    injection names with name _
    injection name
  obtain rfl := eq_of_logSuffix text
  rw [sameFolder, Path.sameAs_iff, components_label, components_label, label, label']

end Names

/-! ## The devices of a farm -/

section Farm

variable {c : Config} {i j : Nat} {id id' : String}

theorem components_scratchDir : (ofConfig c i id).scratchDir.components =
    (c.outputRoot.join scratchFolder).components ++ (⟨"gpu-" ++ id⟩ : Path).components :=
  Path.components_join_of_lead (lead_label id) _

theorem exists_of_mem_logFiles {file : Path} (mem : file ∈ (ofConfig c i id).logFiles) : ∃ errors,
    file.components = c.logDir.components ++ (⟨"gpu-" ++ id ++ logSuffix errors⟩ : Path).components := by
  obtain rfl | mem := List.mem_cons.mp mem
  · exact ⟨false, Path.components_join_of_lead (lead_file id _) _⟩
  · obtain rfl := List.mem_singleton.mp mem
    exact ⟨true, Path.components_join_of_lead (lead_file id _) _⟩

theorem eq_of_scriptName (same : (ofConfig c i id).scriptName = (ofConfig c j id').scriptName) : id = id' := by
  have names : "df-start-gpu-" ++ id ++ ".sh" = "df-start-gpu-" ++ id' ++ ".sh" := same
  have chars := congrArg String.toList names
  simp only [String.toList_append, List.append_assoc] at chars
  exact String.toList_inj.mp (List.append_cancel_right (List.append_cancel_left chars))

/-- Devices are apart when they have different ports and different folders. -/
theorem apart_iff :
    Apart (ofConfig c i id) (ofConfig c j id') ↔ c.port i ≠ c.port j ∧ ¬ sameFolder id id' := by
  constructor
  · intro apart
    refine ⟨apart.port, fun same => apart.scratch ?_⟩
    rw [Path.sameAs_iff, components_scratchDir, components_scratchDir, Path.sameAs_iff.mp same]
  · rintro ⟨ports, folders⟩
    refine ⟨ports, fun same => folders ?_, fun file mem file' mem' same => folders ?_, fun same => folders ?_⟩
    · rw [Path.sameAs_iff, components_scratchDir, components_scratchDir] at same
      exact Path.sameAs_iff.mpr (List.append_cancel_left same)
    · obtain ⟨errors, within⟩ := exists_of_mem_logFiles mem
      obtain ⟨errors', within'⟩ := exists_of_mem_logFiles mem'
      rw [Path.sameAs_iff, within, within'] at same
      exact sameFolder_of_logs (List.append_cancel_left same)
    · rw [eq_of_scriptName same]
      exact Path.sameAs_iff.mpr rfl

theorem toNat_port (c : Config) (index : Nat) :
    (c.port index).toNat = min (c.startPort.toNat + index % 65536) 65535 := by
  have bounded : min (c.startPort.toNat + index % 65536) 65535 < 65536 := by omega
  rw [Config.port, UInt16.toNat_ofNat', Nat.mod_eq_of_lt bounded]

/-- Devices have ports of their own as long as there are enough from the first one on. -/
theorem ports_distinct_iff (c : Config) (n : Nat) :
    (∀ i j, i < j → j < n → c.port i ≠ c.port j) ↔ c.startPort.toNat + n ≤ 65536 := by
  constructor
  · intro distinct
    refine Decidable.byContradiction fun many => ?_
    have start : c.startPort.toNat < 65536 := c.startPort.toNat_lt
    -- The last port is taken twice, or the first one is when counting begins anew.
    by_cases first : c.startPort.toNat = 0
    · refine distinct 0 65536 (by omega) (by omega) (UInt16.toNat_inj.mp ?_)
      rw [toNat_port, toNat_port]
    · refine distinct (65535 - c.startPort.toNat) (65536 - c.startPort.toNat) (by omega) (by omega)
        (UInt16.toNat_inj.mp ?_)
      rw [toNat_port, toNat_port]
      omega
  · intro enough i j before within same
    have ports := congrArg UInt16.toNat same
    rw [toNat_port, toNat_port] at ports
    omega

/-- The devices of a farm are apart when there are enough ports and no two ids name the same folder. -/
theorem all_apart_iff (c : Config) : (all c).Pairwise Apart ↔
    c.startPort.toNat + c.devices.length ≤ 65536 ∧ c.devices.Pairwise (¬ sameFolder · ·) := by
  rw [← ports_distinct_iff, List.pairwise_iff_getElem, List.pairwise_iff_getElem]
  simp only [all, List.getElem_mapIdx, List.length_mapIdx, apart_iff]
  constructor
  · intro apart
    exact ⟨fun i j before within => (apart i j (by omega) within before).1,
      fun i j here there before => (apart i j here there before).2⟩
  · rintro ⟨ports, folders⟩ i j here there before
    exact ⟨ports i j before there, folders i j here there before⟩

theorem isName_label (slashless : '/' ∉ id.toList) : Path.IsName ("gpu-" ++ id) := by
  have text := toList_label id
  constructor
  · intro same
    simp [same] at text
  · intro same
    simp [same] at text
  · intro same
    simp [same] at text
  · rw [text]
    simp [slashless]

/-- Ids without a slash name the same folder only if they are the same. -/
theorem sameFolder_iff (slashless : '/' ∉ id.toList) (slashless' : '/' ∉ id'.toList) :
    sameFolder id id' ↔ id = id' := by
  rw [sameFolder, Path.sameAs_iff, (isName_label slashless).components, (isName_label slashless').components]
  constructor
  · intro same
    injection same with name _
    injection name with text
    have chars := congrArg String.toList text
    rw [String.toList_append, String.toList_append] at chars
    exact String.toList_inj.mp (List.append_cancel_left chars)
  · rintro rfl
    rfl

end Farm

end DeviceSetup

open DeviceSetup (sameFolder)

/-- The devices of a farm, whatever its settings, have ports, scratch folders, log files and launch scripts of their
own exactly when their ports do not go beyond the last one and no two of their ids name the same folder. Ids without
a slash just have to differ. -/
theorem devices_apart_iff (contents : String) :
    ((DeviceSetup.all (Config.parse contents).1).Pairwise DeviceSetup.Apart ↔
        (Config.parse contents).1.startPort.toNat + (Config.parse contents).1.devices.length ≤ 65536 ∧
          (Config.parse contents).1.devices.Pairwise (¬ sameFolder · ·)) ∧
      ((∀ id ∈ (Config.parse contents).1.devices, '/' ∉ id.toList) →
        ((Config.parse contents).1.devices.Pairwise (¬ sameFolder · ·) ↔
          (Config.parse contents).1.devices.Nodup)) := by
  refine ⟨DeviceSetup.all_apart_iff _, fun slashless => ?_⟩
  refine List.Pairwise.iff_of_mem fun {id id'} mem mem' => ?_
  rw [DeviceSetup.sameFolder_iff (slashless id mem) (slashless id' mem')]

/-- Three devices with ids of their own are apart. -/
theorem three_devices_apart :
    let c := (Config.parse "SD_START_PORT = 65533\nGPU_DEVICES = 0, 1, cpu\n").1
    (∀ id ∈ c.devices, '/' ∉ id.toList) ∧ (DeviceSetup.all c).Pairwise DeviceSetup.Apart := by
  intro c
  obtain ⟨apart, distinct⟩ := devices_apart_iff "SD_START_PORT = 65533\nGPU_DEVICES = 0, 1, cpu\n"
  have slashless : ∀ id ∈ c.devices, '/' ∉ id.toList := by decide +kernel
  refine ⟨slashless, apart.mpr ⟨?_, (distinct slashless).mpr ?_⟩⟩
  · decide +kernel
  · decide +kernel

/-- Two devices with one id, of which the first has the last port, share everything. -/
theorem twin_devices_share :
    let devices := DeviceSetup.all (Config.parse "SD_START_PORT = 65535\nGPU_DEVICES = 0, 0\n").1
    devices.map (·.port) = [65535, 65535] ∧
      devices.map DeviceSetup.scratchDir = [⟨"output/.scratch/gpu-0"⟩, ⟨"output/.scratch/gpu-0"⟩] ∧
      devices.map DeviceSetup.logPath = [⟨"logs/gpu-0-log.txt"⟩, ⟨"logs/gpu-0-log.txt"⟩] ∧
      devices.map DeviceSetup.scriptName = ["df-start-gpu-0.sh", "df-start-gpu-0.sh"] ∧
      ¬ devices.Pairwise DeviceSetup.Apart := by
  refine ⟨by decide +kernel, by decide +kernel, by decide +kernel, by decide +kernel, fun apart => ?_⟩
  obtain ⟨enough, _⟩ := (DeviceSetup.all_apart_iff _).mp apart
  exact absurd enough (by decide +kernel)

end RenderFarm

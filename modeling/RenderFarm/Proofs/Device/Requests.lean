import RenderFarm.Device.Supervisor

/-!
What calls leave a device with. Between calls no request is under way and no checkpoint is being loaded; the
checkpoint that is loaded is the last one that was switched to, and the requests that are counted are those that gave
images. A device that is not ready, or that was called off, turns every request down and stays as it is.
-/

namespace RenderFarm

open Backend

namespace Supervisor

variable {s : Supervisor} {e : DeviceError}

/-- Whether no request is under way and no checkpoint is being loaded. -/
structure Free (s : Supervisor) : Prop where
  idle : s.busy = false
  settled : s.pendingModel = none

/-- Whether a device turns every request down for one reason. It stays as it is, so nothing is sent, and no file is
touched. -/
structure Refuses (s : Supervisor) (e : DeviceError) : Prop where
  dispatch : ∀ r fs, s.dispatch r fs = (.error e, s, fs)
  loadModel : ∀ title, s.loadModel title = (.error e, s)
  discover : s.discover = (.error e, s)

/-! ## Requests that are turned down -/

theorem beginRequest_cases : (∃ e, s.beginRequest = .error e) ∨ s.beginRequest = .ok { s with busy := true } := by
  unfold beginRequest
  split
  · exact .inl ⟨_, rfl⟩
  · split
    · exact .inl ⟨_, rfl⟩
    · split
      · exact .inl ⟨_, rfl⟩
      · exact .inr rfl

theorem refuses_of_beginRequest (refused : s.beginRequest = .error e) : s.Refuses e where
  dispatch r fs := by simp only [dispatch, refused]
  loadModel title := by simp only [loadModel, refused]
  discover := by simp only [discover, refused]

theorem refuses_of_cancelled (off : s.cancelled) : s.Refuses .shuttingDown :=
  refuses_of_beginRequest (if_pos off)

theorem refuses_of_not_ready (on : ¬ s.cancelled) (early : s.state ≠ .ready) : s.Refuses (.notReady s.state) :=
  refuses_of_beginRequest ((if_neg on).trans (if_pos early))

/-! ## Requests that are carried out -/

/-- Storing an image concerns the connection only, as the backend is asked for its description. -/
theorem storeImage_device (kind : Kind) (image : String) (s : Supervisor) (fs : FileSystem) :
    ∃ link, (s.storeImage kind image fs).2.1 = { s with link } := by
  unfold storeImage
  dsimp only
  split
  · exact ⟨s.link, rfl⟩
  · split
    · exact ⟨_, rfl⟩
    · exact ⟨_, rfl⟩

theorem storeEach_device (kind : Kind) (images : List String) (s : Supervisor) (fs : FileSystem) :
    ∃ link, (storeEach kind images s fs).2.1 = { s with link } := by
  induction images generalizing s fs with
  | nil => exact ⟨s.link, rfl⟩
  | cons image images ih =>
    obtain ⟨link, same⟩ := storeImage_device kind image s fs
    unfold storeEach
    rcases stored : s.storeImage kind image fs with ⟨e | stored, s', fs'⟩
    · rw [stored] at same
      exact ⟨link, same⟩
    · rw [stored] at same
      obtain rfl : s' = { s with link } := same
      obtain ⟨link', same'⟩ := ih { s with link } fs'
      refine ⟨link', ?_⟩
      dsimp only
      rw [← same']
      rcases storeEach kind images { s with link } fs' with ⟨e | rest, s', fs'⟩ <;> rfl

theorem storeImages_device (kind : Kind) (images : List String) (s : Supervisor) (fs : FileSystem) :
    ∃ link, (s.storeImages kind images fs).2.1 = { s with link } := by
  unfold storeImages
  split
  · exact ⟨s.link, rfl⟩
  · split
    · exact ⟨s.link, rfl⟩
    · exact storeEach_device _ _ _ _

/-- A request is counted when it gives images, and leaves no trace otherwise but on the connection. -/
theorem dispatch_cases (free : s.Free) (r : Request) (fs : FileSystem) :
    (∃ e link fs', s.dispatch r fs = (.error e, { s with link }, fs')) ∨
      ∃ rendering link fs',
        s.dispatch r fs = (.ok rendering, { s with link, requestCount := s.requestCount + 1 }, fs') := by
  obtain ⟨e, refused⟩ | begun := s.beginRequest_cases
  · exact .inl ⟨e, s.link, fs, (refuses_of_beginRequest refused).dispatch r fs⟩
  · unfold dispatch
    simp only [begun]
    rcases render r s.link with ⟨e | images, link⟩
    · exact .inl ⟨.api e, link, fs, by simp only [endRequest, free.idle]⟩
    · obtain ⟨link', same⟩ := storeImages_device r.kind images { s with busy := true, link } fs
      dsimp only
      rcases stored : storeImages r.kind images { s with busy := true, link } fs with ⟨e | images, s', fs'⟩
      all_goals
        rw [stored] at same
        obtain rfl : s' = { s with busy := true, link := link' } := same
      · exact .inl ⟨e, link', fs', by simp only [endRequest, free.idle]⟩
      · exact .inr ⟨⟨r.kind, images⟩, link', fs', by simp only [endRequest, free.idle]⟩

/-- A checkpoint that is switched to is the one that is loaded then. -/
theorem loadModel_cases (free : s.Free) (title : String) :
    (∃ e link, s.loadModel title = (.error e, { s with link })) ∨
      ∃ link, s.loadModel title = (.ok (), { s with link, loadedModel := some title }) := by
  obtain ⟨e, refused⟩ | begun := s.beginRequest_cases
  · exact .inl ⟨e, s.link, (refuses_of_beginRequest refused).loadModel title⟩
  · unfold loadModel
    simp only [begun]
    rcases setModel title s.link with ⟨e | _, link⟩
    · exact .inl ⟨.api e, link, by simp only [endRequest, free.idle, free.settled]⟩
    · exact .inr ⟨link, by simp only [endRequest, free.idle, free.settled]⟩

theorem discover_device (free : s.Free) : ∃ link, s.discover.2 = { s with link } := by
  obtain ⟨e, refused⟩ | begun := s.beginRequest_cases
  · rw [(refuses_of_beginRequest refused).discover]
    exact ⟨s.link, rfl⟩
  · unfold discover
    simp only [begun]
    exact ⟨(Backend.discover s.link).2, by simp only [endRequest, free.idle]⟩

theorem shutdown_device (s : Supervisor) (fs : FileSystem) :
    ∃ link, (s.shutdown fs).1 = { s with link, cancelled := true, process := none, state := .stopped } := by
  unfold shutdown
  split
  · exact ⟨(Backend.interrupt s.link).2, rfl⟩
  · exact ⟨s.link, rfl⟩

theorem afterReady_device (s : Supervisor) (fs : FileSystem) :
    ∃ link loadedModel, (s.afterReady fs).2.1 = { s with link, loadedModel } := by
  unfold afterReady
  split
  · exact ⟨s.link, s.loadedModel, rfl⟩
  · exact ⟨_, _, rfl⟩

theorem launch_device (s : Supervisor) (fs : FileSystem) : ∃ link state loadedModel process,
    (s.launch fs).2.1 = { s with link, state, loadedModel, process } := by
  unfold launch
  dsimp only
  split
  · exact ⟨s.link, .launching, s.loadedModel, s.process, rfl⟩
  · split
    · exact ⟨s.link, .launching, s.loadedModel, s.process, rfl⟩
    · split
      · exact ⟨s.link, .launching, s.loadedModel, s.process, rfl⟩
      · rename_i p _
        unfold awaitReady
        dsimp only
        split
        · exact ⟨_, .pollingReady, s.loadedModel, s.process, rfl⟩
        · exact ⟨_, .pollingReady, s.loadedModel, s.process, rfl⟩
        · exact ⟨_, .pollingReady, s.loadedModel, s.process, rfl⟩
        · obtain ⟨link, loadedModel, same⟩ := afterReady_device _ _
          exact ⟨link, .pollingReady, loadedModel, some p, same⟩

/-- Bringing a device up is no request. -/
theorem bringUp_device (s : Supervisor) (fs : FileSystem) : ∃ link state loadedModel process,
    (s.bringUp fs).2.1 = { s with link, state, loadedModel, process } := by
  obtain ⟨link, state, loadedModel, process, same⟩ := launch_device s fs
  unfold bringUp
  rcases launched : s.launch fs with ⟨e | _, s', fs'⟩
  all_goals
    rw [launched] at same
    obtain rfl : s' = { s with link, state, loadedModel, process } := same
  · exact ⟨link, .failed, loadedModel, process, rfl⟩
  · exact ⟨link, .ready, loadedModel, process, rfl⟩

/-- Whatever comes of bringing up a new device, it is free and has not counted any request. -/
theorem free_bringUp (setup : DeviceSetup) (link : Link) (fs : FileSystem) :
    (bringUp { setup, link } fs).2.1.Free ∧ (bringUp { setup, link } fs).2.1.requestCount = 0 := by
  obtain ⟨link', state, loadedModel, process, same⟩ := bringUp_device { setup, link } fs
  rw [same]
  exact ⟨⟨rfl, rfl⟩, rfl⟩

end Supervisor

/-! ## Sequences of calls -/

/-- What a device may be asked for between two jobs, with the files as they are then. -/
inductive DeviceCall where
  | dispatch (r : Request) (files : FileSystem)
  | loadModel (title : String)
  | discover
  | shutdown (files : FileSystem)
  /-- The run of the device is called off. -/
  | callOff

namespace DeviceCall

/-- Carries out a call, with the error that it returns. -/
def perform (call : DeviceCall) (s : Supervisor) : Except DeviceError Unit × Supervisor :=
  match call with
  | .dispatch r fs => ((s.dispatch r fs).1.map fun _ => (), (s.dispatch r fs).2.1)
  | .loadModel title => s.loadModel title
  | .discover => (s.discover.1.map fun _ => (), s.discover.2)
  | .shutdown fs => (.ok (), (s.shutdown fs).1)
  | .callOff => (.ok (), s.cancel)

/-- Whether a call is the last one that a device carries out. -/
def isLast : DeviceCall → Bool
  | .dispatch _ _ => false
  | .loadModel _ => false
  | .discover => false
  | .shutdown _ => true
  | .callOff => true

/-- The checkpoint that was switched to by a call with its answer. -/
def loads? : DeviceCall × Except DeviceError Unit → Option String
  | (.loadModel title, .ok _) => some title
  | _ => none

/-- Whether a call with its answer is a request that gave images. -/
def gives : DeviceCall × Except DeviceError Unit → Bool
  | (.dispatch _ _, .ok _) => true
  | _ => false

end DeviceCall

namespace Supervisor

variable {s : Supervisor}

/-- Carries out calls, with their answers. -/
def serve : List DeviceCall → Supervisor → List (DeviceCall × Except DeviceError Unit) × Supervisor
  | [], s => ([], s)
  | call :: calls, s =>
    let (answer, s) := call.perform s
    let (rest, s) := serve calls s
    ((call, answer) :: rest, s)

/-- A call, with its answer, leaves a free device with the checkpoint that it switched to and with one request more
when it gave images. -/
theorem perform_device (free : s.Free) (call : DeviceCall) :
    let answered := (call, (call.perform s).1)
    (call.perform s).2.Free ∧
      (call.perform s).2.loadedModel = (DeviceCall.loads? answered).or s.loadedModel ∧
      (call.perform s).2.requestCount = s.requestCount + (if DeviceCall.gives answered then 1 else 0) ∧
      (s.cancelled ∨ call.isLast → (call.perform s).2.cancelled) := by
  cases call with
  | dispatch r fs =>
    obtain ⟨e, link, fs', failed⟩ | ⟨rendering, link, fs', done⟩ := dispatch_cases free r fs
    · simp only [DeviceCall.perform, failed]
      exact ⟨⟨free.idle, free.settled⟩, rfl, rfl, fun off => off.resolve_right nofun⟩
    · simp only [DeviceCall.perform, done]
      exact ⟨⟨free.idle, free.settled⟩, rfl, rfl, fun off => off.resolve_right nofun⟩
  | loadModel title =>
    obtain ⟨e, link, failed⟩ | ⟨link, done⟩ := loadModel_cases free title
    · simp only [DeviceCall.perform, failed]
      exact ⟨⟨free.idle, free.settled⟩, rfl, rfl, fun off => off.resolve_right nofun⟩
    · simp only [DeviceCall.perform, done]
      exact ⟨⟨free.idle, free.settled⟩, rfl, rfl, fun off => off.resolve_right nofun⟩
  | discover =>
    obtain ⟨link, same⟩ := discover_device free
    simp only [DeviceCall.perform, same]
    exact ⟨⟨free.idle, free.settled⟩, rfl, rfl, fun off => off.resolve_right nofun⟩
  | shutdown fs =>
    obtain ⟨link, same⟩ := shutdown_device s fs
    simp only [DeviceCall.perform, same]
    exact ⟨⟨free.idle, free.settled⟩, rfl, rfl, fun _ => trivial⟩
  | callOff => exact ⟨⟨free.idle, free.settled⟩, rfl, rfl, fun _ => rfl⟩

/-- What calls leave a free device with. -/
theorem serve_device (free : s.Free) (calls : List DeviceCall) :
    (serve calls s).2.Free ∧
      (serve calls s).2.loadedModel =
        ((serve calls s).1.filterMap DeviceCall.loads?).getLast?.or s.loadedModel ∧
      (serve calls s).2.requestCount = s.requestCount + (serve calls s).1.countP DeviceCall.gives ∧
      (s.cancelled ∨ (∃ call ∈ calls, call.isLast) → (serve calls s).2.cancelled) := by
  induction calls generalizing s with
  | nil => exact ⟨free, rfl, rfl, fun off => off.resolve_right (by simp)⟩
  | cons call calls ih =>
    obtain ⟨free', loaded, count, off⟩ := perform_device free call
    obtain ⟨still, loaded', count', off'⟩ := ih free'
    refine ⟨still, ?_, ?_, ?_⟩
    · rw [serve]
      dsimp only
      rw [loaded', loaded, List.filterMap_cons]
      cases DeviceCall.loads? (call, (call.perform s).1) with
      | none => rfl
      | some title =>
        dsimp only
        rw [List.getLast?_cons]
        cases (List.filterMap DeviceCall.loads? (serve calls (call.perform s).2).1).getLast? <;> rfl
    · rw [serve]
      dsimp only
      rw [count', count, List.countP_cons]
      omega
    · rintro (before | ⟨last, mem, isLast⟩)
      · exact off' (.inl (off (.inl before)))
      · obtain rfl | mem := List.mem_cons.mp mem
        · exact off' (.inl (off (.inr isLast)))
        · exact off' (.inr ⟨last, mem, isLast⟩)

/-- A call that fails leaves a free device with the checkpoint and the count that it had. -/
theorem perform_of_error {e : DeviceError} (free : s.Free) (call : DeviceCall)
    (failed : (call.perform s).1 = .error e) :
    (call.perform s).2.loadedModel = s.loadedModel ∧ (call.perform s).2.requestCount = s.requestCount := by
  obtain ⟨_, loaded, count, _⟩ := perform_device free call
  rw [failed] at loaded count
  constructor
  · rw [loaded]
    cases call <;> rfl
  · rw [count]
    cases call <;> rfl

/-- What calls leave a device with that was brought up. Between them no request is under way and no checkpoint is being
loaded; the checkpoint that is loaded is the last one that was switched to, or else the one at the start, and the
requests that gave images are counted. A call that fails changes neither. Once the device is shut down, or called off,
it turns every request down. A device that is not ready does so as well, for its state unless it was called off. -/
theorem serve_keeps_discipline (setup : DeviceSetup) (link : Link) (fs : FileSystem) (calls : List DeviceCall) :
    let s := (bringUp { setup, link } fs).2.1
    let history := (serve calls s).1
    let s' := (serve calls s).2
    s'.Free ∧
      s'.loadedModel = (history.filterMap DeviceCall.loads?).getLast?.or s.loadedModel ∧
      s'.requestCount = history.countP DeviceCall.gives ∧
      (∀ (call : DeviceCall) e, (call.perform s').1 = .error e →
        (call.perform s').2.loadedModel = s'.loadedModel ∧ (call.perform s').2.requestCount = s'.requestCount) ∧
      ((∃ call ∈ calls, call.isLast) → s'.Refuses .shuttingDown) ∧
      ∀ t : Supervisor, t.state ≠ .ready → t.Refuses (if t.cancelled then .shuttingDown else .notReady t.state) := by
  intro s history s'
  obtain ⟨free, none⟩ := free_bringUp setup link fs
  obtain ⟨free', loaded, count, off⟩ := serve_device free calls
  rw [none, Nat.zero_add] at count
  refine ⟨free', loaded, count, fun call e failed => perform_of_error free' call failed,
    fun last => refuses_of_cancelled (off (.inr last)), fun t early => ?_⟩
  split
  · rename_i cancelled
    exact refuses_of_cancelled cancelled
  · rename_i on
    exact refuses_of_not_ready on early

end Supervisor

/-! ## A device with a backend that always renders the same -/

/-- A backend that gives one image for each request, and agrees to anything. -/
def steadyServer : Server where
  reply _ call :=
    if call.path = "/sdapi/v1/txt2img" then .answer 200 "\x7b\"images\": [\"YWJj\"]\x7d"
    else .answer 200 "\x7b\x7d"

/-- The files of a backend whose process goes on for some seconds. -/
def steadyFiles : FileSystem :=
  ⟨[(["sd"], .directory),
      (["sd", "webui-user.sh"], .file ⟨"export COMMANDLINE_ARGS=\n".toUTF8.data⟩),
      (["sd", "webui.sh"], .file ⟨"exec sleep 20\n".toUTF8.data⟩)], []⟩

/-- The settings of a device with that backend. -/
def steadySetup : DeviceSetup where
  id := "0"
  port := 7860
  backendDir := ⟨"sd"⟩

/-- What the device is asked for: nothing is carried out after the shutdown. -/
def steadyCalls : List DeviceCall :=
  [.dispatch (.txt2img {}) steadyFiles, .loadModel "ink", .shutdown steadyFiles, .discover]

/-- The device once it was brought up. -/
def steadyDevice : Supervisor :=
  (Supervisor.bringUp { setup := steadySetup, link := { server := steadyServer } } steadyFiles).2.1

theorem history_steadyDevice :
    let history := (Supervisor.serve steadyCalls steadyDevice).1
    (history.filterMap DeviceCall.loads?).getLast? = some "ink" ∧ history.countP DeviceCall.gives = 1 := by
  decide +kernel

/-- A request and a switch are carried out, and nothing more after the shutdown. -/
theorem steadyDevice_serves :
    let s' := (Supervisor.serve steadyCalls steadyDevice).2
    steadyDevice.state = .ready ∧ s'.loadedModel = some "ink" ∧ s'.requestCount = 1 ∧ s'.Refuses .shuttingDown := by
  obtain ⟨_, loaded, count, _, refuses, _⟩ :=
    Supervisor.serve_keeps_discipline steadySetup { server := steadyServer } steadyFiles steadyCalls
  have ready : steadyDevice.state = .ready := by decide +kernel
  obtain ⟨switched, rendered⟩ := history_steadyDevice
  rw [← steadyDevice] at loaded count refuses
  rw [switched] at loaded
  exact ⟨ready, loaded, count.trans rendered, refuses ⟨.shutdown steadyFiles, by simp [steadyCalls], rfl⟩⟩

/-- A device whose run is called off before it is ready turns requests down, but not for its state. -/
theorem calledOff_before_ready :
    let s := Supervisor.cancel { setup := steadySetup, link := { server := steadyServer } }
    s.state = .uninitialized ∧ s.discover.1.isOk = false ∧ ¬ s.Refuses (.notReady s.state) := by
  intro s
  have off : s.Refuses .shuttingDown := Supervisor.refuses_of_cancelled rfl
  refine ⟨rfl, by rw [off.discover]; rfl, fun refuses => ?_⟩
  have turned := congrArg Prod.fst off.discover
  rw [refuses.discover] at turned
  cases turned

end RenderFarm

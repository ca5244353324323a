import RenderFarm.Backend.Http
import RenderFarm.Backend.Request
import RenderFarm.Backend.Response
import RenderFarm.Capability

/-!
The interface of a render backend. Each operation sends its request and reads the answer; asking for the
backend's lists sends one request after the other.
-/

namespace RenderFarm.Backend

/-- What an operation on a link gives, with the link to go on with. -/
abbrev Exchange (α : Type) := Link → Except ApiError α × Link

/-- Sends a request and reads its answer. -/
def fetch {α : Type} [JsonForm α] (call : Call) : Exchange α := fun l =>
  let (reply, l) := l.send call
  (reply.body.bind readBody, l)

/-- Sends a request whose answer only has to be a success. -/
def notify (call : Call) : Exchange Unit := fun l =>
  let (reply, l) := l.send call
  (reply.body.map fun _ => (), l)

/-- Whether the interface is up. While the backend starts, it answers that the address is not found. -/
def probe : Exchange Bool := fun l =>
  let (reply, l) := l.send { method := .get, path := "/sdapi/v1/samplers" }
  match reply with
  | .answer status body =>
    if 200 ≤ status ∧ status < 300 then
      match (readBody body : Except ApiError Json) with
      | .ok v =>
        (.ok (match v.member? "detail" with
          | some (.string "Not Found") => false
          | _ => true), l)
      | .error e => (.error e, l)
    else (.ok false, l)
  | _ => (.error .request, l)

/-- Sends a request for images and gives them in base64. -/
def render (r : Request) : Exchange (List String) := fun l =>
  let call : Call := { method := .post, path := r.kind.path, body := some r.body }
  match r with
  | .extra _ =>
    let (answer, l) := fetch (α := EnlargementAnswer) call l
    (answer.map fun a => [a.image], l)
  | _ =>
    let (answer, l) := fetch (α := GenerationAnswer) call l
    (answer.map (·.images), l)

/-- The text attached to an image that is given as a data URL. -/
def pngInfo (image : String) : Exchange String := fun l =>
  let (answer, l) := fetch (α := PngInfo)
    { method := .post, path := "/sdapi/v1/png-info", body := some (.object [("image", .string image)]) } l
  (answer.map (·.info), l)

/-- Changes settings of the backend. -/
def setOptions (options : Json) : Exchange Unit :=
  notify { method := .post, path := "/sdapi/v1/options", body := some options }

/-- Switches the checkpoint. -/
def setModel (title : String) : Exchange Unit :=
  setOptions (.object [("sd_model_checkpoint", .string title)])

/-- The checkpoint that is loaded. -/
def currentModel : Exchange (Option String) := fun l =>
  let (options, l) := fetch (α := Json) { method := .get, path := "/sdapi/v1/options" } l
  (options.map fun v =>
    match v.member? "sd_model_checkpoint" with
    | some (.string s) => some s
    | _ => none, l)

/-- Asks the backend to give up what it renders. -/
def interrupt : Exchange Unit :=
  notify { method := .post, path := "/sdapi/v1/interrupt", body := some (.object []) }

/-- Asks for a list. -/
def fetchList {α β : Type} [JsonForm α] (path : String) (f : α → β) : Exchange (List β) := fun l =>
  let (items, l) := fetch (α := List α) { method := .get, path } l
  (items.map fun items => items.map f, l)

/-- The samplers. -/
def samplers : Exchange (List String) :=
  fetchList "/sdapi/v1/samplers" Named.name

/-- The checkpoints. -/
def models : Exchange (List Model) :=
  fetchList "/sdapi/v1/sd-models" fun m : ListedModel => ⟨m.title, m.filename⟩

/-- The hypernetworks. -/
def hypernetworks : Exchange (List String) :=
  fetchList "/sdapi/v1/hypernetworks" NamedFile.name

/-- The prompt styles. -/
def styles : Exchange (List Style) :=
  fetchList "/sdapi/v1/prompt-styles" fun s : ListedStyle =>
    ⟨s.name, s.prompt.getD "", s.negativePrompt.getD ""⟩

/-- The VAEs. -/
def vaes : Exchange (List String) :=
  fetchList "/sdapi/v1/sd-vae" ListedVae.modelName

/-- The LoRAs. -/
def loras : Exchange (List String) :=
  fetchList "/sdapi/v1/loras" NamedFile.name

/-- Asks the backend to look for LoRAs again. -/
def refreshLoras : Exchange Unit :=
  notify { method := .post, path := "/sdapi/v1/refresh-loras" }

/-- The scripts. -/
def scripts : Exchange Scripts :=
  fetch { method := .get, path := "/sdapi/v1/scripts" }

/-- The upscalers. -/
def upscalers : Exchange (List String) :=
  fetchList "/sdapi/v1/upscalers" Named.name

/-- The models of the guidance extension. -/
def controlModels : Exchange (List String) := fun l =>
  let (answer, l) := fetch (α := ControlModels) { method := .get, path := "/controlnet/model_list" } l
  (answer.map (·.models), l)

/-- The preprocessors of the guidance extension. -/
def controlModules : Exchange (List String) := fun l =>
  let (answer, l) := fetch (α := ControlModules) { method := .get, path := "/controlnet/module_list" } l
  (answer.map (·.modules), l)

/-- A list that may be done without. -/
def orEmpty {α : Type} (ask : Exchange (List α)) (l : Link) : List α × Link :=
  let (items, l) := ask l
  (items.toOption.getD [], l)

/-- Asks for everything that the backend offers. The samplers, checkpoints, scripts and upscalers are
needed; any other list may fail and is then empty. The lists of the guidance extension are asked for only
when it is installed. -/
def discover : Exchange Capabilities := fun l =>
  match samplers l with
  | (.error e, l) => (.error e, l)
  | (.ok samplers, l) =>
    match models l with
    | (.error e, l) => (.error e, l)
    | (.ok models, l) =>
      let (_, l) := refreshLoras l
      let (hypernetworks, l) := orEmpty hypernetworks l
      let (loras, l) := orEmpty loras l
      let (styles, l) := orEmpty styles l
      let (vaes, l) := orEmpty vaes l
      match scripts l with
      | (.error e, l) => (.error e, l)
      | (.ok scripts, l) =>
        match upscalers l with
        | (.error e, l) => (.error e, l)
        | (.ok upscalers, l) =>
          let caps : Capabilities :=
            { samplers, models, hypernetworks, loras, styles, vaes, upscalers
              txt2imgScripts := scripts.txt2img, img2imgScripts := scripts.img2img }
          if caps.hasControlNetExtension then
            let (controlNetModels, l) := orEmpty controlModels l
            let (controlNetPreprocessors, l) := orEmpty controlModules l
            (.ok { caps with controlNetModels, controlNetPreprocessors }, l)
          else (.ok caps, l)

end RenderFarm.Backend

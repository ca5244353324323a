import RenderFarm.Json.Codec

/-!
Exchanges with a backend over HTTP. A backend is what it answers, given everything that has reached it so
far. A request may also get no answer: the connection breaks, or the backend is not reached at all.
-/

namespace RenderFarm.Backend

/-- The methods in use. -/
inductive Method where
  | get
  | post
deriving DecidableEq, Repr

/-- The name of a method. -/
def Method.name : Method → String
  | .get => "GET"
  | .post => "POST"

/-- A request as it is sent. -/
structure Call where
  method : Method
  path : String
  body : Option Json := none

/-- What comes back for a request. -/
inductive Reply where
  /-- An answer with its status and body. -/
  | answer (status : Nat) (body : String)
  /-- The request arrives and the connection is closed without an answer. -/
  | dropped
  /-- The request does not arrive. -/
  | unreached

/-- A backend: its reply to a request, given the requests that have arrived before. -/
structure Server where
  reply : List Call → Call → Reply

/-- A server that no request reaches. -/
def Server.unreachable : Server :=
  ⟨fun _ _ => .unreached⟩

/-- A server with the requests that have reached it, oldest first. -/
structure Link where
  server : Server
  arrived : List Call := []

/-- Sends a request. -/
def Link.send (l : Link) (call : Call) : Reply × Link :=
  let reply := l.server.reply l.arrived call
  let arrived :=
    match reply with
    | .unreached => l.arrived
    | _ => l.arrived ++ [call]
  (reply, { l with arrived })

/-- Why a request fails. -/
inductive ApiError where
  /-- No answer, or one that does not have the form expected. -/
  | request
  /-- An answer with a status that is not a success. -/
  | status (code : Nat) (body : String)
deriving DecidableEq, Repr

/-- The wording of a failure. -/
def ApiError.message : ApiError → String
  | .request => "HTTP request failed"
  | .status code body => "Render backend error (" ++ toString code ++ "): " ++ body

/-- The body of a successful answer. -/
def Reply.body : Reply → Except ApiError String
  | .answer status body =>
    if 200 ≤ status ∧ status < 300 then .ok body else .error (.status status body)
  | .dropped => .error .request
  | .unreached => .error .request

/-- The value of a body. -/
def readBody {α : Type} [JsonForm α] (body : String) : Except ApiError α :=
  match (Json.parse? body).bind ofJson? with
  | some a => .ok a
  | none => .error .request

end RenderFarm.Backend

/-
# The HTTP interface

A request is matched to a route by its path and to an action by its method. A
`HEAD` request is answered like a `GET` request, without the body.

Assumed of the web framework: a path is matched piece by piece, and the piece of an id is
taken with its escapes resolved; a method that a route does not have is answered with the
ones it has; the body of a request is read as JSON if its type says that it is and it is no
longer than the limit, and else turned down, in this order; and a value that cannot be
written as JSON is answered as a fault of the server.

Key definitions: `Request`, `Response`, `Route`, `Route.ofPath?`, `Agent.answer`.
Key theorems: `Agent.answer_get_monitor`.
-/
import QuotaWatch.Agent.Basic
import QuotaWatch.Agent.MediaType
import QuotaWatch.Agent.Metrics
import QuotaWatch.Agent.Target
import QuotaWatch.Document.Node
import QuotaWatch.Document.Settings
import QuotaWatch.Source.Path
import QuotaWatch.Text.Percent

namespace QuotaWatch

open Json

/-- A request to the agent. -/
structure Request where
  method : String
  /-- The path, with what may stand around it. -/
  target : String
  contentType : Option String := none
  body : String := ""
deriving Repr

/-- The body of a response. -/
inductive Body where
  | empty
  | json (j : Json)
  | text (s : String)
  /-- The reason of a rejection, in words that nothing depends on. -/
  | rejection
deriving Repr, Inhabited

/-- Why a request cannot be made. -/
inductive RequestFault where
  | method
  | target (fault : TargetFault)
  | contentType
deriving Repr, DecidableEq

/-- The fault as a text. -/
def RequestFault.message : RequestFault → String
  | .method => "invalid HTTP method"
  | .target fault => fault.message
  | .contentType => "failed to parse header value"

/-- The first fault of a request, by its method, its target and its header. -/
def Request.fault? (r : Request) : Option RequestFault :=
  if !isMethod r.method then some .method
  else
    match Target.path? r.target with
    | .error fault => some (.target fault)
    | .ok _ => if r.contentType.all isHeaderText then none else some .contentType

/-- A response of the agent. -/
structure Response where
  status : Nat
  contentType : Option String := none
  /-- The methods allowed, where the method is not. -/
  allow : List String := []
  body : Body := .empty
deriving Repr, Inhabited

namespace Response

def jsonType : String := "application/json"

def textType : String := "text/plain; charset=utf-8"

/-- A value as a JSON response; one that cannot be written is a fault of the server. -/
def ofJson (j : Json) : Response :=
  if j.isText then { status := 200, contentType := some jsonType, body := .json j }
  else
    { status := 500
      contentType := some textType
      body := .text "path contains invalid UTF-8 characters" }

/-- A fault as a JSON response. -/
def ofFault (status : Nat) (message : String) : Response :=
  { ofJson (.object [member "error" (ofString message)]) with status }

/-- A request that is turned down before it is acted on. -/
def rejected (status : Nat) : Response :=
  { status, contentType := some textType, body := .rejection }

/-- The response without its body. -/
def headOnly (r : Response) : Response := { r with body := .empty }

end Response

/-- What a path names. -/
inductive Route where
  | health
  | metrics
  | latest
  | average
  | systemInfo
  | instances
  /-- An instance, with its id as written. -/
  | workload (id : List Char)
deriving Repr, DecidableEq

namespace Route

/-- The route of a path. -/
def ofPath? (path : List Char) : Option Route :=
  match (Path.pieces path).map String.ofList with
  | ["", "healthz"] => some .health
  | ["", "metrics"] => some .metrics
  | ["", "monitoring"] => some .latest
  | ["", "monitoring", "average"] => some .average
  | ["", "system-info"] => some .systemInfo
  | ["", "instances"] => some .instances
  | ["", "instances", id] => if id.isEmpty then none else some (.workload id.toList)
  | _ => none

/-- The route of a target. -/
def ofTarget? (target : String) : Option Route := (Target.path? target).toOption.bind ofPath?

/-- The methods that a route allows. -/
def allowed : Route → List String
  | .workload _ => ["DELETE", "POST"]
  | _ => ["GET", "HEAD"]

end Route

namespace Agent

/-- The health of the agent. -/
def healthResponse (a : Agent) : Response :=
  let healthy := a.isHealthy
  let page := Json.object
    [member "status" (ofString (if healthy then "healthy" else "unhealthy")),
      member "nodeId" (ofString a.monitor.nodeId),
      member "lastSnapshot" (ofOption (·.snapshot.timestamp.toJson) a.latest)]
  { Response.ofJson page with status := if healthy then 200 else 503 }

/-- The page of metrics. -/
def metricsResponse : Response :=
  match metricsPage? metrics with
  | some page => { status := 200, contentType := some Response.textType, body := .text page }
  | none => { status := 500, contentType := some Response.jsonType, body := .rejection }

/-- The latest snapshot. -/
def latestResponse (a : Agent) : Response :=
  match a.latest with
  | some f => .ofJson f.snapshot.toJson
  | none => .ofFault 404 "no snapshot delivered yet"

/-- Whether a fault of an average means that there is none. -/
def isAbsence : Fault → Bool
  | .noData _ | .averagingDisabled => true
  | _ => false

/-- The averages. -/
def averageResponse (a : Agent) : Response :=
  match a.monitor.average with
  | .ok snapshot => .ofJson snapshot.toJson
  | .error fault => .ofFault (if isAbsence fault then 404 else 500) fault.message

/-- The answer to a request that only reads. -/
def read (a : Agent) : Route → Response
  | .health => a.healthResponse
  | .metrics => metricsResponse
  | .latest => a.latestResponse
  | .average => a.averageResponse
  | .systemInfo => .ofJson a.monitor.capacity.toJson
  | .instances => .ofJson (ofList ofString a.monitor.instances.ids)
  | .workload _ => { status := 404 }

/-- Whether a fault of a start is one of the request. -/
def isRefusal : Fault → Bool
  | .invalidRule _ _ | .invalidInstanceId _ => true
  | _ => false

/-- The bytes that the body of a request may have. -/
def bodyLimit : Nat := 2097152

/-- The parameters in the body of a request, or the response that turns it down. -/
def paramsOf (r : Request) : Except Response InstanceParams :=
  if !r.contentType.any isJsonType then .error (.rejected 415)
  else if bodyLimit < r.body.utf8ByteSize then .error (.rejected 413)
  else
    match InstanceParams.decode {} (Json.read r.body.toList).1 with
    | .ok params => .ok params
    | .error .malformed => .error (.rejected 400)
    | .error .shape => .error (.rejected 422)

/-- Register an instance. -/
def startFor (a : Agent) (id : String) (r : Request) : Agent × Response × List Event :=
  match paramsOf r with
  | .error response => (a, response, [])
  | .ok params =>
    match a.adopt (a.monitor.start id params) with
    | (a, events, .ok ()) => (a, { status := 201 }, events)
    | (a, events, .error fault) =>
      if isRefusal fault then
        (a, .ofFault 400 fault.message, events ++ [.noted (.startRejected id fault)])
      else (a, .ofFault 500 fault.message, events)

/-- Take an instance out of the registry. -/
def stopFor (a : Agent) (id : String) : Agent × Response × List Event :=
  match a.adopt (a.monitor.stop id) with
  | (a, events, _) => (a, { status := 204 }, events)

/-- The answer to a request that changes an instance. -/
def change (a : Agent) (written : List Char) (r : Request) : Agent × Response × List Event :=
  match Text.percentDecode? written with
  | none => (a, .rejected 400, [])
  | some id => if r.method == "POST" then a.startFor id r else a.stopFor id

/-- Answer a request. -/
def answer (a : Agent) (r : Request) : Agent × Response × List Event :=
  match Route.ofTarget? r.target with
  | none => (a, { status := 404 }, [])
  | some route =>
    if r.method ∉ route.allowed then (a, { status := 405, allow := route.allowed }, [])
    else
      match route with
      | .workload written => a.change written r
      | route => (a, if r.method == "HEAD" then (a.read route).headOnly else a.read route, [])

/-- A request that only reads changes nothing. -/
theorem answer_get_monitor (a : Agent) (r : Request)
    (h : ∀ written, Route.ofTarget? r.target ≠ some (.workload written)) : (a.answer r).1 = a := by
  unfold answer
  cases hr : Route.ofTarget? r.target with
  | none => rfl
  | some route =>
    cases route with
    | workload written => exact absurd hr (h written)
    | _ => simp only; split <;> rfl

end Agent

end QuotaWatch

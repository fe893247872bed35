import ConductorRs.Core.Conductor

/-!
The probe of rollup-boost. It asks for the health by HTTP and reads it off the
status code, or off the JSON document in the body, of which it takes no more bytes
than a limit. How the first document of a text is decoded is a parameter.
-/
namespace ConductorRs.RollupBoost

/-- The text of a `reqwest::Error`. -/
abbrev HttpError := String

/-- A body arrives in chunks, of any size; an error may end it. -/
structure Response where
  status : Nat
  chunks : List (List UInt8)
  error : Option HttpError

inductive RollupBoostHealthError where
  | http (err : HttpError)
  | unexpectedStatus (status : Nat)
  | unexpectedJsonHealth (health : String)
  | invalidResponse (message : String)
deriving DecidableEq

inductive RollupBoostHealthConfig where
  | statusCode
  | json

/-- `MAX_HEALTH_RESPONSE_BYTES`. -/
def maxHealthResponseBytes : Nat := 1 <<< 20

/-- What `chunk` gives after the last chunk ends the loop, or the function. -/
def endOfBody (error : Option HttpError) (body : List UInt8) :
    Except RollupBoostHealthError (List UInt8) :=
  match error with
  | none => .ok body
  | some err => .error (.http err)

/-- The loop of `read_limited_body`. The limit is compared after a chunk has
arrived, and only the chunk that crosses it is cut. -/
def readChunks (error : Option HttpError) :
    (body : List UInt8) → List (List UInt8) → Except RollupBoostHealthError (List UInt8)
  | body, [] => endOfBody error body
  | body, chunk :: rest =>
      let remaining := maxHealthResponseBytes - body.length
      if remaining = 0 then .ok body
      else if chunk.length ≤ remaining then readChunks error (body ++ chunk) rest
      else .ok (body ++ chunk.take remaining)

def readLimitedBody (response : Response) : Except RollupBoostHealthError (List UInt8) :=
  readChunks response.error [] response.chunks

/-- The body is drained, and an error of that is ignored. -/
def checkStatusCode (sent : Except HttpError Response) :
    Except RollupBoostHealthError RollupBoostHealthStatus := do
  let response ← sent.mapError .http
  match response.status with
  | 200 => return .healthy
  | 206 => return .partially
  | 503 => return .unhealthy
  | other => throw (.unexpectedStatus other)

def healthOfText (health : String) : Except RollupBoostHealthError RollupBoostHealthStatus :=
  match health with
  | "Healthy" => .ok .healthy
  | "PartialContent" => .ok .partially
  | "ServiceUnavailable" => .ok .unhealthy
  | other => .error (.unexpectedJsonHealth other)

/-- The member `rollup_boost_health` of the first document of the body. -/
def checkJson (decode : List UInt8 → Except String String) (sent : Except HttpError Response) :
    Except RollupBoostHealthError RollupBoostHealthStatus := do
  let response ← sent.mapError .http
  if response.status ≠ 200 then throw (.unexpectedStatus response.status)
  let body ← readLimitedBody response
  let health ← (decode body).mapError .invalidResponse
  healthOfText health

def check (decode : List UInt8 → Except String String) (config : RollupBoostHealthConfig)
    (sent : Except HttpError Response) : Except RollupBoostHealthError RollupBoostHealthStatus :=
  match config with
  | .statusCode => checkStatusCode sent
  | .json => checkJson decode sent

end ConductorRs.RollupBoost

import OData.EnvFile
import OData.Settings
import OData.Shape
import OData.Toml.Reader

/-! # Reading settings

Settings come from a document, in which everything can be left out, and from
variables of the environment, which count more.
-/
namespace OData

/-- The pause that so many milliseconds stand for. -/
def Json.millis? (j : Json) : Option Duration := (j.natBelow? UInt64.size).map Duration.ofMillis

namespace RetryPolicy

/-- A number of milliseconds in a document. -/
def millisShape : Shape := .integer 0 (UInt64.size - 1)

/-- A number of 32 bits in a document. -/
def smallShape : Shape := .integer 0 (UInt32.size - 1)

/-- What a document may say about retries. -/
def fields : List (String × Shape) :=
  [("max_attempts", .optional smallShape), ("base_delay", .optional millisShape),
    ("max_delay", .optional millisShape), ("backoff_multiplier", .optional .number),
    ("jitter", .optional .truth)]

/-- The policy of a value that has the shape of `fields`. -/
def ofJson (j : Json) : RetryPolicy :=
  let value? (name : String) := j.member? name
  { maxAttempts := ((value? "max_attempts").bind (Json.natBelow? UInt32.size)).getD default.maxAttempts
    baseDelay := ((value? "base_delay").bind Json.millis?).getD default.baseDelay
    maxDelay := ((value? "max_delay").bind Json.millis?).getD default.maxDelay
    multiplier := ((value? "backoff_multiplier").bind Json.number?).getD default.multiplier
    jitter := match value? "jitter" with
      | some (.bool b) => b
      | _ => default.jitter }

/-- The policy that a document describes. -/
def ofToml? (text : String) : Option RetryPolicy :=
  ((Toml.read? text).bind (Shape.record fields).read?).map ofJson

end RetryPolicy

namespace Settings

/-- What a document may say. -/
def fields : List (String × Shape) :=
  [("base_url", .optional .text), ("poll_interval_ms", .optional RetryPolicy.millisShape),
    ("timeout_ms", .optional RetryPolicy.millisShape),
    ("request_timeout_ms", .optional RetryPolicy.millisShape),
    ("max_page_size", .optional RetryPolicy.smallShape), ("headers", .optional (.mapOf .text)),
    ("retry", .optional (.record RetryPolicy.fields))]

/-- The settings of a value that has the shape of `fields`. -/
def ofJson (j : Json) : Settings :=
  let value? (name : String) := (j.member? name).filter (!·.isNull)
  { root := (value? "base_url").bind Json.text?
    pollInterval := ((value? "poll_interval_ms").bind Json.millis?).getD default.pollInterval
    waitLimit := (value? "timeout_ms").bind Json.millis?
    requestLimit := ((value? "request_timeout_ms").bind Json.millis?).getD default.requestLimit
    headers := default.headers.union (OperationResult.headersOf ((value? "headers").getD .null))
    pageSize := (value? "max_page_size").bind (Json.natBelow? UInt32.size)
    retry := ((value? "retry").map RetryPolicy.ofJson).getD .default }

/-- The settings that a document describes. -/
def ofToml (text : String) : Except Failure Settings :=
  match (Toml.read? text).bind (Shape.record fields).read? with
  | some j => .ok (ofJson j)
  | none => .error (.configuration "invalid config")

/-! ## Files and the environment -/

/-- What the settings are read from. -/
structure Sources where
  /-- The text of the file at a path, if it can be read. -/
  file? : String → Option String
  /-- The path of the document that is read unless another is named. -/
  defaultPath : String
  environment : NameMap String

/-- The name of the file with further variables. -/
def envFileName : String := ".env"

/-- The variables that are set, here or in the file for them. -/
def Sources.fullEnvironment (sources : Sources) : NameMap String :=
  match sources.file? envFileName with
  | some text => EnvFile.load sources.environment text
  | none => sources.environment

/-- The milliseconds that a variable gives. -/
def millisOf (environment : NameMap String) (name : String) :
    Except Failure (Option Duration) :=
  match environment.get? name with
  | none => .ok none
  | some value =>
    match Text.natBelow? UInt64.size (Text.trim value.toList) with
    | some n => .ok (some (.ofMillis n))
    | none => .error (.configuration s!"{name} must be milliseconds, got '{value}'")

/-- The settings with what the variables say in place of what they said. -/
def override (s : Settings) (environment : NameMap String) : Except Failure Settings := do
  let root := (environment.get? "ODATA_BASE_URL").filter (!·.isEmpty)
  let interval ← millisOf environment "ODATA_POLL_INTERVAL_MS"
  let limit ← millisOf environment "ODATA_TIMEOUT_MS"
  return { s with
    root := root.or s.root
    pollInterval := interval.getD s.pollInterval
    waitLimit := limit.or s.waitLimit }

/-- The settings in the document at a path. -/
def load (sources : Sources) (path : String) : Except Failure Settings :=
  match sources.file? path with
  | some text => ofToml text
  | none => .error (.configuration s!"failed to read {path}")

/-- The settings in the default document, if there is one, and in the
environment. -/
def loadDefault (sources : Sources) : Except Failure Settings := do
  let s ← match sources.file? sources.defaultPath with
    | some text => ofToml text
    | none => .ok default
  s.override sources.fullEnvironment

end Settings
end OData

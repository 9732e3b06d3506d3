import RunQuery.Navigator
import RunQuery.Text.Quoted

/-!
Settings of a client: page size, deadline, where the store is, and what a calendar and its names are made
of. `Config.validate` reports the first setting that cannot work.
-/
namespace RunQuery

inductive ConfigError where
  | empty (name : String)
  | zero (name : String)
  | invalidUrl (url : String)
deriving DecidableEq

def ConfigError.message : ConfigError → String
  | .empty name => "\x60" ++ name ++ "\x60 must not be empty"
  | .zero name => "\x60" ++ name ++ "\x60 must be greater than zero"
  | .invalidUrl url =>
    "store base url must start with http:// or https://, got " ++ Text.quoted url

/-- Refuses a setting under a condition. -/
def refuseIf (refused : Bool) (error : ConfigError) : Except ConfigError Unit :=
  if refused then .error error else .ok ()

/-- Where the names of sources come from: records of one type, a field of each, and no more than
`limit` of them. -/
structure NamesConfig where
  recordType : String
  nameField : String
  limit : UInt32
deriving DecidableEq

namespace NamesConfig

instance : Inhabited NamesConfig := ⟨"workflow", "name", 1000⟩

def validate (c : NamesConfig) : Except ConfigError Unit := do
  refuseIf c.recordType.isEmpty (.empty "reference.record_type")
  refuseIf c.nameField.isEmpty (.empty "reference.name_field")
  refuseIf (c.limit = 0) (.zero "reference.limit")

end NamesConfig

structure CalendarConfig where
  /-- The field that names the source of a record. -/
  sourceField : String
  kindField : String
  /-- Kinds to include; none stands for all. -/
  kinds : List String
  /-- Fields that may hold the time of a record, the best first. -/
  timestampFields : List String
  /-- Records on one page of a fetch. -/
  pageLimit : UInt32
  /-- Pages that one fetch goes through at most. -/
  maxPages : UInt32
  names : NamesConfig
deriving DecidableEq

namespace CalendarConfig

instance : Inhabited CalendarConfig where
  default :=
    { sourceField := "workflowId"
      kindField := "status"
      kinds := ["scheduled", "running", "completed", "failed"]
      timestampFields := ["startedAt", "scheduledAt"]
      pageLimit := 500
      maxPages := 20
      names := default }

def validate (c : CalendarConfig) : Except ConfigError Unit := do
  refuseIf c.sourceField.isEmpty (.empty "source_field")
  refuseIf c.timestampFields.isEmpty (.empty "timestamp_fields")
  refuseIf (!c.kinds.isEmpty && c.kindField.isEmpty) (.empty "kind_field")
  refuseIf (c.pageLimit = 0) (.zero "page_limit")
  refuseIf (c.maxPages = 0) (.zero "max_pages")
  c.names.validate

end CalendarConfig

structure Config where
  pageSize : PageSize
  /-- Milliseconds after which a request is cancelled. -/
  deadline : Option Nat
  baseUrl : String
  calendar : CalendarConfig
deriving DecidableEq

namespace Config

instance : Inhabited Config := ⟨default, none, "http://127.0.0.1:8080", default⟩

def validate (c : Config) : Except ConfigError Unit := do
  refuseIf (!("http://".isPrefixOf c.baseUrl || "https://".isPrefixOf c.baseUrl))
    (.invalidUrl c.baseUrl)
  c.calendar.validate

/-- Where queries are sent: the base without the slashes at its end, then the path of queries. -/
def endpoint (c : Config) : String :=
  let base := (c.baseUrl.toList.reverse.dropWhile (· = '/')).reverse
  String.ofList base ++ "/query"

end Config

end RunQuery

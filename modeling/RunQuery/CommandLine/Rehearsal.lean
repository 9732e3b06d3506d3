import RunQuery.CommandLine.Program
import RunQuery.Http.Exchange
import RunQuery.Http.Target

/-!
The program against a store within reach: a memory store behind HTTP at an address of its own. Before it is
asked, canned replies are given out in their order, except to listings. Every other address refuses.
-/
namespace RunQuery.CommandLine.Rehearsal

/-- Where the store is. -/
def host : String := "http://store"

structure World where
  memory : Memory
  canned : List Http.Response
  /-- Bodies of the requests that came, other than listings. -/
  requests : List String
  listings : List String
  /-- Where the last of the requests went. -/
  path : Option String
  printed : List String

/-- A request that came to the store, at a path. -/
def receive (path : String) (request : Request) (world : World) : Http.Response × World :=
  let body := (Http.requestBody? request).getD ""
  match (Json.decode Request.decode body.toList).toOption with
  | none => (⟨400, "malformed request"⟩, world)
  | some received =>
    if Http.isListing received then
      let served := Http.serve world.memory received
      (served.1, { world with memory := served.2, listings := world.listings ++ [body] })
    else
      let world := { world with requests := world.requests ++ [body], path := some path }
      match world.canned with
      | response :: canned => (response, { world with canned })
      | [] =>
        let served := Http.serve world.memory received
        (served.1, { world with memory := served.2 })

/-- The world of a program whose queries go to `endpoint`. No time passes in it, but an allowance of
none is used up at once. -/
def surroundings (endpoint : String) : Surroundings (StateM World) where
  now := pure 0
  ask allowance request := do
    if allowance = some 0 then return none
    match Text.cut? host.toList endpoint.toList with
    | some ([], rest) =>
      if (rest.head?.map Http.startsTarget) = some true then
        let world ← get
        let received := receive (String.ofList (Http.targetOf rest)) request world
        set received.2
        return some (Http.replyOf received.1)
      else return some (Http.unreachable endpoint)
    | _ => return some (Http.unreachable endpoint)
  print text := modify fun world => { world with printed := world.printed ++ [text] }

/-- What a run of the program shows. -/
structure Result where
  status : Nat
  stdout : String
  stderr : String
  requests : List String
  listings : List String
  path : Option String

/-- Runs the program. Its store is at a path below the address, unless it is told another. -/
def run (words : List String) (environment : List (String × String)) (basePath : String)
    (records : List Record) (canned : List Http.Response) : Result :=
  let settings := environment ++ [("RUNLENS_STORE_URL", host ++ basePath)]
  match readArguments (fun name => settings.lookup name) words with
  | .error e => ⟨e.exitStatus, "", "", [], [], none⟩
  | .ok arguments =>
    let program := runProgram (surroundings arguments.config.endpoint) arguments
    let ended := program.run.run ⟨Memory.ofRecords records, canned, [], [], none, []⟩
    let world := ended.2
    let failed := match ended.1 with
      | .ok () => none
      | .error e => some e.firstLine
    ⟨if failed.isSome then 1 else 0, String.join (world.printed.map (· ++ "\n")), failed.getD "",
      world.requests, world.listings, world.path⟩

end RunQuery.CommandLine.Rehearsal

import RunQuery.CommandLine.Program
import RunQuery.Http.Message
import Std.Async.DNS
import Std.Async.TCP
import Std.Async.Timer

/-!
The program with a real store, screen and clock. Each query has a connection of its own.
-/
namespace RunQuery.CommandLine

open Std.Async

/-- Everything that comes until the connection is closed. -/
partial def receiveAll (client : TCP.Socket.Client) (received : ByteArray) : Async ByteArray := do
  match ← client.recv? 65536 with
  | none => return received
  | some bytes => receiveAll client (received ++ bytes)

/-- Sends a message to an address and takes down the answer. -/
def exchange (address : Http.Address) (message : String) : Async ByteArray := do
  let found ← DNS.getAddrInfo address.host (toString address.service.toNat)
  let some ip := found[0]? | throw (IO.userError "no address")
  let client ← TCP.Socket.Client.mk
  client.connect (match ip with
    | .v4 addr => .v4 ⟨addr, address.service⟩
    | .v6 addr => .v6 ⟨addr, address.service⟩)
  client.send message.toUTF8
  receiveAll client .empty

/-- The reply of a store to a request, if it comes within so many milliseconds. -/
def askStore (endpoint : String) (milliseconds : Nat) (request : Request) :
    IO (Option (Reply Page)) := do
  let some address := Http.Address.ofUrl? endpoint | return some (Http.unreachable endpoint)
  let some body := Http.requestBody? request | return some (Http.unreachable endpoint)
  let asked : Async (Option ByteArray) := some <$> exchange address (Http.post address body)
  let waited : Async (Option ByteArray) := do
    sleep (Std.Time.Millisecond.Offset.ofNat milliseconds)
    return none
  try
    match ← (Async.race asked waited).block with
    | none => return none
    | some bytes =>
      match Http.readResponse? bytes.toList with
      | some response => return some (Http.replyOf response)
      | none => return some (Http.unreachable endpoint)
  catch _ => return some (Http.unreachable endpoint)

/-- A request has to be answered before its deadline and before the time of an exchange is up. The end
of the latter is a failure of the store. -/
def realSurroundings (arguments : Arguments) : Surroundings IO where
  now := IO.monoMsNow
  ask allowance request := do
    let endpoint := arguments.config.endpoint
    let limit := match allowance with
      | some milliseconds => min milliseconds arguments.timeout
      | none => arguments.timeout
    match ← askStore endpoint limit request with
    | some reply => return some reply
    | none =>
      if allowance = some limit then return none
      else return some (.error ["POST " ++ endpoint, "operation timed out"])
  print := IO.println

def usage : String :=
  "Query run records from a record store\n\n" ++
  "Usage: runquery [--store-url URL] [--timeout-ms MS] [--deadline-ms MS] [--log-json] COMMAND\n\n" ++
  "Commands:\n" ++
  "  runs      [--filter FIELD=VALUE]... [--sort COLUMN]... [--page-size N] [--pages N]\n" ++
  "  calendar  --source ID... --start-ms MS --end-ms MS [--kind KIND]..."

/-- Runs the program and gives its exit status. -/
def runMain (words : List String) : IO UInt32 := do
  let names := programLevel.options.map fun option => variableOf option.name
  let settings ← names.filterMapM fun name => do
    return (← IO.getEnv name).map fun value => (name, value)
  match readArguments (fun name => settings.lookup name) words with
  | .error e =>
    if e = .displayHelp then IO.println usage
    else IO.eprintln ("error: " ++ e.name ++ "\n\n" ++ usage)
    return UInt32.ofNat e.exitStatus
  | .ok arguments =>
    match ← (runProgram (realSurroundings arguments) arguments).run with
    | .ok () => return 0
    | .error e =>
      IO.eprintln e.report
      return 1

end RunQuery.CommandLine

def main (words : List String) : IO UInt32 := RunQuery.CommandLine.runMain words

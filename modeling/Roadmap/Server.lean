import Roadmap.Session
import Roadmap.Settings

/-!
# Starting the server

The server is started by its environment: `OUTLINE_FILE` names the file, `CREATE_IF_MISSING` allows
it to be created, and `API_ENABLED` and `API_PORT` open the web interface. Without a file it does
not start. A file that cannot be opened, or a setting that cannot be read, stops it with a fault
before it runs; a pause between two looks at the file that is out of bounds shows when it ends.
-/

namespace Roadmap.Server

/-- The name under which the server shows itself. -/
def name : String := "outline-timeline"

/-- How the tools are reached. -/
def transport : String := "stdio"

/-- The address and the log level of the web interface. -/
def host : String := "0.0.0.0"

def logLevel : String := "warning"

/-- How a start ended. -/
inductive Launch where
  /-- There is no file to work on. -/
  | refused
  /-- The server runs, with the web interface at a socket if it is enabled. -/
  | running (watch : WatchSettings) (socket : Option Int)
deriving DecidableEq, Repr

/-- What comes of ending a run. -/
def Launch.stop : Launch → Except Fault Unit
  | refused => .ok ()
  | running watch _ => watch.checkStop

/-- The socket of the web interface, if it is enabled. -/
def webSocket (env : Environment) : Except Fault (Option Int) :=
  if env.flag "API_ENABLED" "true" then
    (Text.readInt (env.get "API_PORT" "9410").toList).map some
  else .ok none

/-- Opens the file at `path` and reads the other settings. -/
def launchOn (env : Environment) (path : String) : Work Launch := do
  let create := env.flag "CREATE_IF_MISSING" "true"
  if (← get).disk.time?.isNone && !create then return .refused
  else
    Session.start path create
    let watch ← WatchSettings.read env none none
    return .running watch (← webSocket env)

/-- Starts the server. -/
def launch (env : Environment) : Work Launch :=
  let path := env.get "OUTLINE_FILE" ""
  if path.isEmpty then return .refused else launchOn env (Path.plain path)

end Roadmap.Server

import Roadmap.Console
import Std.Time.DateTime.Timestamp

/-!
# The program

The console on a real file. Before each command the file is looked at, and after it the file is
written if the command has written to it.
-/

namespace Roadmap.Program

/-- Seconds since the start of the day 1970-01-01, which has the number 719163. -/
def seconds : IO Int := do
  return (← Std.Time.Timestamp.now).toSecondsSinceUnixEpoch.toInt

/-- The day and the time of day as text. -/
def stampOf (day : Date) (second : Nat) : String :=
  let part (n : Nat) : String := String.ofList (Text.fixedDigits 2 n)
  day.iso ++ "T" ++ part (second / 3600) ++ ":" ++ part (second / 60 % 60) ++ ":"
    ++ part (second % 60)

/-- A session that has not opened a file yet. -/
def newSession : IO Session := do
  let now ← seconds
  let day := Date.nearest (719163 + now / 86400)
  return { today := day, stamp := stampOf day (now % 86400).toNat }

/-- What the file holds, if it can be read. -/
def contents? (path : String) : IO (Option Contents) := do
  try
    let bytes ← IO.FS.readBinFile path
    return some (.ofBytes bytes.data.toList)
  catch _ => return none

/-- The directory of the file is there. -/
def hasDirectory (path : String) : IO Bool := do
  try
    discard (IO.FS.Handle.mk (Path.above path) .read)
    return true
  catch _ => return false

/-- The disk with the file as it is now. One that has changed gets a later time. -/
def look (path : String) (disk : Disk) : IO Disk := do
  let known : Option Contents := match disk.node with
    | .file contents _ => some contents
    | _ => none
  match ← contents? path with
  | some contents =>
    if known = some contents then return disk
    else return ⟨.file contents (disk.clock + 1), disk.clock + 1⟩
  | none =>
    let there ← hasDirectory path
    return { disk with node := if there then .missing else .obstructed .noDirectory }

/-- Writes the file if the disk has changed, and first the directories that were created for it. -/
def flush (path : String) (before after : Disk) : IO Unit := do
  if before ≠ after then
    if before.node = .obstructed .noDirectory then IO.FS.createDirAll (Path.above path)
    match after.node with
    | .file contents _ => IO.FS.writeBinFile path ⟨contents.toBytes.toArray⟩
    | _ => return ()

/-- Does some work on the file. -/
def perform (path : String) (desk : Desk) (work : Work α) : IO (Except Fault α × Desk) := do
  let desk := { desk with disk := ← look path desk.disk }
  let (outcome, after) := work.on desk
  flush path desk.disk after.disk
  return (outcome, after)

/-- Reports a fault and answers the exit code. -/
def fail (f : Fault) : IO UInt32 := do
  IO.eprintln f.message
  return 1

/-- Says goodbye. -/
def finish : IO UInt32 := do
  IO.print Console.closing
  return 0

/-- Takes commands until the console ends. -/
partial def converse (path : String) (desk : Desk) : IO UInt32 := do
  IO.print Console.prompt
  (← IO.getStdout).flush
  let line ← (← IO.getStdin).getLine
  if line.isEmpty then
    IO.print "\n"
    finish
  else
    match ← perform path desk (Console.step line) with
    | (.error f, _) => fail f
    | (.ok .quit, _) => finish
    | (.ok (.text answer), desk) =>
      IO.print answer
      converse path desk

end Roadmap.Program

open Roadmap in
def main (args : List String) : IO UInt32 := do
  match args with
  | [] =>
    IO.print Console.usage
    return 1
  | path :: _ =>
    IO.print (Console.opening path)
    let desk : Desk := { session := ← Program.newSession }
    match ← Program.perform path desk (Session.start path true) with
    | (.error f, _) => Program.fail f
    | (.ok (), desk) =>
      IO.print (Console.overview desk.session ++ Console.greeting)
      Program.converse path desk

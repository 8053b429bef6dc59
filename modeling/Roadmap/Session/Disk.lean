import Roadmap.Fault
import Roadmap.Session.Path
import Roadmap.Text.Line

/-!
# The file of an outline

A session edits one file. What matters of the file system is the state of that one path: nothing,
a file with a time of its last change, or something that is in the way. A file that holds UTF-8
is kept as the text itself; other bytes are kept as they are and cannot be read. Directories are
only created when a session starts; one that goes missing later on is in the way of its writes.

Reading makes line feeds of all line ends, writing changes nothing. Each write by a session comes
1000 ticks after the one before.
-/

namespace Roadmap

/-- What a file holds. -/
inductive Contents where
  | text (s : String)
  /-- Bytes that are not UTF-8. -/
  | undecodable (bytes : List UInt8)
deriving DecidableEq

def Contents.ofBytes (bytes : List UInt8) : Contents :=
  match String.fromUTF8? (ByteArray.mk bytes.toArray) with
  | some s => .text s
  | none => .undecodable bytes

def Contents.toBytes : Contents → List UInt8
  | .text s => s.toUTF8.data.toList
  | .undecodable bytes => bytes

/-- What keeps a path from naming a file that could be there. -/
inductive Obstacle where
  /-- A directory on the way is not there, but could be created. -/
  | noDirectory
  /-- A file stands in the place of the directory right above. -/
  | fileAbove
  /-- A file stands in the place of a directory further up. -/
  | fileFurtherUp
  /-- A directory on the way is not there, and the path names one that would be created with it. -/
  | ownDirectory
deriving DecidableEq

/-- The state of a path; `time` is when it last changed. -/
inductive Node where
  | missing
  | file (contents : Contents) (time : Int)
  | directory (time : Int)
  | obstructed (o : Obstacle)
deriving DecidableEq

def Node.isFile : Node → Bool
  | file _ _ => true
  | _ => false

/-- What a path finds in a directory that holds the file `name`, if `node` is one, and nothing
else. Parts of the path that do not exist may be created later, so what is in the way after them
counts as well. -/
def Node.under (name : String) (node : Node) (path : String) : Node :=
  let parts := Path.parts path
  let target := Path.undone [] parts
  if parts.all (· == "..") then .directory 0
  else if node.isFile && parts.head? == some name then
    match parts.length with
    | 1 => node
    | 2 => .obstructed .fileAbove
    | _ => .obstructed .fileFurtherUp
  else if target.isEmpty then .obstructed .ownDirectory
  else if node.isFile && target.head? == some name && 1 < target.length then
    .obstructed .fileAbove
  else if parts.dropLast.all (· == "..") then .missing
  else .obstructed .noDirectory

structure Disk where
  node : Node := .missing
  /-- The time of the last write by a session. -/
  clock : Int := 1000000
deriving DecidableEq

namespace Disk

/-- The time between two writes. -/
def tick : Int := 1000

/-- When the path last changed, if there is anything. -/
def time? (d : Disk) : Option Int :=
  match d.node with
  | .missing => none
  | .file _ time => some time
  | .directory time => some time
  | .obstructed _ => none

/-- The text of the file and its time. -/
def read (d : Disk) (path : String) : Except Fault (String × Int) :=
  match d.node with
  | .missing => .error (.fileMissing path)
  | .directory _ => .error (.isDirectory path)
  | .obstructed .noDirectory => .error (.fileMissing path)
  | .obstructed .ownDirectory => .error (.fileMissing path)
  | .obstructed _ => .error (.notADirectory path)
  | .file (.undecodable _) _ => .error .undecodable
  | .file (.text s) time => .ok (String.ofList (Text.universal s.toList), time)

/-- The disk once the directories on the way to the file have been created. -/
def makeWay (d : Disk) (path : String) : Except Fault Disk :=
  match d.node with
  | .obstructed .noDirectory => .ok { d with node := .missing }
  | .obstructed .fileAbove => .error (.fileExists (Path.above path))
  | .obstructed .fileFurtherUp => .error (.notADirectory (Path.above path))
  | .obstructed .ownDirectory => .ok { d with node := .directory d.clock }
  | _ => .ok d

/-- The disk after a session has written a text. The directory of the file has to be there. -/
def write (d : Disk) (path text : String) : Except Fault Disk :=
  match d.node with
  | .directory _ => .error (.isDirectory path)
  | .obstructed .noDirectory => .error (.fileMissing path)
  | .obstructed .ownDirectory => .error (.fileMissing path)
  | .obstructed _ => .error (.notADirectory path)
  | _ =>
    let now := d.clock + tick
    .ok ⟨.file (.text text) now, now⟩

/-- The disk after someone else has written the file: its time moves by `delta` from where it was,
or from the clock if there was no file. -/
def overwrite (d : Disk) (path : String) (contents : Contents) (delta : Int) :
    Except Fault Disk :=
  match d.node with
  | .directory _ => .error (.isDirectory path)
  | .obstructed .noDirectory => .error (.fileMissing path)
  | .obstructed _ => .error (.notADirectory path)
  | .file _ time => .ok { d with node := .file contents (time + delta) }
  | .missing => .ok { d with node := .file contents (d.clock + delta) }

/-- The disk without the file. -/
def remove (d : Disk) (path : String) : Except Fault Disk :=
  match d.node with
  | .directory _ => .error (.isDirectory path)
  | .obstructed .noDirectory => .ok d
  | .obstructed _ => .error (.notADirectory path)
  | _ => .ok { d with node := .missing }

/-- The disk with a directory in place of the file. -/
def block (d : Disk) : Disk := { d with node := .directory d.clock }

/-- The disk without that directory. -/
def unblock (d : Disk) : Disk :=
  match d.node with
  | .directory _ => { d with node := .missing }
  | _ => d

end Disk

end Roadmap

import Roadmap.Json.Reader
import Roadmap.Text.Utf8

/-!
# Addresses

What of an address on the web says where a request goes: `scheme://user@host:port/path`, of which
any part may be missing. An address with a scheme and a host stands for itself; any other is a path
on the server, however many slashes it starts with. A query and a fragment do not matter.

The parts `.` and `..` of a path are carried out on the path as it is written. Only then `%xx` is
undone, and it is undone twice: once for the address and once for the path that it gives. This is
how the client and the web framework in front of the routes show from outside.
-/

namespace Roadmap.Service

/-! ## Paths -/

/-- The parts of a text between its slashes; `part` is the one being read, last character
first. -/
def cutAtSlashes : List Char → List Char → List (List Char)
  | part, [] => [part.reverse]
  | part, '/' :: rest => part.reverse :: cutAtSlashes [] rest
  | part, c :: rest => cutAtSlashes (c :: part) rest

/-- Carries out `.` and `..`; `seen` are the parts before, last first. The empty part in front of
the first slash stays. -/
def carryOut : List (List Char) → List (List Char) → List (List Char)
  | seen, [] => seen.reverse
  | seen, part :: rest =>
    if part = ['.'] then carryOut seen rest
    else if part = ['.', '.'] then carryOut (if seen = [[]] then seen else seen.tail) rest
    else carryOut (part :: seen) rest

def withoutDots (path : List Char) : List Char :=
  ['/'].intercalate (carryOut [] (cutAtSlashes [] path))

/-- The bytes of a path with `%xx` undone. -/
def percentBytes : List Char → List UInt8
  | '%' :: a :: b :: rest =>
    match Json.hexValue? a, Json.hexValue? b with
    | some x, some y => UInt8.ofNat (x * 16 + y) :: percentBytes rest
    | _, _ => Text.utf8 '%' ++ percentBytes (a :: b :: rest)
  | c :: rest => Text.utf8 c ++ percentBytes rest
  | [] => []

def unescaped (path : List Char) : List Char := Text.ofBytes (percentBytes path)

/-- The path that is asked for by one that stands in an address. -/
def arrival (path : List Char) : List Char := unescaped (unescaped (withoutDots path))

/-! ## Reading an address -/

structure Address where
  /-- In lower case; empty if there is none. -/
  scheme : List Char
  user : List Char
  host : List Char
  port : Option Int
  path : List Char
deriving DecidableEq, Repr

namespace Address

/-- The longest address that is read. -/
def maxLength : Nat := 65536

def isControl (c : Char) : Bool := c.toNat < 0x20 || c.toNat == 0x7F

def isSchemeChar (c : Char) : Bool := c.isAlphanum || c == '+' || c == '-' || c == '.'

/-- The scheme in front of the first colon, which may be empty, and what follows the colon. -/
def takeScheme (s : List Char) : List Char × List Char :=
  let scheme := s.takeWhile isSchemeChar
  match s.dropWhile isSchemeChar with
  | ':' :: rest =>
    if (scheme.head?.map Char.isAlpha).getD true then (scheme.map Char.toLower, rest) else ([], s)
  | _ => ([], s)

def endsAuthority (c : Char) : Bool := c == '/' || c == '?' || c == '#'

def endsPath (c : Char) : Bool := c == '?' || c == '#'

/-- What stands between two slashes and the path, and what follows it. -/
def takeAuthority : List Char → List Char × List Char
  | '/' :: '/' :: rest => (rest.takeWhile (!endsAuthority ·), rest.dropWhile (!endsAuthority ·))
  | s => ([], s)

/-- The text up to the last `c`, and what follows it; nothing comes before it if there is none. -/
def cutAtLast (c : Char) (s : List Char) : List Char × List Char :=
  let after := (s.reverse.takeWhile (· != c)).reverse
  (s.take (s.length - after.length - 1), after)

/-- The host, which is in brackets or ends at a colon, and what follows it. -/
def takeHost (s : List Char) : List Char × List Char :=
  let inner := (cutAtLast ']' s).1
  let length :=
    if s.head? = some '[' ∧ !inner.isEmpty then inner.length + 1
    else (s.takeWhile (· != ':')).length
  (s.take length, s.drop length)

/-- The port after a host, which stands behind a colon; nothing there is no port. -/
def readPort (s : List Char) : Except Fault (Option Int) :=
  let digits := if s.head? = some ':' then s.tail else s
  if digits.isEmpty then .ok none
  else
    match Text.readInt digits with
    | .ok n => .ok (some n)
    | .error _ => .error .invalidAddress

def hasAuthority (a : Address) : Bool := !a.user.isEmpty || !a.host.isEmpty || a.port.isSome

/-- A path with nothing in front of it starts neither with two slashes nor with a colon. -/
def hasPlainPath (a : Address) : Bool :=
  a.hasAuthority || !a.scheme.isEmpty
    || (a.path.take 2 != ['/', '/'] && a.path.head? != some ':')

/-- Reads an address. -/
def read (url : String) : Except Fault Address := do
  let s := url.toList
  if maxLength < s.length || s.any isControl then throw .invalidAddress
  let (scheme, rest) := takeScheme s
  let (authority, rest) := takeAuthority rest
  let (user, place) := cutAtLast '@' authority
  let (host, port) := takeHost place
  let address : Address :=
    ⟨scheme, user, host, ← readPort port, rest.takeWhile (!endsPath ·)⟩
  if address.hasPlainPath then return address else throw .invalidAddress

/-! ## Where it leads -/

/-- The address stands for itself. -/
def isComplete (a : Address) : Bool := !a.scheme.isEmpty && !a.host.isEmpty

/-- The path on the server that an address leads to. -/
def target (a : Address) : Except Fault (List Char) :=
  if a.isComplete then
    if a.scheme = "http".toList ∨ a.scheme = "https".toList then .ok (arrival a.path)
    else .error (.unknownScheme (String.ofList a.scheme))
  else
    let path := if a.hasAuthority || !a.scheme.isEmpty then withoutDots a.path else a.path
    .ok (arrival ('/' :: path.dropWhile (· == '/')))

end Address

/-- The path that an address asks for. -/
def requestedPath (url : String) : Except Fault (List Char) := do
  (← Address.read url).target

end Roadmap.Service

import Roadmap.Service.Address
import Roadmap.Service.Body

/-!
# The web interface

The way from a request over HTTP to a route. A path names what a request is about and a method what
to do with it; the arguments come in the body. A path that nothing is known under is not found, and
a known one with another method is not allowed. A line feed at the end of a known path does no harm,
and a path that is known but for the slashes at its end sends the request on to where it is known. A
body that is not as it should be gets 422 and all that is wrong with it.

All of this is done by the web framework in front of the routes (`Route`), and stands for it here as
it shows from outside.
-/

namespace Roadmap.Service

/-- A request as it comes in. -/
structure HttpRequest where
  method : String
  url : String
  body : Body
deriving DecidableEq, Repr

inductive HttpResponse where
  | answer (status : Nat) (body : Json)
  /-- Only the status. -/
  | bare (status : Nat)
  /-- A body that is not as it should be. -/
  | invalid (issues : List Issue)

def Reply.toResponse (r : Reply) : HttpResponse := .answer r.status r.body

/-- The parts of a path that starts with a slash. -/
def segments (path : List Char) : List String :=
  match path with
  | '/' :: rest => (cutAtSlashes [] rest).map String.ofList
  | _ => []

/-! ## Paths -/

/-- What a path is about. -/
inductive Resource where
  | plan
  | conflicts
  | task (id : String)
  | dragPreview (id : String)
  | drag (id : String)
  | undo
  | redo
  | edit
  | parse
  | status
deriving DecidableEq, Repr

namespace Resource

/-- A resource whose path ends in a fixed part. -/
def fixed? : List String → Option Resource
  | ["api", "timeline"] => some plan
  | ["api", "conflicts"] => some conflicts
  | ["api", "tasks", id, "drag", "preview"] => if id.isEmpty then none else some (dragPreview id)
  | ["api", "tasks", id, "drag"] => if id.isEmpty then none else some (drag id)
  | ["api", "undo"] => some undo
  | ["api", "redo"] => some redo
  | ["api", "outline", "edit"] => some edit
  | ["api", "parse"] => some parse
  | ["api", "cache", "status"] => some status
  | _ => none

/-- A task, whose path ends in its id. -/
def task? : List String → Option Resource
  | ["api", "tasks", id] => if id.isEmpty then none else some (task id)
  | _ => none

/-- What is known under a path. A line feed at its end belongs to an id, but not to a fixed part. -/
def ofPath? (path : List Char) : Option Resource :=
  (fixed? (segments (Outline.dropFinalBreak path))).or (task? (segments path))

/-- The path to which a request is sent on, if there is something without the slashes at the end.
It is taken for an address once more, which ends at a query or a fragment. -/
def sentOn? (path : List Char) : Option (List Char) :=
  let shorter := Text.dropTrailing (· == '/') path
  if path.getLast? = some '/' ∧ (ofPath? shorter).isSome then
    some (arrival (shorter.takeWhile (!Address.endsPath ·)))
  else none

/-- What a path leads to, sent on at most `fuel` times; the path gets shorter each time. -/
def find? : Nat → List Char → Option Resource
  | 0, _ => none
  | fuel + 1, path =>
    match ofPath? path, sentOn? path with
    | some r, _ => some r
    | none, some other => find? fuel other
    | none, none => none

/-- The methods of a resource, each with the way it comes from a body to a route. -/
def methods : Resource → List (String × (Body → Except BodyFault Route))
  | plan => [("GET", fun _ => .ok .plan)]
  | conflicts => [("GET", fun _ => .ok .conflicts)]
  | task id =>
    [("GET", fun _ => .ok (.task id)), ("PATCH", fun b => (b.check updateBody).map (.update id))]
  | dragPreview id => [("POST", fun b => (b.check dragBody).map (.dragPreview id))]
  | drag id => [("POST", fun b => (b.check dragBody).map (.drag id))]
  | undo => [("POST", fun _ => .ok .undo)]
  | redo => [("POST", fun _ => .ok .redo)]
  | edit => [("POST", fun b => (b.check editBody).map .edit)]
  | parse => [("POST", fun b => (b.check parseBody).map .parse)]
  | status => [("GET", fun _ => .ok .status)]

end Resource

/-! ## Answers -/

/-- The answer to a body with issues. It shows what was given, so what was given must have a place
in JSON. -/
def refuse (issues : List Issue) : Work HttpResponse := do
  if issues.any (·.given.hasOddNumber) then throw .unwritableNumber
  else if issues.any (·.given.hasBrokenText) then throw .unwritableText
  else return .invalid issues

/-- The answer to a request that nothing is done with. `HEAD` asks for no body. -/
def turnedAway (method : String) (status : Nat) (message : String) : HttpResponse :=
  if method = "HEAD" then .bare status else (detail status message).toResponse

/-- Answers a request from the web. -/
def serve (h : HttpRequest) : Work HttpResponse := do
  let method := h.method.toUpper
  let path ← requestedPath h.url
  match Resource.find? (path.length + 1) path with
  | none => return turnedAway method 404 "Not Found"
  | some resource =>
    match resource.methods.lookup method with
    | none => return turnedAway method 405 "Method Not Allowed"
    | some read =>
      match read h.body with
      | .ok route => return (← route.reply).toResponse
      | .error .unreadable =>
        return (detail 400 "There was an error parsing the body").toResponse
      | .error (.issues is) => refuse is

end Roadmap.Service

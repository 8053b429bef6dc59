/-!
# Paths

A path is shown in its plain form, without empty parts and without parts that stand for the
directory itself. Resolving it also takes back a part before each `..`.
-/

namespace Roadmap.Path

/-- The parts of a path that matter. -/
def parts (path : String) : List String :=
  (path.splitOn "/").filter fun part => part != "" && part != "."

def join (parts : List String) : String := "/".intercalate parts

/-- The parts with each `..` undone; one with nothing before it is dropped. -/
def undone (seen : List String) : List String → List String
  | [] => seen.reverse
  | ".." :: rest => undone seen.tail rest
  | part :: rest => undone (part :: seen) rest

/-- The plain form of a path. -/
def plain (path : String) : String :=
  let body := join (parts path)
  if path.startsWith "/" then "/" ++ body
  else if body.isEmpty then "." else body

/-- The plain form of the path of the directory right above. -/
def above (path : String) : String :=
  let body := join (parts path).dropLast
  plain (if path.startsWith "/" then "/" ++ body else body)

/-- The path inside the directory that it starts from. -/
def resolved (path : String) : String := join (undone [] (parts path))

end Roadmap.Path

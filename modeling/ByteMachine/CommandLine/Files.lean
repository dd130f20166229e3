import ByteMachine.Input

/-! Files by path. A program asks for the content under a path; what answers may be a directory
given by the list of its files, where a path is followed component by component. Lengths are limited
as a system limits them, in bytes of UTF-8. -/

namespace ByteMachine.CommandLine

/-- What is read under a path. -/
abbrev Files := String → Except ReadError Bytes

/-- A directory: the files below it by their path, and empty directories by a path with a slash at
its end. -/
abbrev Directory := List (String × Bytes)

namespace Directory

/-- How many bytes a path may have. -/
def longestPath : Nat := 4095

/-- How many bytes a component may have. -/
def longestName : Nat := 255

/-- What stands at a place. -/
inductive Node
  | file (content : Bytes)
  | folder
  | absent

/-- What stands where the given components lead. The directories above can be named but not looked
into. -/
def node (directory : Directory) (place : List String) : Node :=
  if place.all (· == "..") then .folder
  else
    let path := "/".intercalate place
    match directory.lookup path with
    | some content => .file content
    | none =>
      if directory.any fun entry => entry.1.startsWith (path ++ "/") then .folder else .absent

/-- The place that a component leads to. -/
def descend (place : List String) (component : String) : List String :=
  if component.isEmpty || component == "." then place
  else if component == ".." then
    if place.all (· == "..") then place ++ [component] else place.dropLast
  else place ++ [component]

/-- Follows components from a place; each must be taken from a directory, and there its length is
judged before it is looked up. -/
def follow (directory : Directory) (place : List String) : List String → Except ReadError Bytes
  | [] =>
    match directory.node place with
    | .file content => .ok content
    | .folder => .error .isDirectory
    | .absent => .error .notFound
  | component :: components =>
    match directory.node place with
    | .file _ => .error .notDirectory
    | .absent => .error .notFound
    | .folder =>
      if component.utf8ByteSize > longestName then .error .nameTooLong
      else directory.follow (descend place component) components

/-- The content under a path, which has a slash between components. One that starts with a slash
starts above the directory. A zero or too many bytes are found before any component is followed. -/
def files (directory : Directory) : Files := fun path =>
  if path.toList.contains '\x00' then .error .zeroInName
  else if path.utf8ByteSize > longestPath then .error .nameTooLong
  else
    let start := if path.startsWith "/" then [".."] else []
    directory.follow start ((path.toList.splitOnP (· == '/')).map String.ofList)

end Directory

end ByteMachine.CommandLine

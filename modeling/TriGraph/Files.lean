/-!
# Files

A file tree is a directory with files and directories by name, in which a path is followed part by part.
-/

namespace TriGraph

inductive FileTree where
  | file (bytes : ByteArray)
  | directory (entries : List (String × FileTree))

/-! ## Faults -/

inductive FileFault where
  | absent
  | notDirectory
  | isDirectory
  | nameTooLong
  | denied
  | nameWithNul
  | notText
  | other (message : String)

def FileFault.message : FileFault → String
  | .absent => "No such file or directory (os error 2)"
  | .notDirectory => "Not a directory (os error 20)"
  | .isDirectory => "Is a directory (os error 21)"
  | .nameTooLong => "File name too long (os error 36)"
  | .denied => "Permission denied (os error 13)"
  | .nameWithNul => "file name contained an unexpected NUL byte"
  | .notText => "stream did not contain valid UTF-8"
  | .other message => message

/-! ## Paths -/

def pathParts : List Char → List (List Char)
  | [] => [[]]
  | c :: cs =>
    if c = '/' then [] :: pathParts cs
    else
      match pathParts cs with
      | [] => [[c]]
      | p :: ps => (c :: p) :: ps

def fileName? (path : String) : Option (List Char) :=
  match ((pathParts path.toList).filter fun p => p ≠ [] && p ≠ ['.']).getLast? with
  | some ['.', '.'] => none
  | name => name

def extension? (path : String) : Option String :=
  (fileName? path).bind fun name =>
    let behind := (name.reverse.takeWhile (· ≠ '.')).reverse
    if behind.length + 1 < name.length then some (String.ofList behind) else none

/-! ## Reading -/

namespace FileTree

def longestName : Nat := 255

def longestPath : Nat := 4095

def child? (name : String) : List (String × FileTree) → Option FileTree
  | [] => none
  | (n, t) :: es => if n = name then some t else child? name es

/-- `above` holds the directories around the present one, innermost first. -/
def follow (above : List FileTree) (here : FileTree) : List (List Char) → Except FileFault FileTree
  | [] => .ok here
  | part :: parts =>
    match here with
    | .file _ => .error .notDirectory
    | .directory entries =>
      if part = [] || part = ['.'] then follow above here parts
      else if part = ['.', '.'] then
        match above with
        | outer :: above => follow above outer parts
        | [] => .error .absent
      else
        let name := String.ofList part
        if longestName < name.utf8ByteSize then .error .nameTooLong
        else
          match child? name entries with
          | some t => follow (here :: above) t parts
          | none => .error .absent

def find (path : String) (t : FileTree) : Except FileFault FileTree :=
  let cs := path.toList
  if cs.contains (Char.ofNat 0) then .error .nameWithNul
  else if longestPath < path.utf8ByteSize then .error .nameTooLong
  else if cs.isEmpty || cs.head? = some '/' then .error .absent
  else t.follow [] (pathParts cs)

def exists? (path : String) (t : FileTree) : Bool :=
  match t.find path with
  | .ok _ => true
  | .error _ => false

def read (path : String) (t : FileTree) : Except FileFault ByteArray :=
  match t.find path with
  | .ok (.file bytes) => .ok bytes
  | .ok (.directory _) => .error .isDirectory
  | .error e => .error e

/-! ## Building -/

mutual
def put (t : FileTree) (names : List (List Char)) (here : FileTree) : FileTree :=
  match names with
  | [] => t
  | name :: names =>
    match here with
    | .directory entries => .directory (putIn t (String.ofList name) names entries)
    | .file _ => .directory [(String.ofList name, put t names (.directory []))]
termination_by (names.length, 0, 1)
def putIn (t : FileTree) (name : String) (names : List (List Char)) :
    List (String × FileTree) → List (String × FileTree)
  | [] => [(name, put t names (.directory []))]
  | (n, u) :: es => if n = name then (n, put t names u) :: es else (n, u) :: putIn t name names es
termination_by es => (names.length, es.length + 1, 0)
end

def ofList (contents : List (String × FileTree)) : FileTree :=
  contents.foldl (fun here (path, t) =>
    put t ((pathParts path.toList).filter fun p => p ≠ [] && p ≠ ['.']) here) (.directory [])

end FileTree

end TriGraph

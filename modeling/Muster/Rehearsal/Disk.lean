import Muster.Config

/-! Files in memory, found by their paths. -/

namespace Muster.Rehearsal

/-- Files by the names that lead to them from the root, and the folder that other paths begin in. A
folder is where something is in it. -/
structure Disk where
  here : List String
  files : List (List String × Config.File)

namespace Disk

def walk (folder : List String) : List String → List String
  | [] => folder
  | part :: parts =>
    if part = "" ∨ part = "." then walk folder parts
    else if part = ".." then walk folder.dropLast parts
    else walk (folder ++ [part]) parts

def find (d : Disk) (path : String) : Config.File :=
  let names := walk (if path.startsWith "/" then [] else d.here) (path.splitOn "/")
  match d.files.lookup names with
  | some file => file
  | none =>
    if path.isEmpty then .missing
    else if names.isPrefixOf d.here || d.files.any (fun f => names.isPrefixOf f.1) then .directory
    else .missing

end Disk

end Muster.Rehearsal

/-! Configuration documents: tables of named values, written line by line. -/

namespace Muster

/-- What stands under a name. Numbers with a point and moments in time have no use beyond their kind.
A `table` was opened line by line: it is implicit if it was only passed through, and dotted if a name
with dots made it. An `inline` table is complete. -/
inductive Toml where
  | text (s : String)
  | whole (n : Int)
  | real
  | bool (b : Bool)
  | moment
  | array (items : List Toml)
  | inline (fields : List (String × Toml))
  | table (isImplicit isDotted : Bool) (fields : List (String × Toml))
  | tables (items : List (List (String × Toml)))
  deriving Inhabited

namespace Toml

abbrev Fields := List (String × Toml)

def replace (name : String) (value : Toml) (fields : Fields) : Fields :=
  fields.map fun f => if f.1 = name then (name, value) else f

/-- Goes down a path of names and changes the table at its end, about which `change` is told whether it
is dotted. Tables that are missing on the way are made. A name with dots does not lead into a table that
was opened otherwise. -/
def descend {α : Type} (byDots : Bool) (change : Bool → Fields → Option (Fields × α)) :
    List String → Bool → Fields → Option (Fields × α)
  | [], isDotted, fields => change isDotted fields
  | name :: path, _, fields =>
    match fields.lookup name with
    | none => do
      let (inner, a) ← descend byDots change path byDots []
      return (fields ++ [(name, .table true byDots inner)], a)
    | some (.table isImplicit isDotted inner) =>
      if byDots && !isImplicit then none
      else do
        let (inner, a) ← descend byDots change path isDotted inner
        return (replace name (.table isImplicit isDotted inner) fields, a)
    | some (.tables items) =>
      match items.getLast? with
      | none => none
      | some last => do
        let (last, a) ← descend byDots change path false last
        return (replace name (.tables (items.dropLast ++ [last])) fields, a)
    | some _ => none

/-- Puts a value under a name that may have dots. The name must be free, and a table is either made by
names with dots or not at all. -/
def insert (path : List String) (name : String) (value : Toml) (fields : Fields) : Option Fields :=
  (descend true (fun isDotted fields =>
    if isDotted == path.isEmpty || (fields.lookup name).isSome then none
    else some (fields ++ [(name, value)], ())) path false fields).map (·.1)

/-- A document that is being read: the tables that are complete, and the one that lines go into, with
where it belongs. -/
structure Draft where
  root : Fields := []
  path : List String := []
  isItem : Bool := false
  fields : Fields := []

namespace Draft

def close (d : Draft) : Option Fields :=
  match d.path.getLast? with
  | none => some d.fields
  | some name =>
    (descend false (fun _ siblings =>
      match siblings.lookup name with
      | none =>
        some (siblings ++ [(name, if d.isItem then .tables [d.fields]
          else .table false false d.fields)], ())
      | some (.tables items) =>
        if d.isItem then some (replace name (.tables (items ++ [d.fields])) siblings, ()) else none
      | some _ => none) d.path.dropLast false d.root).map (·.1)

/-- Opens a table. It may have been passed through before, but not opened. -/
def openTable (d : Draft) (path : List String) : Option Draft := do
  let root ← d.close
  let name ← path.getLast?
  let (root, fields) ← descend false (fun _ siblings =>
    match siblings.lookup name with
    | none => some (siblings, [])
    | some (.table true false inner) => some (siblings.filter fun f => f.1 != name, inner)
    | some _ => none) path.dropLast false root
  return { root, path, fields }

def openItem (d : Draft) (path : List String) : Option Draft := do
  let root ← d.close
  let name ← path.getLast?
  let (root, _) ← descend false (fun _ siblings =>
    match siblings.lookup name with
    | none => some (siblings, ())
    | some (.tables _) => some (siblings, ())
    | some _ => none) path.dropLast false root
  return { root, path, isItem := true }

end Draft

end Toml

end Muster

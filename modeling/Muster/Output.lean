import Muster.Json.Printer
import Muster.Text.Blank

/-! The results of a command as they are written when all tasks have ended. -/

namespace Muster

structure DetailRow where
  key : String
  title : String
  value : String
  deriving DecidableEq, Repr

structure Details where
  title : String
  rows : List DetailRow
  deriving DecidableEq, Repr

structure Column where
  key : String
  header : String
  deriving DecidableEq, Repr

/-- Many resources, one a row. A row may have more or fewer cells than there are columns. -/
structure Table where
  columns : List Column
  rows : List (List String)
  deriving DecidableEq, Repr

inductive Format where
  | human
  | json
  deriving DecidableEq, Repr, Inhabited

def Format.name : Format → String
  | .human => "human"
  | .json => "json"

def Format.named? : String → Option Format
  | "human" => some .human
  | "json" => some .json
  | _ => none

/-- The result of one task. A value is for machines only, a failure has been shown to people already. -/
inductive Output where
  | none
  | details (d : Details)
  | table (t : Table)
  | value (j : Json)
  | error (arg resolved message : String)
  deriving Inhabited

def Details.toJson (d : Details) : Json :=
  .ofFields (d.rows.map fun r => (r.key, .string r.value))

def Details.lines (d : Details) : List (List Char) :=
  let width := (d.rows.map fun r => r.title.length).foldl max 0
  (if d.title.isEmpty then [] else [' ' :: ' ' :: d.title.toList]) ++
    d.rows.map fun r =>
      let label := r.title.toList ++ [':']
      List.replicate 4 ' ' ++ label ++ List.replicate (width + 1 - label.length) ' ' ++
        ' ' :: r.value.toList

namespace Table

/-- A row as an object of strings; a column without a cell is left out. -/
def rowJson (t : Table) (row : List String) : Json :=
  .ofFields ((t.columns.zip row).map fun (c, cell) => (c.key, .string cell))

def toJson (t : Table) : Json := .array (t.rows.map t.rowJson)

def widen : List Nat → List (List Char) → List Nat
  | w :: ws, c :: cs => max w c.length :: widen ws cs
  | ws, _ => ws

def cells (t : Table) : List (List (List Char)) :=
  t.columns.map (·.header.toList) :: t.rows.map fun r => r.map String.toList

def widths (t : Table) : List Nat :=
  (t.rows.map fun r => r.map String.toList).foldl widen (t.columns.map fun c => c.header.length)

def spread : List Nat → List (List Char) → List Char
  | w :: ws, c :: cs =>
    let padded := c ++ List.replicate (w - c.length) ' '
    match ws, cs with
    | _ :: _, _ :: _ => padded ++ ' ' :: ' ' :: spread ws cs
    | _, _ => padded
  | _, _ => []

def line (widths : List Nat) (cells : List (List Char)) : List Char :=
  ' ' :: Text.trimRight (spread widths cells)

def lines (t : Table) : List (List Char) := t.cells.map (line t.widths)

end Table

namespace Output

def isError : Output → Bool
  | .error .. => true
  | _ => false

def toJson? : Output → Option Json
  | .none => Option.none
  | .details d => some d.toJson
  | .table t => some t.toJson
  | .value j => some j
  | .error arg resolved message =>
    some (.ofFields [("argument", .string arg), ("resolved", .string resolved),
      ("error", .string message)])

def lines? : Output → Option (List (List Char))
  | .details d => some d.lines
  | .table t => some t.lines
  | _ => Option.none

def unlines (ls : List (List Char)) : List Char := ls.flatMap (· ++ ['\n'])

/-- The results for machines: nothing, one value, or an array of them. -/
def renderJson (outputs : List Output) : String :=
  match outputs.filterMap toJson? with
  | [] => ""
  | [j] => j.pretty ++ "\n"
  | js => (Json.array js).pretty ++ "\n"

def renderHuman (outputs : List Output) : String :=
  String.ofList (['\n'].intercalate ((outputs.filterMap lines?).map unlines))

def render (f : Format) (outputs : List Output) : String :=
  match f with
  | .human => renderHuman outputs
  | .json => renderJson outputs

end Output

end Muster

import Muster.Progress.Style
import Muster.Progress.Writer
import Muster.Text.Layout

/-! A log of the progress of many tasks. Lines of tasks that ended are written once, and stay. In a live
log the lines of the other tasks follow them, and each rendering takes these back and writes them
anew. -/

namespace Muster.Progress

/-- How a log is written. Width zero stands for that of the terminal. -/
structure Config where
  width : Nat := 0
  showPending : Bool := true
  appendOnly : Bool := true
  palette : Palette := .colours
  deriving DecidableEq, Repr, Inhabited

def leastColumns : Nat := 20

def defaultColumns : Nat := 100

def Config.lineWidth (c : Config) (columns : Nat) : Nat :=
  if c.width = 0 then max columns leastColumns else c.width

/-- The numbers of the entries in each list of a log; the lines that the last rendering wrote for
entries that had not ended; and the width it had. -/
structure Log where
  pending : List Nat := []
  inProgress : List Nat := []
  done : List Nat := []
  height : Nat := 0
  lastWidth : Nat := 0
  deriving DecidableEq, Repr, Inhabited

def writeElapsed (ms : Nat) : String :=
  toString (ms / 1000 / 60) ++ "m" ++ toString (ms / 1000 % 60) ++ "s"

def Entry.elapsed (e : Entry) (now : Nat) : String :=
  match e.stage.since? with
  | none => ""
  | some since => writeElapsed (now - since)

def Entry.line (e : Entry) (palette : Palette) (width now : Nat) : String :=
  let elapsed := e.elapsed now
  let message := String.ofList (Text.fit e.message.toList (width - (1 + elapsed.length)))
  let painted := match e.stage with
    | .running _ => palette.paintBold e.stage.colour message
    | _ => palette.paint e.stage.colour message
  painted ++ palette.paint elapsedColour elapsed ++ "\n"

def Entry.detailParts (e : Entry) (palette : Palette) (width : Nat) : List String :=
  if e.details.isEmpty then []
  else (Text.paragraph e.details.toList e.lead.toList width).map fun l =>
    palette.paint detailsColour (String.ofList l) ++ "\n"

def Entry.finalParts (e : Entry) (palette : Palette) (width now : Nat) : List String :=
  e.line palette width now :: e.detailParts palette width

/-- What stays of an entry that ended. -/
def Entry.finalLines (e : Entry) (palette : Palette) (width now : Nat) : String :=
  "".intercalate (e.finalParts palette width now)

namespace Log

def add (log : Log) (ids : List Nat) : Log := { log with pending := log.pending ++ ids }

/-- How many rows the lines of the last rendering take: a line of another width is counted as if it
flowed on. -/
def rows (log : Log) (width : Nat) : Nat :=
  if 0 < log.lastWidth ∧ log.lastWidth ≠ width then
    (log.height * log.lastWidth + (width - 1)) / width
  else log.height

def takeBackParts (rows : Nat) : List String := "\r" :: List.replicate rows eraseLine

def takeBack (rows : Nat) : String := "".intercalate (takeBackParts rows)

def shift (entries : List Entry) (log : Log) : Log :=
  let entry (i : Nat) := entries.getD i default
  { log with
    inProgress := (log.inProgress.filter fun i => !(entry i).isDone) ++
      log.pending.filter fun i => (entry i).isStarted
    pending := log.pending.filter fun i => !(entry i).isStarted }

def shown (c : Config) (entries : List Entry) (log : Log) : List Nat :=
  (log.inProgress.filter fun i => !(entries.getD i default).isDone) ++
    if c.showPending then log.pending else []

section Render

variable {ω : Type} (w : Writer ω) (c : Config)

/-- Writes what stays of the entries with the given numbers, each of which is done once it is
written. -/
def settleTo (width now : Nat) (entries : List Entry) : List Nat → Log → ω → Log × ω × Bool
  | [], log, out => (log, out, true)
  | i :: is, log, out =>
    match w.writeAll ((entries.getD i default).finalParts c.palette width now) out with
    | (out, false) => (log, out, false)
    | (out, true) => settleTo width now entries is { log with done := log.done ++ [i] } out

/-- Renders the log to a place of any kind. Tells whether everything could be written; if not, what was
done up to that point stays. -/
def renderTo (columns now : Nat) (entries : List Entry) (log : Log) (out : ω) : Log × ω × Bool :=
  let width := c.lineWidth columns
  match if c.appendOnly then (out, true) else w.writeAll (takeBackParts (log.rows width)) out with
  | (out, false) => (log, out, false)
  | (out, true) =>
    let ended := log.inProgress.filter fun i => (entries.getD i default).isDone
    match settleTo w c width now entries ended log out with
    | (log, out, false) => (log, out, false)
    | (log, out, true) =>
      let log := log.shift entries
      if c.appendOnly then
        let (out, flushed) := w.flush out
        (log, out, flushed)
      else
        let ids := log.shown c entries
        let lines := ids.map fun i => (entries.getD i default).line c.palette width now
        match w.writeAll lines out with
        | (out, false) => (log, out, false)
        | (out, true) =>
          match w.flush out with
          | (out, false) => (log, out, false)
          | (out, true) => ({ log with height := ids.length, lastWidth := width }, out, true)

def render (columns now : Nat) (entries : List Entry) (log : Log) (sink : Sink) :
    Log × Sink × Bool :=
  log.renderTo Sink.writer c columns now entries sink

end Render

end Log

end Muster.Progress

import Muster.Action.Run
import Muster.Client
import Muster.CommandLine.Help
import Muster.Dispatch

/-! A whole run: from the words of a command line to an exit code and what is written. -/

namespace Muster

/-- What a run finds where it takes place: variables, files, how many bytes of output there is room for,
if that is limited, and interrupts. -/
structure Surroundings where
  env : String → Option String
  file : String → Config.File
  room? : Option Nat := none
  interrupts : Interrupts := {}

structure Transcript where
  code : Nat
  output : String := ""
  messages : String := ""
  deriving DecidableEq, Repr

namespace Surroundings

def configFolderVariable : String := "XDG_CONFIG_HOME"

def homeVariable : String := "HOME"

def noColorVariable : String := "NO_COLOR"

/-- The folder for configurations: the one that is named, if it is named from the root on, or the usual
one. -/
def configFolder? (place : Surroundings) : Option String :=
  ((place.env configFolderVariable).filter fun folder => folder.toList.head? == some '/').or
    ((place.env homeVariable).map (· ++ "/.config"))

def farPath? (place : Surroundings) : Option String :=
  place.configFolder?.map fun folder => folder ++ "/" ++ programName ++ "/" ++ Config.fileName

def nearFile (place : Surroundings) : Config.File := place.file Config.fileName

def farFile (place : Surroundings) : Config.File :=
  match place.farPath? with
  | some path => place.file path
  | none => .missing

def palette (place : Surroundings) (color : Bool) : Progress.Palette :=
  if !color then .plain
  else if ((place.env noColorVariable).getD "").isEmpty then .colours
  else .muted

def failureLine (place : Surroundings) (color : Bool) (message : String) : String :=
  (place.palette color).paintBold Progress.failureColour "error:" ++ " " ++ message ++ "\n"

end Surroundings

def Config.prefer (c : Config) (g : CommandLine.Given) : Config :=
  { c with
    api := { c.api with timeout := (g.timeout?.map (max 1)).getD c.api.timeout }
    report :=
      { color := c.report.color && !g.noColor
        format := g.format?.getD c.report.format } }

namespace Session

def refusedCode : Nat := 2

def crashCode : Nat := 101

def configure (place : Surroundings) (g : CommandLine.Given) : Except ConfigError Config := do
  let loaded ← Config.load (g.config?.map place.file) place.nearFile place.farFile place.env
  let config := loaded.prefer g
  config.requireCredentials
  return config

/-- The lines of progress are a hundred columns wide, and none is taken back. -/
def display (place : Surroundings) (c : Config) : Display where
  config :=
    { width := 0, showPending := true, appendOnly := true, palette := place.palette c.report.color }
  columns := 100
  sink := {}

def progress {σ : Type} (c : Config) (q : Queue σ Outcome) : String :=
  match c.report.format with
  | .human => q.display.sink.text
  | .json => ""

def report {σ : Type} (place : Surroundings) (c : Config) (results : List TaskResult)
    (q : Queue σ Outcome) : Transcript :=
  let isInterrupted := place.interrupts.flagAt q.world.now || Dispatch.wasInterrupted results
  let output := Output.render c.report.format (results.map TaskResult.output)
  match Progress.Sink.write ⟨"", place.room?⟩ output with
  | (sink, true) =>
    { code := if isInterrupted then Dispatch.interruptedCode else Dispatch.exitCode results
      output := sink.text
      messages := progress c q }
  | (sink, false) =>
    { code := Dispatch.errorCode
      output := sink.text
      messages := progress c q ++ place.failureLine c.report.color
        "cannot write output: No space left on device (os error 28)" }

def carryOut {σ : Type} (place : Surroundings) (peer : Http.Peer σ) (c : Config)
    (i : CommandLine.Invocation) (s : σ) : Transcript × σ :=
  let command := i.action.command (c.waitPolicy place.interrupts)
  match Dispatch.run (Client.backend c.api peer) command i.args { state := s } (display place c) with
  | .crashed w => ({ code := crashCode }, w.state)
  | .aborted e w =>
    ({ code := Dispatch.errorCode, messages := place.failureLine c.report.color e.message }, w.state)
  | .finished results q => (report place c results q, q.world.state)

def run {σ : Type} (place : Surroundings) (peer : Http.Peer σ) (words : List String) (s : σ) :
    Transcript × σ :=
  match CommandLine.parse words with
  | .error r =>
    (if r.isAnswer then
      { code := 0, output := (Progress.Sink.write ⟨"", place.room?⟩ r.text).1.text }
    else { code := refusedCode, messages := r.text }, s)
  | .ok i =>
    match configure place i.given with
    | .error e =>
      ({ code := Dispatch.errorCode,
         messages := place.failureLine (!i.given.noColor) e.message }, s)
    | .ok c => carryOut place peer c i s

end Session

end Muster

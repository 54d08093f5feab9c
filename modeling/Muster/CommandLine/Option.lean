import Muster.Action
import Muster.Text.Digits

/-! The options of the command line, and what was given for them. -/

namespace Muster.CommandLine

/-- What a command line is refused for, or answered with instead of running a command. -/
inductive Refusal where
  | help (words : List String) (isFull : Bool)
  | version
  /-- Nothing at all was given where a subcommand must follow. -/
  | nothingGiven
  | missingSubcommand
  | unknownSubcommand
  | missingArgument
  | unknownArgument
  | tooManyValues
  | repeatedOption
  | badValue
  | badNumber
  deriving DecidableEq, Repr

namespace Refusal

def behind (word : String) : Refusal → Refusal
  | .help words isFull => .help (word :: words) isFull
  | r => r

def inBrief : Refusal → Refusal
  | .help words _ => .help words false
  | r => r

def isAnswer : Refusal → Bool
  | .help .. => true
  | .version => true
  | _ => false

end Refusal

inductive Opt where
  | config
  | output
  | noColor
  | debug
  | timeout
  | help
  | version
  | waits (state : String)
  | stopType
  | withStorages
  deriving DecidableEq, Repr

namespace Opt

def long : Opt → String
  | .config => "config"
  | .output => "output"
  | .noColor => "no-color"
  | .debug => "debug"
  | .timeout => "client-timeout"
  | .help => "help"
  | .version => "version"
  | .waits _ => "wait"
  | .stopType => "type"
  | .withStorages => "delete-storages"

def short? : Opt → Option Char
  | .config => some 'c'
  | .output => some 'o'
  | .timeout => some 't'
  | .help => some 'h'
  | .version => some 'V'
  | _ => none

def hasValue : Opt → Bool
  | .config | .output | .timeout | .stopType => true
  | _ => false

def everywhere : List Opt := [.config, .output, .noColor, .debug, .timeout, .help]

end Opt

structure Given where
  config? : Option String := none
  format? : Option Format := none
  timeout? : Option Nat := none
  noColor : Bool := false
  debug : Bool := false
  stopType? : Option StopType := none
  waits : Bool := false
  withStorages : Bool := false
  deriving DecidableEq, Repr, Inhabited

namespace Given

/-- Takes note of the value of an option, of which there must be none yet. -/
def setValue (g : Given) (o : Opt) (value : String) : Except Refusal Given :=
  match o with
  | .config =>
    if g.config?.isSome then .error .repeatedOption else .ok { g with config? := some value }
  | .output =>
    if g.format?.isSome then .error .repeatedOption
    else match Format.named? value with
      | some f => .ok { g with format? := some f }
      | none => .error .badValue
  | .timeout =>
    if g.timeout?.isSome then .error .repeatedOption
    else match Text.count? value.toList with
      | some n => .ok { g with timeout? := some n }
      | none => .error .badNumber
  | .stopType =>
    if g.stopType?.isSome then .error .repeatedOption
    else match StopType.named? value with
      | some t => .ok { g with stopType? := some t }
      | none => .error .badValue
  | _ => .error .tooManyValues

def setFlag (g : Given) (o : Opt) : Except Refusal Given :=
  match o with
  | .noColor => if g.noColor then .error .repeatedOption else .ok { g with noColor := true }
  | .debug => if g.debug then .error .repeatedOption else .ok { g with debug := true }
  | .waits _ => if g.waits then .error .repeatedOption else .ok { g with waits := true }
  | .withStorages =>
    if g.withStorages then .error .repeatedOption else .ok { g with withStorages := true }
  | .help => .error (.help [] true)
  | .version => .error .version
  | _ => .error .badValue

def isEmpty (g : Given) : Bool := g == {}

/-- What was given behind a subcommand, and before it where nothing was given behind it. -/
def inherit (inner outer : Given) : Given :=
  { inner with
    config? := inner.config? <|> outer.config?
    format? := inner.format? <|> outer.format?
    timeout? := inner.timeout? <|> outer.timeout?
    noColor := inner.noColor || outer.noColor
    debug := inner.debug || outer.debug }

end Given

end Muster.CommandLine

import Muster.About
import Muster.CommandLine

/-! Help on the command line: what may be written at a level, in brief or in full. -/

namespace Muster.CommandLine

namespace Opt

def about (hasFullHelp isFull : Bool) : Opt → String
  | .config =>
    "Path to config file (default: ./cloudctl.toml or ~/.config/cloudctl/cloudctl.toml)"
  | .output => "Output format for the final result"
  | .noColor => "Disable color output"
  | .debug => "Log debug diagnostics to stderr"
  | .timeout => "API request timeout in seconds"
  | .help =>
    if !hasFullHelp then "Print help"
    else if isFull then "Print help (see a summary with '-h')"
    else "Print help (see more with '--help')"
  | .version => "Print version"
  | .waits state => "Wait until each server reports `" ++ state ++ "`"
  | .stopType => "Shutdown type"
  | .withStorages => "Also delete attached storages"

def placeholder? : Opt → Option String
  | .config => some "CONFIG"
  | .output => some "OUTPUT"
  | .timeout => some "SECONDS"
  | .stopType => some "STOP_TYPE"
  | _ => none

def notes (isFull : Bool) : Opt → List String
  | .output => ["[possible values: human, json]"]
  | .stopType =>
    if isFull then ["[default: soft]"] else ["[default: soft]", "[possible values: soft, hard]"]
  | _ => []

def values : Opt → List (String × String)
  | .stopType =>
    [("soft", "Ask the guest OS to shut down cleanly"), ("hard", "Cut power immediately")]
  | _ => []

def usage (o : Opt) : String :=
  (match o.short? with
    | some c => String.ofList ['-', c] ++ ", "
    | none => "    ") ++ "--" ++ o.long ++
    match o.placeholder? with
    | some value => " <" ++ value ++ ">"
    | none => ""

def inTurn {α : Type} : List α → List α → List α
  | a :: as, b :: bs => a :: b :: inTurn as bs
  | as, [] => as
  | [], bs => bs

/-- The options of a level in the order of help: those that may stand anywhere, in turn with its own. -/
def arrange (isRoot : Bool) (own : List Opt) : List Opt :=
  inTurn [.config, .output, .noColor, .debug, .timeout] own ++
    if isRoot then [.help, .version] else [.help]

end Opt

namespace Help

def pad (width : Nat) (text : String) : String :=
  text ++ String.ofList (List.replicate (width - text.length) ' ')

def margin : String := String.ofList (List.replicate 10 ' ')

def brief (width : Nat) (entry : String × List String) : String :=
  "  " ++ pad width entry.1 ++ "  " ++ " ".intercalate entry.2

def full (usage : String) (paragraphs : List String) : String :=
  "  " ++ usage ++ "\n" ++ margin ++ ("\n" ++ margin ++ "\n" ++ margin).intercalate paragraphs

def valueList (values : List (String × String)) : String :=
  if values.isEmpty then ""
  else "\n\n" ++ margin ++ "Possible values:" ++
    String.join (values.map fun v => "\n" ++ margin ++ "- " ++ v.1 ++ ": " ++ v.2)

def section? (title : String) (separator : String) (entries : List String) : Option String :=
  if entries.isEmpty then none else some (title ++ ":\n" ++ separator.intercalate entries)

def commands (children : List (String × Level)) : List String :=
  let entries := children.map fun c => (c.1, [c.2.about])
  let entries := entries ++
    [("help", ["Print this message or the help of the given subcommand(s)"])]
  entries.map (brief ((entries.map fun e => e.1.length).foldl max 0))

def options (hasFullHelp isFull : Bool) (os : List Opt) : List String :=
  if isFull then
    os.map fun o =>
      full o.usage (o.about hasFullHelp isFull :: o.notes isFull) ++ valueList o.values
  else
    let entries := os.map fun o => (o.usage, o.about hasFullHelp isFull :: o.notes isFull)
    entries.map (brief ((entries.map fun e => e.1.length).foldl max 0))

end Help

namespace Level

def find? : Level → List String → Option Level
  | l, [] => some l
  | l, word :: words => (l.child? word).bind fun child => find? child words

def ownOptions : Level → List Opt
  | .group .. => []
  | .action _ own _ _ => own

def usage : Level → String
  | .group .. => " <COMMAND>"
  | .action _ _ none _ => ""
  | .action _ _ (some argument) _ => " <" ++ argument ++ ">..."

def sections (isRoot isFull : Bool) (l : Level) : List String :=
  let hasFullHelp := l.ownOptions.any fun o => !o.values.isEmpty
  let isFull := isFull && hasFullHelp
  let children := match l with
    | .group _ children => Help.commands children
    | .action .. => []
  let arguments := match l with
    | .action _ _ (some argument) _ =>
      let usage := "<" ++ argument ++ ">..."
      [if isFull then Help.full usage [""] else Help.brief usage.length (usage, [""])]
    | _ => []
  let separator := if isFull then "\n\n" else "\n"
  let options :=
    Help.options hasFullHelp isFull (Opt.arrange isRoot l.ownOptions)
  [Help.section? "Commands" "\n" children, Help.section? "Arguments" separator arguments,
    Help.section? "Options" separator options].filterMap id

def page (l : Level) (words : List String) (isFull : Bool) : String :=
  let usage := "Usage: " ++ " ".intercalate (programName :: words ++ ["[OPTIONS]"]) ++ l.usage
  ("\n\n").intercalate (l.about :: usage :: l.sections words.isEmpty isFull) ++ "\n"

end Level

def helpOnHelp (words : List String) : String :=
  "Print this message or the help of the given subcommand(s)\n\nUsage: " ++
    " ".intercalate (programName :: words) ++
    " [COMMAND]...\n\nArguments:\n  [COMMAND]...  Print help for the subcommand(s)\n"

def Refusal.text : Refusal → String
  | .help words isFull =>
    match Level.root.find? words with
    | some l => l.page words isFull
    | none => helpOnHelp words
  | .version => programName ++ " " ++ programVersion ++ "\n"
  | .nothingGiven => "nothing to do: a subcommand is missing\n"
  | .missingSubcommand => "error: a subcommand is missing\n"
  | .unknownSubcommand => "error: there is no such subcommand\n"
  | .missingArgument => "error: at least one argument is required\n"
  | .unknownArgument => "error: unexpected argument\n"
  | .tooManyValues => "error: unexpected value for an option\n"
  | .repeatedOption => "error: an option cannot be used twice\n"
  | .badValue => "error: an option lacks its value, or does not know the one given\n"
  | .badNumber => "error: the value of an option is not a number\n"

end Muster.CommandLine

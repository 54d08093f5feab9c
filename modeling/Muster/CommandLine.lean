import Muster.CommandLine.Option

/-! Reading command lines: subcommands, options before and behind them, and arguments. -/

namespace Muster.CommandLine

inductive Level where
  | group (about : String) (children : List (String × Level))
  | action (about : String) (options : List Opt) (argument? : Option String) (make : Given → Action)

namespace Level

def plain (about : String) (a : Action) : Level := .action about [] none fun _ => a

def onAny (about : String) (k : Kind) (a : Action) : Level :=
  .action about [] (some k.placeholder) fun _ => a

def account : Level := .group "Inspect the authenticated account"
  [("show", plain "Show username and remaining credits" .accountShow)]

def server : Level := .group "Manage servers"
  [("list", plain "List all servers" .serverList),
    ("show", onAny "Show server details" .server .serverShow),
    ("start", .action "Start servers" [.waits Server.started] (some Kind.server.placeholder)
      fun g => .serverStart g.waits),
    ("stop", .action "Stop servers" [.stopType, .waits Server.stopped]
      (some Kind.server.placeholder) fun g => .serverStop (g.stopType?.getD .soft) g.waits),
    ("delete", .action "Delete servers" [.withStorages] (some Kind.server.placeholder)
      fun g => .serverDelete g.withStorages)]

def network : Level := .group "Inspect networks"
  [("list", plain "List all networks" .networkList),
    ("show", onAny "Show network details" .network .networkShow)]

def storage : Level := .group "Manage storages"
  [("list", plain "List all storages" .storageList),
    ("show", onAny "Show storage details" .storage .storageShow),
    ("delete", onAny "Delete storages" .storage .storageDelete)]

def root : Level := .group "Operate on remote servers, networks and storages, many at a time"
  [("account", account), ("server", server), ("network", network), ("storage", storage)]

def child? : Level → String → Option Level
  | .group _ children, name => children.lookup name
  | .action .., _ => none

/-- The options of a level; only the first one knows the version. -/
def options (isRoot : Bool) : Level → List Opt
  | .group .. => Opt.everywhere ++ if isRoot then [.version] else []
  | .action _ own _ _ => Opt.everywhere ++ own

def about : Level → String
  | .group about _ => about
  | .action about _ _ _ => about

def takesArguments : Level → Bool
  | .group .. => false
  | .action _ _ argument? _ => argument?.isSome

def help : Level → List String → Refusal
  | _, [] => .help [] true
  | l, word :: words =>
    match l.child? word with
    | some child => (child.help words).behind word
    | none =>
      if word = "help" ∧ words.isEmpty ∧ l matches .group .. then .help [word] true
      else .unknownSubcommand

end Level

structure Invocation where
  given : Given
  action : Action
  args : List String
  deriving Repr

/-- What has been read at one level: the options with their values; an option whose value follows or
has just been read; and arguments. -/
structure Reading where
  given : Given := {}
  open? : Option (Opt × Option String) := none
  args : List String := []

namespace Reading

def close (r : Reading) : Except Refusal Reading :=
  match r.open? with
  | none => .ok r
  | some (_, none) => .error .badValue
  | some (o, some value) => do
    let given ← r.given.setValue o value
    return { r with given, open? := none }

def option (r : Reading) (o : Opt) (attached? : Option String) : Except Refusal Reading := do
  match o.hasValue, attached? with
  | true, some value => return { r with given := ← (← r.close).given.setValue o value, open? := none }
  | true, none => return { ← r.close with open? := some (o, none) }
  | false, some _ => .error .tooManyValues
  | false, none => return { r with given := ← (← r.close).given.setFlag o, open? := none }

def argument (r : Reading) (arg : String) : Except Refusal Reading := do
  let r ← r.close
  return { r with args := r.args ++ [arg] }

def finish (r : Reading) (l : Level) : Except Refusal Invocation := do
  let r ← r.close
  match l with
  | .group .. => .error (if r.given.isEmpty then .nothingGiven else .missingSubcommand)
  | .action _ _ argument? make =>
    if argument?.isSome && r.args.isEmpty then .error .missingArgument
    else return ⟨r.given, make r.given, r.args⟩

end Reading

inductive Word where
  | escape
  | long (name : List Char) (attached? : Option String)
  | short (letter : Char) (rest : List Char)
  | plain

/-- A word as it begins. A dash alone is plain. -/
def Word.of : List Char → Word
  | ['-', '-'] => .escape
  | '-' :: '-' :: cs =>
    match cs.dropWhile (· != '=') with
    | [] => .long cs none
    | _ :: value => .long (cs.takeWhile (· != '=')) (some (String.ofList value))
  | '-' :: c :: cs => .short c cs
  | _ => .plain

def attached? : List Char → Option String
  | [] => none
  | '=' :: cs => some (String.ofList cs)
  | cs => some (String.ofList cs)

def readArguments (l : Level) (r : Reading) : List String → Except Refusal Invocation
  | [] => r.finish l
  | word :: words => do
    if l.takesArguments then readArguments l (← r.argument word) words
    else match l with
      | .group .. =>
        .error (if word == "help" || (l.child? word).isSome then .unknownArgument
          else .unknownSubcommand)
      | .action .. => .error .unknownArgument

/-- What a word does: it leads to the next level, it says that only arguments follow, or it belongs to
this level. -/
inductive Turn where
  | down (child : Level)
  | arguments
  | on (r : Reading)

def readOption (isRoot : Bool) (l : Level) (r : Reading) (is : Opt → Bool)
    (attached? : Opt → Option String) : Except Refusal Turn :=
  match (l.options isRoot).find? is with
  | some o => .on <$> r.option o (attached? o)
  | none => .error .unknownArgument

def readPlain (l : Level) (r : Reading) (word : String) : Except Refusal Turn :=
  match r.open? with
  | some (o, none) => .ok (.on { r with open? := some (o, some word) })
  | _ =>
    match l with
    | .group .. => .error .unknownSubcommand
    | .action .. =>
      if l.takesArguments then .on <$> r.argument word else .error .unknownArgument

/-- Reads a word, with the words behind it in case that help on them is asked for. An option that still
needs its value takes even the name of a subcommand. -/
def readWord (isRoot : Bool) (l : Level) (r : Reading) (word : String) (words : List String) :
    Except Refusal Turn :=
  let free := match r.open? with
    | some (_, none) => false
    | _ => true
  match if free then l.child? word else none with
  | some child => .ok (.down child)
  | none =>
    if free ∧ word = "help" ∧ l matches .group .. then .error (l.help words)
    else match Word.of word.toList with
      | .escape => .ok .arguments
      | .long name attached? =>
        readOption isRoot l r (fun o => o.long.toList == name) fun _ => attached?
      | .short letter rest =>
        (readOption isRoot l r (fun o => o.short? == some letter) fun o =>
          if o.hasValue then attached? rest else none).mapError Refusal.inBrief
      | .plain => readPlain l r word

/-- Reads the words from the given level on. The value of an option in front of a subcommand is looked
at last. -/
def read (isRoot : Bool) (l : Level) (r : Reading) : List String → Except Refusal Invocation
  | [] => r.finish l
  | word :: words => do
    match ← readWord isRoot l r word words with
    | .down child =>
      let inner ← (read false child {} words).mapError (Refusal.behind word)
      let outer ← r.close
      return { inner with given := inner.given.inherit outer.given }
    | .arguments => readArguments l r words
    | .on r => read isRoot l r words

def parse (words : List String) : Except Refusal Invocation := read true Level.root {} words

end Muster.CommandLine

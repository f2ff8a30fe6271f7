import Gazetteer.Registry.Content

/-!
# Arguments

The arguments name a command.  Options for all commands may stand on either side of it; where both sides give one,
the later counts.  An option takes its value from the same argument or from the next, and letters of short options
may share one argument.
-/

namespace Gazetteer.CommandLine

set_option autoImplicit false

/-- Options without a value. -/
inductive Switch
  | verbose
  | strict
  | help
  deriving Repr, DecidableEq

/-- Options with a value. -/
inductive Setting
  | root
  | manifestDir
  | exclude
  | only
  deriving Repr, DecidableEq

/-- What an option is. -/
inductive Choice
  | switch (s : Switch)
  | setting (s : Setting)
  deriving Repr, DecidableEq

/-- How a switch is written. -/
def Switch.display : Switch → String
  | .verbose => "--verbose"
  | .strict => "--strict"
  | .help => "--help"

/-- How a setting is written. -/
def Setting.display : Setting → String
  | .root => "--root <ROOT>"
  | .manifestDir => "--manifest-dir <MANIFEST_DIR>"
  | .exclude => "--exclude <EXCLUDE>"
  | .only => "--only <ONLY>"

/-- The commands. -/
inductive Verb
  | status
  | update
  | create
  | version
  deriving Repr, DecidableEq

/-- The command of a name. -/
def Verb.ofName? (name : String) : Option Verb :=
  if name = "status" then some .status
  else if name = "update" || name = "refresh" then some .update
  else if name = "create" then some .create
  else if name = "version" then some .version
  else none

/-- What is wrong with the arguments. -/
inductive UsageError
  | unknownCommand (name : String)
  | noCommand
  | unexpected (argument : String)
  | noValue (s : Setting)
  | needlessValue (value : String) (s : Switch)
  | badValue (value : String) (s : Setting) (reason : String)
  | repeatedSetting (s : Setting)
  | repeatedSwitch (s : Switch)
  deriving Repr, DecidableEq

/-- How the error reads. -/
def UsageError.message : UsageError → String
  | .unknownCommand name => s!"unrecognized subcommand '{name}'"
  | .noCommand => "'cartograph' requires a subcommand but one was not provided"
  | .unexpected argument => s!"unexpected argument '{argument}' found"
  | .noValue s => s!"a value is required for '{s.display}' but none was supplied"
  | .needlessValue value s =>
      s!"unexpected value '{value}' for '{s.display}' found; no more were expected"
  | .badValue value s reason => s!"invalid value '{value}' for '{s.display}': {reason}"
  | .repeatedSetting s => s!"the argument '{s.display}' cannot be used multiple times"
  | .repeatedSwitch s => s!"the argument '{s.display}' cannot be used multiple times"

/-- Why arguments lead to no command. -/
inductive Refusal
  | wrong (e : UsageError)
  /-- Help was asked for. -/
  | help
  /-- Nothing was given, which is answered with help. -/
  | empty
  deriving Repr, DecidableEq

/-- What options on one side of the command give. -/
structure Options where
  verbose : Bool := false
  strict : Bool := false
  root : Option String := none
  manifestDir : Option String := none
  exclude : List String := []
  only : List Kind := []
  deriving Repr, DecidableEq

namespace Options

/-- Turn a switch on. -/
def turnOn (o : Options) : Switch → Except Refusal Options
  | .verbose =>
      if o.verbose then .error (.wrong (.repeatedSwitch .verbose)) else .ok { o with verbose := true }
  | .strict =>
      if o.strict then .error (.wrong (.repeatedSwitch .strict)) else .ok { o with strict := true }
  | .help => .error .help

/-- A path as the value of a setting that can be given once. -/
def pathOnce (s : Setting) (before : Option String) (value : String) : Except Refusal String :=
  if before.isSome then .error (.wrong (.repeatedSetting s))
  else if value = "" then .error (.wrong (.noValue s))
  else .ok value

/-- A kind of manifest as a value of `only`. -/
def kindOf (value : String) : Except Refusal Kind :=
  (Kind.parse value).mapError fun reason => .wrong (.badValue value .only reason)

/-- Enter the value of a setting, if it has one. -/
def enter (o : Options) (s : Setting) : Option String → Except Refusal Options
  | none => .error (.wrong (.noValue s))
  | some value =>
      match s with
      | .root => do return { o with root := some (← pathOnce .root o.root value) }
      | .manifestDir => do
          return { o with manifestDir := some (← pathOnce .manifestDir o.manifestDir value) }
      | .exclude => .ok { o with exclude := o.exclude ++ [value] }
      | .only => do
          let names := (Text.splitBy (· = ',') value.toList).map String.ofList
          return { o with only := o.only ++ (← names.mapM kindOf) }

/-- Whether no option was given. -/
def isEmpty (o : Options) : Bool := o = {}

/-- Options before and behind the command taken together. -/
def behind (before after : Options) : Options :=
  { verbose := before.verbose || after.verbose
    strict := before.strict || after.strict
    root := after.root.or before.root
    manifestDir := after.manifestDir.or before.manifestDir
    exclude := if after.exclude.isEmpty then before.exclude else after.exclude
    only := after.only }

end Options

/-- Options read so far, and a setting that is not entered yet. -/
structure Reading where
  options : Options := {}
  /-- The last setting, with its value once that has come. -/
  pending : Option (Setting × Option String) := none

namespace Reading

/-- Whether the next argument may be the value of a setting. -/
def wantsValue (r : Reading) : Bool :=
  match r.pending with
  | some (_, none) => true
  | _ => false

/-- The options with the pending setting entered. -/
def settled (r : Reading) : Except Refusal Options :=
  match r.pending with
  | some (s, value) => r.options.enter s value
  | none => .ok r.options

/-- Turn a switch on. -/
def turnOn (r : Reading) (s : Switch) : Except Refusal Reading := do
  return ⟨← (← r.settled).turnOn s, none⟩

/-- Go on to a setting: its value is attached to it, or may be the next argument. -/
def start (r : Reading) (s : Setting) : Option String → Except Refusal Reading
  | some value => do return ⟨← (← r.settled).enter s (some value), none⟩
  | none => do return ⟨← r.settled, some (s, none)⟩

/-- A long option; `known` tells the options that may stand here. -/
def long (known : String → Option Choice) (r : Reading) (text : List Char) : Except Refusal Reading :=
  let (name, value) := match Text.cutAt? (· = '=') text with
    | some (name, value) => (String.ofList name, some (String.ofList value))
    | none => (String.ofList text, none)
  match known name with
  | none => .error (.wrong (.unexpected ("--" ++ name)))
  | some (.setting s) => r.start s value
  | some (.switch s) =>
      match value with
      | some value => .error (.wrong (.needlessValue value s))
      | none => r.turnOn s

/-- The option of a letter. -/
def ofLetter : Char → Option Choice
  | 'v' => some (.switch .verbose)
  | 'h' => some (.switch .help)
  | 'r' => some (.setting .root)
  | 'e' => some (.setting .exclude)
  | _ => none

/-- Short options that share an argument. What follows a setting is its value, from which a leading `=` is cut. -/
def short (r : Reading) : List Char → Except Refusal Reading
  | [] => .ok r
  | c :: cs =>
      match ofLetter c with
      | none => .error (.wrong (.unexpected (String.ofList ['-', c])))
      | some (.switch s) => do (← r.turnOn s).short cs
      | some (.setting s) =>
          match cs with
          | [] => r.start s none
          | '=' :: value => r.start s (some (String.ofList value))
          | value => r.start s (some (String.ofList value))

end Reading

/-- The long options of all commands. -/
def commonOption : String → Option Choice
  | "verbose" => some (.switch .verbose)
  | "strict" => some (.switch .strict)
  | "help" => some (.switch .help)
  | "root" => some (.setting .root)
  | "manifest-dir" => some (.setting .manifestDir)
  | "exclude" => some (.setting .exclude)
  | _ => none

/-- The long options behind a command. -/
def optionOf (v : Verb) (name : String) : Option Choice :=
  if v = .update && name = "only" then some (.setting .only) else commonOption name

/-- The argument after which all others are no options. -/
def stop : String := "--"

/-- Whether an argument is a long option. -/
def long? (a : String) : Option (List Char) :=
  match a.toList with
  | '-' :: '-' :: cs => some cs
  | _ => none

/-- Whether an argument holds short options. -/
def short? (a : String) : Option (List Char) :=
  match a.toList with
  | '-' :: c :: cs => if c = '-' then none else some (c :: cs)
  | _ => none

/-- What an argument is among others that are no command. -/
def readOption (known : String → Option Choice) (r : Reading) (a : String) :
    Except Refusal (Option Reading) :=
  match long? a, short? a with
  | some text, _ => (r.long known text).map some
  | none, some letters => (r.short letters).map some
  | none, none =>
      match r.pending with
      | some (s, none) => .ok (some { r with pending := some (s, some a) })
      | _ => .ok none

/-- The options behind a command. -/
def readBehind (v : Verb) (r : Reading) : List String → Except Refusal Options
  | [] => r.settled
  | a :: rest =>
      if a = stop then
        match rest with
        | [] => r.settled
        | b :: _ => .error (.wrong (.unexpected b))
      else do
        match ← readOption (optionOf v) r a with
        | some r => readBehind v r rest
        | none => .error (.wrong (.unexpected a))

/-- What to say to an argument in the place of a command that is behind `--`. -/
def refuseBehindStop (a : String) : UsageError :=
  if (Verb.ofName? a).isSome || a = "help" then .unexpected a else .unknownCommand a

/-- What to say when the arguments end without a command. -/
def refuseEnd (r : Reading) : Refusal :=
  match r.settled with
  | .error e => e
  | .ok o => if o.isEmpty then .empty else .wrong .noCommand

/-- The answer to a call for help on a command. -/
def refuseHelp : List String → Refusal
  | a :: _ => if (Verb.ofName? a).isSome || a = "help" then .help else .wrong (.unknownCommand a)
  | [] => .help

/-- A command with its options. -/
structure Command where
  verb : Verb
  options : Options
  deriving Repr, DecidableEq

/-- The command and the options on both sides of it. -/
def readCommand (r : Reading) : List String → Except Refusal Command
  | [] => .error (refuseEnd r)
  | a :: rest =>
      match (if r.wantsValue then none else Verb.ofName? a) with
      | some v => do
          let after ← readBehind v {} rest
          return ⟨v, (← r.settled).behind after⟩
      | none =>
          if a = "help" && !r.wantsValue then .error (refuseHelp rest)
          else if a = stop then
            match rest with
            | [] => .error (refuseEnd r)
            | b :: _ => .error (.wrong (refuseBehindStop b))
          else do
            match ← readOption commonOption r a with
            | some r => readCommand r rest
            | none => .error (.wrong (.unknownCommand a))

/-- Read the arguments. -/
def parse (arguments : List String) : Except Refusal Command := readCommand {} arguments

end Gazetteer.CommandLine

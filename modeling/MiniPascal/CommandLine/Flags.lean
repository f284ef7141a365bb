import MiniPascal.CommandLine.Numbers
import MiniPascal.Demo
import MiniPascal.Text.Quoted

/-! # Flags

A command line starts with flags, each a minus sign or two, a name, and perhaps a value after an
equals sign or in the next argument. The flags end at the first argument that is none, or behind two
minus signs alone.
-/

namespace MiniPascal

/-- What the flags say. -/
structure Settings where
  check : Bool := false
  demo : Text := []
  dump : Text := []
  echo : Bool := false
  jobs : Int64 := 4
  n : Int64 := 10
  quote : Text := "'"
  stepLimit : Int64 := 0
  /-- Nanoseconds. -/
  timeout : Int := 0
  tokens : Bool := false
  trace : Bool := false

/-- How the value of a flag is written and where it goes. -/
inductive FlagKind where
  | switch (set : Settings → Bool → Settings)
  | text (set : Settings → Text → Settings)
  | integer (set : Settings → Int64 → Settings)
  | duration (set : Settings → Int → Settings)

/-- A flag with its explanation and the default that the explanation mentions. -/
structure Flag where
  name : String
  kind : FlagKind
  explanation : String
  shownDefault : Option Text := none

def flags : List Flag :=
  [ { name := "check", kind := .switch fun s check => { s with check }
      explanation := "only compile each named file, reporting the verdicts" },
    { name := "demo", kind := .text fun s demo => { s with demo }
      explanation := "run a built in quad program instead of compiling: " ++
        String.intercalate ", " (Demo.programs.map (·.1)) },
    { name := "dump", kind := .text fun s dump => { s with dump }
      explanation := "write symbol, quad, and reserved word tables into this directory" },
    { name := "echo", kind := .switch fun s echo => { s with echo }
      explanation := "echo numbered source lines" },
    { name := "jobs", kind := .integer fun s jobs => { s with jobs }
      explanation := "how many files -check compiles at once"
      shownDefault := some (.ofInt 4) },
    { name := "n", kind := .integer fun s n => { s with n }
      explanation := "argument of the -demo program"
      shownDefault := some (.ofInt 10) },
    { name := "quote", kind := .text fun s quote => { s with quote }
      explanation := "character that delimits text literals"
      shownDefault := some (Text.quoted "'") },
    { name := "step-limit", kind := .integer fun s stepLimit => { s with stepLimit }
      explanation := "fault after executing this many quads" },
    { name := "timeout", kind := .duration fun s timeout => { s with timeout }
      explanation := "specify a time limit" },
    { name := "tokens", kind := .switch fun s tokens => { s with tokens }
      explanation := "print every scanned token" },
    { name := "trace", kind := .switch fun s trace => { s with trace }
      explanation := "enable parser and interpreter trace logging" } ]

/-- The word for a flag's value in the usage text. -/
def FlagKind.valueWord : FlagKind → Text
  | switch _ => []
  | text _ => " string"
  | integer _ => " int"
  | duration _ => " duration"

def Flag.usage (flag : Flag) : Text :=
  .join ["  -", flag.name, flag.kind.valueWord, "\n    \t", flag.explanation,
    (match flag.shownDefault with
      | some shown => .join [" (default ", shown, ")"]
      | none => []), "\n"]

def usageText (program : Text) : Text :=
  .join ["usage: ", program, " [flags] program.pas\n",
    "       ", program, " -check [flags] a.pas b.pas ...\n", .join (flags.map Flag.usage)]

/-- Why the flags cannot be used. -/
inductive FlagError where
  /-- The usage text was asked for. -/
  | help
  | badSyntax (argument : Text)
  | undefined (name : Text)
  | valueMissing (name : Text)
  | badSwitch (name value : Text)
  | badValue (name value : Text) (error : NumberError)

def NumberError.reason : NumberError → Text
  | malformed => "parse error"
  | outOfRange => "value out of range"

def FlagError.message? : FlagError → Option Text
  | help => none
  | badSyntax argument => some (.join ["bad flag syntax: ", argument])
  | undefined name => some (.join ["flag provided but not defined: -", name])
  | valueMissing name => some (.join ["flag needs an argument: -", name])
  | badSwitch name value =>
    some (.join ["invalid boolean value ", value.quoted, " for -", name, ": ",
      NumberError.malformed.reason])
  | badValue name value error =>
    some (.join ["invalid value ", value.quoted, " for flag -", name, ": ", error.reason])

def readSwitch? (value : Text) : Option Bool :=
  if value ∈ (["1", "t", "T", "TRUE", "true", "True"] : List Text) then some true
  else if value ∈ (["0", "f", "F", "FALSE", "false", "False"] : List Text) then some false
  else none

def Flag.apply (flag : Flag) (settings : Settings) (value : Text) : Except FlagError Settings :=
  match flag.kind with
  | .switch set =>
    match readSwitch? value with
    | some on => .ok (set settings on)
    | none => .error (.badSwitch flag.name value)
  | .text set => .ok (set settings value)
  | .integer set =>
    match readInteger (value.chars) with
    | .ok n => .ok (set settings n)
    | .error error => .error (.badValue flag.name value error)
  | .duration set =>
    match readDuration? (value.chars) with
    | some d => .ok (set settings d)
    | none => .error (.badValue flag.name value .malformed)

/-- The name of a flag, and its value if there is an equals sign behind the first character. -/
def splitValue (text : Text) : Text × Option Text :=
  let name := text.take 1 ++ (text.drop 1).takeWhile (· ≠ .char '=')
  match (text.drop 1).dropWhile (· ≠ .char '=') with
  | [] => (name, none)
  | _ :: value => (name, some value)

/-- What an argument is, as the flags are read. -/
inductive FlagArgument where
  /-- No flag: the flags are over. -/
  | operand
  /-- Two minus signs alone: the flags are over, and this argument is used up. -/
  | stop
  | flag (name : Text) (value : Option Text)
  | bad

def FlagArgument.of (argument : Text) : FlagArgument :=
  match argument with
  | .char '-' :: .char '-' :: [] => .stop
  | .char '-' :: first :: rest =>
    let text := if first = .char '-' then rest else first :: rest
    match text.head? with
    | none => .bad
    | some glyph =>
      if glyph = .char '-' ∨ glyph = .char '=' then .bad
      else
        let (name, value) := splitValue text
        .flag name value
  | _ => .operand

/-- Reads the flags; says what they set and which arguments follow them. -/
def readFlags : Settings → List Text → Except FlagError (Settings × List Text)
  | settings, [] => .ok (settings, [])
  | settings, argument :: rest =>
    match FlagArgument.of argument with
    | .operand => .ok (settings, argument :: rest)
    | .stop => .ok (settings, rest)
    | .bad => .error (.badSyntax argument)
    | .flag name value =>
      match flags.find? fun flag => Text.ofString flag.name = name with
      | none =>
        if name = Text.ofString "help" ∨ name = Text.ofString "h" then .error .help
        else .error (.undefined name)
      | some flag =>
        match flag.kind, value, rest with
        | .switch _, value, rest =>
          match flag.apply settings (value.getD "true") with
          | .ok settings => readFlags settings rest
          | .error error => .error error
        | _, some value, rest =>
          match flag.apply settings value with
          | .ok settings => readFlags settings rest
          | .error error => .error error
        | _, none, value :: rest =>
          match flag.apply settings value with
          | .ok settings => readFlags settings rest
          | .error error => .error error
        | _, none, [] => .error (.valueMissing name)

end MiniPascal

/-
# The command line

One argument is the address of what to render; the others are options, which may
stand anywhere before a `--`.  An option takes its value from the rest of its argument
or from the next one, which then must not look like an option itself.  Options of one
letter can be put together.  No option may be given twice.

Source: `main.Cli` and `main.MAX_DEPTH`, with the rules of the argument parser that `Cli`
is declared for.
-/

namespace DocTree

/-- What the user asks for. -/
structure Options where
  /-- The address of what to render. -/
  input : String
  /-- The module that labels begin with. -/
  module? : Option String := none
  /-- The depth of the outermost headings. -/
  depth : Nat := 1
  /-- Where to write the document, if not to the standard output. -/
  output? : Option String := none
  /-- Whether to write it on one line. -/
  compact : Bool := false
  /-- Whether to say what is being done. -/
  verbose : Bool := false
  deriving Repr, DecidableEq, Inhabited

namespace CommandLine

/-- An option with a value. -/
inductive Setting where
  | module
  | depth
  | output
  deriving Repr, DecidableEq, Inhabited

/-- An option without a value. -/
inductive Switch where
  | compact
  | verbose
  | help
  deriving Repr, DecidableEq, Inhabited

/-- Why a command line is not understood. -/
inductive Misuse where
  | unknownOption (option : String)
  | repeated (option : String)
  | missingValue (setting : Setting)
  | unexpectedValue (switch : Switch)
  | badDepth (value : String)
  | emptyOutput
  | surplusInput (argument : String)
  | missingInput
  deriving Repr, DecidableEq, Inhabited

/-- Why reading the command line stops. -/
inductive Stop where
  /-- The user asks for help. -/
  | help
  /-- The arguments make no sense. -/
  | misuse (misuse : Misuse)
  deriving Repr, DecidableEq, Inhabited

/-- The long name of a setting. -/
def Setting.name : Setting → String
  | module => "module"
  | depth => "depth"
  | output => "output"

/-- The long name of a switch. -/
def Switch.name : Switch → String
  | compact => "compact"
  | verbose => "verbose"
  | help => "help"

/-- The error as a message. -/
def Misuse.message : Misuse → String
  | unknownOption option => "unknown option " ++ option
  | repeated option => "--" ++ option ++ " is given twice"
  | missingValue setting => "--" ++ setting.name ++ " needs a value"
  | unexpectedValue switch => "--" ++ switch.name ++ " takes no value"
  | badDepth value => value ++ " is not a depth from 1 to 64"
  | emptyOutput => "--output needs a path"
  | surplusInput argument => "surplus argument " ++ argument
  | missingInput => "no input is given"

/-- The option with a long name. -/
def long? (name : String) : Option (Setting ⊕ Switch) :=
  (([.module, .depth, .output] : List Setting).find? (·.name = name)).map .inl
    |>.or ((([.compact, .verbose, .help] : List Switch).find? (·.name = name)).map .inr)

/-- The option with a short name. -/
def short? : Char → Option (Setting ⊕ Switch)
  | 'm' => some (.inl .module)
  | 'd' => some (.inl .depth)
  | 'o' => some (.inl .output)
  | 'v' => some (.inr .verbose)
  | 'h' => some (.inr .help)
  | _ => none

/-- The greatest depth that can be asked for. -/
def maxDepth : Nat := 64

/-- The depth that a value spells in decimal digits, after a plus sign or without one. -/
def depth? (value : String) : Option Nat :=
  let digits := match value.toList with
    | '+' :: digits => digits
    | digits => digits
  if !digits.isEmpty && digits.all Char.isDigit then
    let depth := Nat.ofDigitChars 10 digits 0
    if 1 ≤ depth ∧ depth ≤ maxDepth then some depth else none
  else none

/-- What is known when some of the arguments are read. -/
structure Progress where
  input? : Option String := none
  module? : Option String := none
  depth? : Option Nat := none
  output? : Option String := none
  compact : Bool := false
  verbose : Bool := false
  /-- The setting whose value is the next argument. -/
  awaiting? : Option Setting := none
  /-- Whether there can be no more options. -/
  optionsEnded : Bool := false
  deriving Repr, DecidableEq, Inhabited

namespace Progress

/-- Goes on with `next` unless the option was given before. -/
def once (given : Bool) (option : String) (next : Progress) : Except Stop Progress :=
  if given then .error (.misuse (.repeated option)) else .ok next

/-- Takes the value of a setting. -/
def set (p : Progress) (setting : Setting) (value : String) : Except Stop Progress :=
  let p := { p with awaiting? := none }
  match setting with
  | .module => once p.module?.isSome setting.name { p with module? := some value }
  | .depth => match CommandLine.depth? value with
    | some depth => once p.depth?.isSome setting.name { p with depth? := some depth }
    | none => .error (.misuse (.badDepth value))
  | .output =>
    if value = "" then .error (.misuse .emptyOutput)
    else once p.output?.isSome setting.name { p with output? := some value }

/-- Takes a switch. -/
def turnOn (p : Progress) (switch : Switch) : Except Stop Progress :=
  match switch with
  | .help => .error .help
  | .compact => once p.compact switch.name { p with compact := true }
  | .verbose => once p.verbose switch.name { p with verbose := true }

/-- Takes an argument that is not an option. -/
def takeInput (p : Progress) (argument : String) : Except Stop Progress :=
  if p.input?.isSome then .error (.misuse (.surplusInput argument))
  else .ok { p with input? := some argument }

/-- Takes an option by its long name, with the value that is attached to it. -/
def takeLong (p : Progress) (name : List Char) (value? : Option (List Char)) :
    Except Stop Progress :=
  match long? (String.ofList name), value? with
  | none, _ => .error (.misuse (.unknownOption ("--" ++ String.ofList name)))
  | some (.inl setting), some value => p.set setting (String.ofList value)
  | some (.inl setting), none => .ok { p with awaiting? := some setting }
  | some (.inr switch), some _ => .error (.misuse (.unexpectedValue switch))
  | some (.inr switch), none => p.turnOn switch

/-- Takes options by their short names.  What follows the name of a setting is its value,
but for one equals sign between them. -/
def takeShort (p : Progress) : List Char → Except Stop Progress
  | [] => .ok p
  | c :: cs => match short? c with
    | none => .error (.misuse (.unknownOption (String.ofList ['-', c])))
    | some (.inr switch) => do (← p.turnOn switch).takeShort cs
    | some (.inl setting) => match cs with
      | [] => .ok { p with awaiting? := some setting }
      | '=' :: value => p.set setting (String.ofList value)
      | value => p.set setting (String.ofList value)

/-- Takes an argument. -/
def take (p : Progress) (argument : String) : Except Stop Progress :=
  if p.optionsEnded then p.takeInput argument
  else match p.awaiting?, argument.toList with
    | some setting, '-' :: _ :: _ => .error (.misuse (.missingValue setting))
    | some setting, _ => p.set setting argument
    | none, ['-', '-'] => .ok { p with optionsEnded := true }
    | none, '-' :: '-' :: option =>
      p.takeLong (option.takeWhile (· ≠ '=')) (option.dropWhile (· ≠ '=')).tail?
    | none, '-' :: c :: cs => p.takeShort (c :: cs)
    | none, _ => p.takeInput argument

/-- The options when all arguments are read. -/
def finish (p : Progress) : Except Stop Options :=
  match p.awaiting?, p.input? with
  | some setting, _ => .error (.misuse (.missingValue setting))
  | none, none => .error (.misuse .missingInput)
  | none, some input => .ok {
      input, module? := p.module?, depth := p.depth?.getD 1, output? := p.output?,
      compact := p.compact, verbose := p.verbose }

end Progress

/-- The options that a list of arguments spells. -/
def parse (arguments : List String) : Except Stop Options := do
  (← arguments.foldlM Progress.take {}).finish

/-- What the program says of itself. -/
def helpText : String :=
  "Render docstring records into a document tree\n\n" ++
  "Usage: doctree [OPTIONS] <INPUT>\n\n" ++
  "Arguments:\n" ++
  "  <INPUT>  Record file, optionally followed by #submodule or #submodule.function\n\n" ++
  "Options:\n" ++
  "  -m, --module <MODULE>  Module that the labels begin with\n" ++
  "  -d, --depth <DEPTH>    Depth of the outermost headings, 1 to 64 [default: 1]\n" ++
  "  -o, --output <OUTPUT>  Write the tree here instead of to the standard output\n" ++
  "      --compact          Write the tree on one line\n" ++
  "  -v, --verbose          Say what is being done\n" ++
  "  -h, --help             Print help\n"

end CommandLine
end DocTree

/-!
# `ControllerTypes.CommandLine.Arguments`: what a command line asks for

The program has one command, `types`. Options may stand before and after the files, an option that
takes a value may have it attached or behind it, and behind `--` everything is a file. No option may
be given twice, except that `--verbose` may also stand once in front of the command.

Arguments are read from left to right, and the first one that is wrong, or asks for help, decides.

`Options` and `Request` are the `Cli` of `ackgen` and its `Commands`; `Request.ofArguments?` answers
nothing where the program shows how it is used and exits with 2.
-/

set_option autoImplicit false

namespace ControllerTypes.CommandLine

/-- What the command `types` is asked to do. -/
structure Options where
  /-- The files named as input. -/
  files : List String := []
  /-- The version of the generated API. -/
  version : Option String := none
  /-- The directory to write into. -/
  output : Option String := none
  /-- The file with the settings. -/
  config : Option String := none
  verbose : Bool := false
  deriving Repr

/-- What a command line asks for. -/
inductive Request where
  /-- The version of the program. -/
  | version
  /-- How to use the program. -/
  | help
  | types (options : Options)
  deriving Repr

/-- An option that takes a value. -/
inductive Setting where
  | version
  | output
  | config
  deriving DecidableEq, Repr

namespace Setting

/-- The option of a word behind two dashes. -/
def ofWord? : String → Option Setting
  | "version" => some version
  | "output" => some output
  | "config" => some config
  | _ => none

/-- The option of a letter behind one dash. -/
def ofLetter? : Char → Option Setting
  | 'v' => some version
  | 'o' => some output
  | 'c' => some config
  | _ => none

/-- The options with a value for this one. It must not have one already, and a path is not empty. -/
def give? (s : Setting) (value : String) (o : Options) : Option Options :=
  match s with
  | version => if o.version.isSome then none else some { o with version := some value }
  | output =>
    if o.output.isSome || value == "" then none else some { o with output := some value }
  | config =>
    if o.config.isSome || value == "" then none else some { o with config := some value }

end Setting

/-- An argument of its own. -/
inductive Argument where
  /-- Two dashes alone. -/
  | separator
  /-- A word behind two dashes, with a value if an equals sign follows. -/
  | long (word : String) (value : Option String)
  /-- Letters behind one dash. -/
  | short (letter : Char) (rest : List Char)
  | plain (text : String)

/-- How an argument is to be read. A lone dash is an ordinary text. -/
def Argument.ofString (argument : String) : Argument :=
  match argument.toList with
  | ['-', '-'] => separator
  | '-' :: '-' :: word =>
    let name := String.ofList (word.takeWhile (· != '='))
    match word.dropWhile (· != '=') with
    | '=' :: value => long name (some (String.ofList value))
    | _ => long name none
  | '-' :: letter :: rest => short letter rest
  | _ => plain argument

/-- The argument can be the value of the option in front of it. -/
def isValue (argument : String) : Bool :=
  match Argument.ofString argument with
  | .plain _ => true
  | _ => false

/-- The options with one more file. -/
def addFile? (o : Options) (file : String) : Option Options :=
  if file == "" then none else some { o with files := o.files ++ [file] }

/-- The value attached to a letter. -/
def attached (rest : List Char) : String :=
  match rest with
  | '=' :: value => String.ofList value
  | value => String.ofList value

/-- The arguments of the command. The option `pending` still needs its value, and `verbose` says
that `--verbose` stood among the arguments before. -/
def readOptions (o : Options) (verbose : Bool) (pending : Option Setting) :
    List String → Option Request
  | [] =>
    if pending.isSome then none else some (.types { o with verbose := o.verbose || verbose })
  | argument :: rest =>
    match pending with
    | some setting =>
      if isValue argument then
        (setting.give? argument o).bind fun o => readOptions o verbose none rest
      else none
    | none =>
      match Argument.ofString argument with
      | .separator =>
        (rest.foldlM addFile? o).map fun o => .types { o with verbose := o.verbose || verbose }
      | .plain file => (addFile? o file).bind fun o => readOptions o verbose none rest
      | .long "help" none => some .help
      | .long "verbose" none => if verbose then none else readOptions o true none rest
      | .long word none =>
        (Setting.ofWord? word).bind fun setting => readOptions o verbose (some setting) rest
      | .long word (some value) =>
        (Setting.ofWord? word).bind fun setting =>
          (setting.give? value o).bind fun o => readOptions o verbose none rest
      | .short 'h' _ => some .help
      | .short letter [] =>
        (Setting.ofLetter? letter).bind fun setting => readOptions o verbose (some setting) rest
      | .short letter value =>
        (Setting.ofLetter? letter).bind fun setting =>
          (setting.give? (attached value) o).bind fun o => readOptions o verbose none rest

/-- The arguments in front of the command. -/
def readCommand (verbose : Bool) : List String → Option Request
  | [] => none
  | argument :: rest =>
    match Argument.ofString argument with
    | .plain "types" => readOptions { verbose } false none rest
    | .plain "help" => if rest.isEmpty || rest == ["types"] then some .help else none
    | .long "help" none => some .help
    | .short 'h' _ => some .help
    | .long "version" none => some .version
    | .short 'V' _ => some .version
    | .long "verbose" none => if verbose then none else readCommand true rest
    | _ => none

/-- What the arguments ask for, if they can be read. -/
def Request.ofArguments? (arguments : List String) : Option Request := readCommand false arguments

end ControllerTypes.CommandLine

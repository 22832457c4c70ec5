import ArchChange.Text.Blank
/-!
The arguments of the program: a command and its options. An option takes the next argument, or
what follows an equals sign, as its value; a flag takes none. Whether an option has a value, and
whether it is repeated, is seen when the next option or the end is reached; what is not an
argument of the command at all is refused at once.
-/
namespace ArchChange.Command

/-- A command with what it needs. Paths are as written. -/
inductive Invocation where
  | schema (out : Option String)
  | config (out : Option String)
  | normalize (plan : String) (out : Option String)
  | validate (plan model : String) (scope : Option (List String)) (json : Bool)
      (config : Option String)
  | preview (plan model : String) (json : Bool) (config : Option String)
  | apply (plan model : String) (out : Option String) (continueOnError noAutoConnect json : Bool)
      (config : Option String)
deriving DecidableEq, Repr

/-- Why arguments yield no command. -/
inductive Usage where
  | help
  | version
  | helpOnMissing
  | invalidSubcommand
  | missingRequired
  | unknownArgument
  | conflict
  | invalidValue
  | tooManyValues
deriving DecidableEq, Repr

/-- Whether the program was only asked to show something. -/
def Usage.isRequest : Usage → Bool
  | help | version => true
  | _ => false

inductive CommandName where
  | schema
  | config
  | normalize
  | validate
  | preview
  | apply
deriving DecidableEq, Repr

/-- Options with a value. -/
inductive OptionName where
  | plan
  | model
  | out
  | scope
  | config
deriving DecidableEq, Repr

/-- Options without a value. -/
inductive FlagName where
  | json
  | continueOnError
  | noAutoConnect
deriving DecidableEq, Repr

namespace CommandName

def all : List CommandName := [.schema, .config, .normalize, .validate, .preview, .apply]

def word : CommandName → String
  | schema => "schema"
  | config => "config"
  | normalize => "normalize"
  | validate => "validate"
  | preview => "preview"
  | apply => "apply"

def ofWord? (s : String) : Option CommandName :=
  all.find? fun c => c.word == s

/-- The options of a command. -/
def options : CommandName → List OptionName
  | schema | config => [.out]
  | normalize => [.plan, .out]
  | validate => [.plan, .model, .scope, .config]
  | preview => [.plan, .model, .config]
  | apply => [.plan, .model, .out, .config]

/-- The options that a command cannot do without. -/
def required : CommandName → List OptionName
  | schema | config => []
  | normalize => [.plan]
  | validate | preview | apply => [.plan, .model]

def flags : CommandName → List FlagName
  | schema | config | normalize => []
  | validate | preview => [.json]
  | apply => [.continueOnError, .noAutoConnect, .json]

end CommandName

namespace OptionName

def word : OptionName → String
  | plan => "plan"
  | model => "model"
  | out => "out"
  | scope => "scope"
  | config => "config"

/-- Whether the values of repeated options are put together. -/
def repeats (o : OptionName) : Bool :=
  o == .scope

/-- Whether an empty text is a value. -/
def allowsEmpty (o : OptionName) : Bool :=
  o == .scope

end OptionName

def FlagName.word : FlagName → String
  | json => "json"
  | continueOnError => "continue-on-error"
  | noAutoConnect => "no-auto-connect"

/-- An argument by its form. -/
inductive Token where
  | separator
  | long (name : String) (value : Option String)
  | short (letters : String)
  | plain (text : String)
deriving DecidableEq, Repr

/-- Splits a text at the first equals sign. -/
def splitEquals : List Char → List Char × Option (List Char)
  | [] => ([], none)
  | c :: s => if c = '=' then ([], some s) else ((c :: (splitEquals s).1), (splitEquals s).2)

def Token.ofText (s : String) : Token :=
  match s.toList with
  | ['-', '-'] => .separator
  | '-' :: '-' :: rest =>
    let (name, value) := splitEquals rest
    .long (String.ofList name) (value.map String.ofList)
  | '-' :: c :: rest => .short (String.ofList (c :: rest))
  | _ => .plain s

/-- The arguments of a command read so far. -/
structure Reading where
  /-- The option that was read last and the value that followed it, if one did. -/
  pending : Option (OptionName × Option String)
  options : List (OptionName × String)
  flags : List FlagName
  /-- Whether a separator has been read, after which there are no options. -/
  trailing : Bool
deriving DecidableEq, Repr

namespace Reading

def start : Reading :=
  ⟨none, [], [], false⟩

/-- Takes an option with its value. -/
def take (r : Reading) (o : OptionName) (value : Option String) : Except Usage Reading :=
  match value with
  | none => .error .invalidValue
  | some v =>
    if !o.repeats && (r.options.lookup o).isSome then .error .conflict
    else if v.isEmpty && !o.allowsEmpty then .error .invalidValue
    else .ok { r with options := r.options ++ [(o, v)] }

/-- Takes the option that was read last. -/
def settle (r : Reading) : Except Usage Reading :=
  match r.pending with
  | none => .ok r
  | some (o, value) => { r with pending := none }.take o value

/-- Takes a flag. -/
def takeFlag (r : Reading) (f : FlagName) : Except Usage Reading := do
  let r ← r.settle
  if r.flags.contains f then .error .conflict else .ok { r with flags := f :: r.flags }

/-- What asking for help comes to. -/
def help (r : Reading) : Except Usage Reading := do
  let _ ← r.settle
  .error .help

/-- Reads an argument of a command. -/
def step (command : CommandName) (r : Reading) (token : Token) : Except Usage Reading :=
  if r.trailing then .error .unknownArgument
  else
    match token with
    | .separator => .ok { r with trailing := true }
    | .long name value =>
      match command.options.find? fun o => o.word == name with
      | some o => do
        let r ← r.settle
        match value with
        | some v => r.take o (some v)
        | none => .ok { r with pending := some (o, none) }
      | none =>
        match command.flags.find? fun f => f.word == name, value with
        | some _, some _ => .error .tooManyValues
        | some f, none => r.takeFlag f
        | none, some _ => .error (if name = "help" then .tooManyValues else .unknownArgument)
        | none, none => if name = "help" then r.help else .error .unknownArgument
    | .short letters =>
      if letters.toList.head? = some 'h' then r.help else .error .unknownArgument
    | .plain text =>
      match r.pending with
      | some (o, none) => .ok { r with pending := some (o, some text) }
      | _ => .error .unknownArgument

/-- The value of an option that is given at most once. -/
def value? (r : Reading) (o : OptionName) : Option String :=
  r.options.lookup o

/-- The ids in all scope options, none if there is no such option. -/
def scope? (r : Reading) : Option (List String) :=
  match r.options.filter fun o => o.1 == .scope with
  | [] => none
  | given => some (given.flatMap fun o => (Text.pieces ',' o.2.toList).map String.ofList)

def has (r : Reading) (f : FlagName) : Bool :=
  r.flags.contains f

/-- The invocation that the arguments of a command make. -/
def finish (command : CommandName) (r : Reading) : Except Usage Invocation := do
  let r ← r.settle
  let required (o : OptionName) : Except Usage String :=
    match r.value? o with
    | some v => .ok v
    | none => .error .missingRequired
  match command with
  | .schema => .ok (.schema (r.value? .out))
  | .config => .ok (.config (r.value? .out))
  | .normalize => .ok (.normalize (← required .plan) (r.value? .out))
  | .validate =>
    .ok (.validate (← required .plan) (← required .model) r.scope? (r.has .json)
      (r.value? .config))
  | .preview =>
    .ok (.preview (← required .plan) (← required .model) (r.has .json) (r.value? .config))
  | .apply =>
    .ok (.apply (← required .plan) (← required .model) (r.value? .out) (r.has .continueOnError)
      (r.has .noAutoConnect) (r.has .json) (r.value? .config))

end Reading

namespace Invocation

/-- What the arguments after the word for help ask for. -/
def ofHelp (words : List String) : Usage :=
  match words with
  | [] => .help
  | [word] =>
    if word = "help" || (CommandName.ofWord? word).isSome then .help else .invalidSubcommand
  | _ => .invalidSubcommand

/-- What the first argument after a separator comes to. -/
def afterSeparator (args : List String) : Usage :=
  match args with
  | [] => .helpOnMissing
  | word :: _ =>
    if word = "help" || (CommandName.ofWord? word).isSome then .unknownArgument
    else .invalidSubcommand

def ofCommand (command : CommandName) (args : List String) : Except Usage Invocation := do
  (← args.foldlM (fun r arg => r.step command (.ofText arg)) Reading.start).finish command

/-- The command that the program's arguments name. -/
def ofArguments : List String → Except Usage Invocation
  | [] => .error .helpOnMissing
  | arg :: args =>
    match Token.ofText arg with
    | .separator => .error (afterSeparator args)
    | .long name value =>
      if name = "help" || name = "version" then
        .error <| match value with
          | some _ => .tooManyValues
          | none => if name = "help" then .help else .version
      else .error .unknownArgument
    | .short letters =>
      .error <| match letters.toList.head? with
        | some 'h' => .help
        | some 'V' => .version
        | _ => .unknownArgument
    | .plain word =>
      match CommandName.ofWord? word with
      | some command => ofCommand command args
      | none => .error (if word = "help" then ofHelp args else .invalidSubcommand)

end Invocation

end ArchChange.Command

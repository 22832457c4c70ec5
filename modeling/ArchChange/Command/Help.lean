import ArchChange.Command.Arguments
/-!
What the program says when its arguments yield no command.
-/
namespace ArchChange.Command

def programName : String := "archplan"

def programVersion : String := "0.1.0"

namespace CommandName

def summary : CommandName → String
  | schema => "Print the flattened plan output schema"
  | config => "Print a default config file"
  | normalize => "Null out fields outside each action's contract"
  | validate => "Run schema and semantic validation"
  | preview => "Describe what the plan would do"
  | apply => "Apply the plan and write the model"

/-- A command with its options; those it can do without are in brackets. -/
def synopsis (c : CommandName) : String :=
  let option (o : OptionName) : String :=
    let text := s!"--{o.word} <{o.word}>"
    if c.required.contains o then text else s!"[{text}]"
  " ".intercalate
    (c.word :: c.options.map option ++ c.flags.map fun f => s!"[--{f.word}]")

end CommandName

/-- The commands, each with what it does. -/
def helpText : String :=
  "\n".intercalate
    ("Validate, preview, and apply change plans against an ArchiMate model" :: "" :: "Commands:" ::
      CommandName.all.map fun c => s!"  {c.synopsis}\n      {c.summary}")

def Usage.message : Usage → String
  | help | helpOnMissing => helpText
  | version => s!"{programName} {programVersion}"
  | invalidSubcommand => "error: unrecognized subcommand"
  | missingRequired => "error: a required option is missing"
  | unknownArgument => "error: unexpected argument"
  | conflict => "error: an option is given more than once"
  | invalidValue => "error: an option has no value"
  | tooManyValues => "error: a flag takes no value"

end ArchChange.Command

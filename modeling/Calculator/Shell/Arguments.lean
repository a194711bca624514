import Calculator.Shell.Program

/-!
# Arguments

A reader of the arguments on the command line.
-/

namespace Calculator

def ColorOption.ofText? : String → Option ColorOption
  | "auto" => some .auto
  | "always" => some .always
  | "never" => some .never
  | _ => none

def versionText : String :=
  "scicalc-cli 0.1.0\n"

def usageText : String :=
  "CLI and REPL for evaluating scientific calculator expressions.\n" ++
  "\n" ++
  "Usage: scicalc [--color auto|always|never] <ast [LINE] | eval [-i] [LINE]>\n"

namespace Notice

def version : Notice :=
  ⟨versionText, false⟩

def help : Notice :=
  ⟨usageText, false⟩

def refusal : Notice :=
  ⟨usageText, true⟩

end Notice

namespace Invocation

def after? (start arg : String) : Option String :=
  if start.toList.isPrefixOf arg.toList then some (String.ofList (arg.toList.drop start.length))
  else none

/--
The arguments of a subcommand: a line at most, a colour at most, and for some
the wish to be asked for lines. A question for help ends them.
-/
structure Arguments where
  color : Option ColorOption := none
  interactive : Bool := false
  line : Option String := none
  help : Bool := false

namespace Arguments

def setColor (a : Arguments) (text : String) : Option Arguments :=
  match a.color, ColorOption.ofText? text with
  | none, some choice => some { a with color := some choice }
  | _, _ => none

def setLine (a : Arguments) (line : String) : Option Arguments :=
  if a.line.isSome then none else some { a with line := some line }

def setInteractive (mayInteract : Bool) (a : Arguments) : Option Arguments :=
  if mayInteract && !a.interactive then some { a with interactive := true } else none

/-- After `--` all arguments are lines. -/
def lines (a : Arguments) : List String → Option Arguments
  | [] => some a
  | arg :: rest => (a.setLine arg).bind fun b => lines b rest

def flags (mayInteract : Bool) (a : Arguments) : List Char → Option Arguments
  | [] => some a
  | 'h' :: _ => some { a with help := true }
  | 'i' :: rest => (a.setInteractive mayInteract).bind fun b => flags mayInteract b rest
  | _ => none

/-- An argument by itself: a long option, flags after a single sign, or a line. -/
def read (mayInteract : Bool) (a : Arguments) (arg : String) : Option Arguments :=
  match after? "--color=" arg, arg.toList with
  | some text, _ => a.setColor text
  | none, '-' :: '-' :: _ =>
      if arg = "--help" then some { a with help := true }
      else if arg = "--interactive" then a.setInteractive mayInteract
      else none
  | none, '-' :: c :: rest => flags mayInteract a (c :: rest)
  | none, _ => a.setLine arg

def parse (mayInteract : Bool) (a : Arguments) : List String → Option Arguments
  | [] => some a
  | "--" :: rest => a.lines rest
  | ["--color"] => none
  | "--color" :: text :: rest => (a.setColor text).bind fun b => parse mayInteract b rest
  | arg :: rest =>
      (a.read mayInteract arg).bind fun b => if b.help then some b else parse mayInteract b rest

def consistent (a : Arguments) : Bool :=
  !(a.interactive && a.line.isSome)

end Arguments

/--
The choice of colour after the subcommand, before it or in the environment, in
this order. The environment is asked wherever there is no argument, so a bad
choice in it is refused unless there is one in both places.
-/
def resolveColor (command sub : Option ColorOption) (environment : Option String) :
    Option ColorOption :=
  match command, sub, environment with
  | some _, some choice, _ => some choice
  | _, _, none => some ((sub.or command).getD .auto)
  | _, _, some text => (ColorOption.ofText? text).map fun choice => (sub.or command).getD choice

def subcommand (mayInteract : Bool) (request : Arguments → Request)
    (command : Option ColorOption) (environment : Option String) (args : List String) :
    Except Notice Invocation :=
  match Arguments.parse mayInteract {} args with
  | none => .error .refusal
  | some a =>
      if a.help then .error .help
      else if a.consistent then
        match resolveColor command a.color environment with
        | some color => .ok ⟨request a, color⟩
        | none => .error .refusal
      else .error .refusal

def topics : List String :=
  ["ast", "eval", "help"]

/-- A question for help is about one subcommand at most. -/
def help : List String → Notice
  | [] => .help
  | [topic] => if topic ∈ topics then .help else .refusal
  | _ => .refusal

/-- Reads the arguments, or refuses them. `color` is what has been chosen before the subcommand. -/
def parseFrom (environment : Option String) (color : Option ColorOption) :
    List String → Except Notice Invocation
  | [] => .error .refusal
  | ["--color"] => .error .refusal
  | "--color" :: text :: rest =>
      match color, ColorOption.ofText? text with
      | none, some choice => parseFrom environment (some choice) rest
      | _, _ => .error .refusal
  | "ast" :: rest => subcommand false (fun a => .tree a.line) color environment rest
  | "eval" :: rest =>
      subcommand true (fun a => .evaluate a.interactive a.line) color environment rest
  | "help" :: rest => .error (help rest)
  | arg :: rest =>
      match after? "--color=" arg with
      | some text =>
          match color, ColorOption.ofText? text with
          | none, some choice => parseFrom environment (some choice) rest
          | _, _ => .error .refusal
      | none =>
          if arg = "--version" ∨ (after? "-V" arg).isSome then .error .version
          else if arg = "--help" ∨ (after? "-h" arg).isSome then .error .help
          else .error .refusal

def parse (environment : Option String) (args : List String) : Except Notice Invocation :=
  parseFrom environment none args

end Invocation

end Calculator

import Aprs.Command
import Aprs.Cut

/-!
# Arguments

A command is read from the arguments of a tool. Arguments are options, which begin with two hyphens
and may have a value, or stand by themselves.

Specification: 13 (Tools).
-/

namespace Aprs.Command

/-- What arguments may hold: how many that stand by themselves, and which options. -/
structure Shape where
  maxOperands : Nat
  /-- The options without a value. -/
  switches : List Text
  /-- The options with a value. -/
  settings : List Text

/-- Arguments by what they are. -/
structure Arguments where
  operands : List Text
  switches : List Text
  settings : List (Text × Text)

/-- Arguments with one more that stands by itself, if it may. -/
def Arguments.operand? (shape : Shape) (arg : Text) (a : Arguments) : Option Arguments :=
  if a.operands.length < shape.maxOperands then some { a with operands := a.operands ++ [arg] }
  else none

/-- Arguments with one more option without a value, if there is one and it is new. -/
def Arguments.switch? (shape : Shape) (name : Text) (a : Arguments) : Option Arguments :=
  if shape.switches.contains name ∧ !a.switches.contains name then
    some { a with switches := name :: a.switches }
  else none

/-- Arguments with one more option with a value, if there is one and it is new. -/
def Arguments.setting? (shape : Shape) (name value : Text) (a : Arguments) : Option Arguments :=
  if shape.settings.contains name ∧ (a.settings.lookup name).isNone then
    some { a with settings := (name, value) :: a.settings }
  else none

/-- Sorts arguments. What begins with a hyphen is an option, save a hyphen alone; after two hyphens
there are no options any more. -/
def Arguments.read (shape : Shape) (a : Arguments) : List Text → Option Arguments
  | [] => some a
  | ['-', '-'] :: rest => rest.foldlM (fun a arg => a.operand? shape arg) a
  | ('-' :: '-' :: name) :: rest =>
    match cutFirst '=' name with
    | some (name, value) => (a.setting? shape name value).bind fun a => read shape a rest
    | none =>
      if shape.settings.contains name then
        match rest with
        | [] => none
        | value :: rest =>
          if value.head? = some '-' ∧ value ≠ ['-'] then none
          else (a.setting? shape name value).bind fun a => read shape a rest
      else (a.switch? shape name).bind fun a => read shape a rest
  | ['-'] :: rest => (a.operand? shape ['-']).bind fun a => read shape a rest
  | ('-' :: _) :: _ => none
  | arg :: rest => (a.operand? shape arg).bind fun a => read shape a rest

/-- Arguments without any. -/
def Arguments.none : Arguments := ⟨[], [], []⟩

/-- The format that arguments ask for, text if they do not say. -/
def Arguments.format? (a : Arguments) : Option OutputFormat :=
  match a.settings.lookup "format".toList with
  | .none => some .text
  | .some name => OutputFormat.ofName? name

/-- The command in the arguments of the parsing tool. The name of a file is not empty. -/
def ofParseArguments? (args : List Text) : Option Command := do
  let shape : Shape := ⟨1, ["faults-only".toList, "stats".toList], ["format".toList]⟩
  let a ← Arguments.none.read shape args
  let format ← a.format?
  if a.operands.any List.isEmpty then none
  let input := a.operands.head?.filter (· ≠ ['-'])
  return .parse input format (a.switches.contains "faults-only".toList)
    (a.switches.contains "stats".toList)

/-- The command in the arguments of the framing tool. -/
def ofFrameArguments? : List Text → Option Command
  | [] => .none
  | word :: args => do
    if word = "encode".toList then
      let a ← Arguments.none.read ⟨1, [], []⟩ args
      return .encode (← a.operands.head?)
    else if word = "decode".toList then
      let a ← Arguments.none.read ⟨1, [], ["format".toList]⟩ args
      return .decode (← a.operands.head?) (← a.format?)
    else .none

/-- The command in the arguments of the passcode tool. -/
def ofPasscodeArguments? (args : List Text) : Option Command := do
  let a ← Arguments.none.read ⟨1, [], []⟩ args
  return .passcode (← a.operands.head?)

/-- The command in the arguments of a tool, if they make sense. -/
def ofArguments? (tool : Tool) (args : List Text) : Option Command :=
  match tool with
  | .parse => ofParseArguments? args
  | .frame => ofFrameArguments? args
  | .passcode => ofPasscodeArguments? args

end Aprs.Command

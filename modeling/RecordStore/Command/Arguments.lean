import RecordStore.CapacityPolicy
import RecordStore.Options

/-!
# Command-line arguments

The options of the program, then an action with options and operands of its own.  An option is given once, by its
long or its short name; its value follows as the next argument or behind `=`.  An argument that starts with a hyphen
is an option, so such a value has to follow `=`, and such an operand has to follow `--`.
-/

namespace RecordStore.Command

inductive UsageFault
  | unknownArgument (argument : String)
  | missingValue (option : String)
  | unexpectedValue (option : String)
  | repeated (option : String)
  | invalidValue (what value : String)
  | missing (what : String)
  | exclusive (one other : String)

def UsageFault.message : UsageFault → String
  | .unknownArgument argument => s!"unexpected argument {argument}"
  | .missingValue option => s!"a value is required for --{option}"
  | .unexpectedValue option => s!"no value is expected for --{option}"
  | .repeated option => s!"--{option} cannot be used multiple times"
  | .invalidValue what value => s!"invalid value {value} for {what}"
  | .missing what => s!"{what} is missing"
  | .exclusive one other => s!"--{one} cannot be used with --{other}"

/-! ### Arguments by form -/

inductive Argument
  | separator
  | long (name : String) (value : Option String)
  | short (letters : List Char)
  | operand (text : String)

namespace Argument

def ofLong (chars : List Char) : Argument :=
  let name := String.ofList (chars.takeWhile (· ≠ '='))
  match chars.dropWhile (· ≠ '=') with
  | [] => .long name none
  | _ :: value => .long name (some (String.ofList value))

/-- A lone hyphen is an operand. -/
def ofString (s : String) : Argument :=
  match s.toList with
  | ['-', '-'] => .separator
  | '-' :: '-' :: chars => ofLong chars
  | ['-'] => .operand s
  | '-' :: letters => .short letters
  | _ => .operand s

end Argument

structure OptionRule where
  name : String
  letter : Option Char
  takesValue : Bool

/-- What a list of arguments says: the options with their values, the operands, and the arguments left over behind the
first operand where reading stops there. -/
structure Reading where
  options : List (String × String)
  operands : List String
  rest : List String

namespace Reading

def option? (reading : Reading) (name : String) : Option String := reading.options.lookup name

def addOption (reading : Reading) (name value : String) : Except UsageFault Reading :=
  if (reading.option? name).isSome then .error (.repeated name)
  else .ok { reading with options := (name, value) :: reading.options }

/-- Reads a cluster of one-letter options.  Answers the option that still needs a value, if one does. -/
def addLetters (rules : List OptionRule) (reading : Reading) :
    List Char → Except UsageFault (Reading × Option String)
  | [] => .ok (reading, none)
  | c :: letters =>
    match rules.find? (·.letter = some c) with
    | none => .error (.unknownArgument (String.ofList ['-', c]))
    | some rule =>
      if rule.takesValue then
        match letters with
        | [] => .ok (reading, some rule.name)
        | '=' :: value => return (← reading.addOption rule.name (String.ofList value), none)
        | value => return (← reading.addOption rule.name (String.ofList value), none)
      else do addLetters rules (← reading.addOption rule.name "") letters

/-- Reads arguments one by one.  `pending` is the option whose value comes next; with `untilOperand` the first operand
ends the reading. -/
def readOn (rules : List OptionRule) (untilOperand : Bool) (reading : Reading) (pending : Option String) :
    List String → Except UsageFault Reading
  | [] =>
    match pending with
    | none => .ok reading
    | some name => .error (.missingValue name)
  | argument :: rest =>
    match pending, Argument.ofString argument with
    | some name, .operand value => do
      (← reading.addOption name value).readOn rules untilOperand none rest
    | some name, _ => .error (.missingValue name)
    | none, .separator =>
      if untilOperand then .error (.unknownArgument argument)
      else .ok { reading with operands := reading.operands ++ rest }
    | none, .operand text =>
      if untilOperand then .ok { reading with operands := [text], rest }
      else { reading with operands := reading.operands ++ [text] }.readOn rules untilOperand none rest
    | none, .short letters => do
      let (reading, pending) ← addLetters rules reading letters
      reading.readOn rules untilOperand pending rest
    | none, .long name value =>
      match rules.find? (·.name = name) with
      | none => .error (.unknownArgument argument)
      | some rule =>
        match rule.takesValue, value with
        | true, some value => do (← reading.addOption name value).readOn rules untilOperand none rest
        | true, none => reading.readOn rules untilOperand (some name) rest
        | false, none => do (← reading.addOption name "").readOn rules untilOperand none rest
        | false, some _ => .error (.unexpectedValue name)

def ofArguments (rules : List OptionRule) (untilOperand : Bool) (arguments : List String) : Except UsageFault Reading :=
  readOn rules untilOperand { options := [], operands := [], rest := [] } none arguments

end Reading

/-! ### Values -/

def digits? (chars : List Char) : Option Nat :=
  if chars.isEmpty || !chars.all Char.isDigit then none
  else some (chars.foldl (fun n c => n * 10 + (c.toNat - '0'.toNat)) 0)

/-- A decimal number below `bound`; a plus sign may stand in front of it. -/
def natBelow? (bound : Nat) (s : String) : Option Nat :=
  let number := match s.toList with
    | '+' :: chars => digits? chars
    | chars => digits? chars
  number.filter (· < bound)

/-- A record number has 32 bits; unlike other numbers it is read with its sign, so zero may be negative. -/
def recordNumber? (s : String) : Option Nat :=
  match s.toList with
  | '-' :: chars => (digits? chars).filter (· = 0)
  | _ => natBelow? (1 <<< 32) s

inductive Strategy
  | exact
  | percent
  | buckets
deriving DecidableEq

def Strategy.ofString? : String → Option Strategy
  | "exact" => some .exact
  | "percent" => some .percent
  | "buckets" => some .buckets
  | _ => none

def Strategy.policy : Strategy → CapacityPolicy
  | .exact => .exactDefault
  | .percent => .percentDefault
  | .buckets => .bucketsDefault

/-- Where a payload comes from. -/
inductive Source
  | text (value : String)
  | standardInput
  | file (path : String)

inductive Action
  | put (id : Option Nat) (source : Option Source)
  | get (id : Nat)
  | delete (id : Nat)
  | stats
  | scan
  | recover

/-- All that one call of the program asks for.  The switch for verbose output is accepted and has no effect, since
nothing is logged. -/
structure Arguments where
  file : String
  pageSize : Nat
  frames : Nat
  strategy : Strategy
  action : Action

namespace Arguments

def programRules : List OptionRule := [
  { name := "file", letter := some 'f', takesValue := true },
  { name := "page-size", letter := some 'p', takesValue := true },
  { name := "buffer-frames", letter := none, takesValue := true },
  { name := "strategy", letter := some 's', takesValue := true },
  { name := "verbose", letter := some 'v', takesValue := false }]

def putRules : List OptionRule := [
  { name := "id", letter := none, takesValue := true },
  { name := "value", letter := none, takesValue := true },
  { name := "input", letter := none, takesValue := true }]

/-- The value of an option as `convert?` understands it, or `other` if the option is not given. -/
def valueOr {α : Type} (reading : Reading) (name : String) (convert? : String → Option α) (other : α) :
    Except UsageFault α :=
  match reading.option? name with
  | none => .ok other
  | some value =>
    match convert? value with
    | some a => .ok a
    | none => .error (.invalidValue name value)

def path? (s : String) : Option String := if s.isEmpty then none else some s

def putAction (arguments : List String) : Except UsageFault Action := do
  let reading ← Reading.ofArguments putRules false arguments
  if let text :: _ := reading.operands then throw (.unknownArgument text)
  let id ← valueOr reading "id" (fun s => (recordNumber? s).map some) none
  let input ← valueOr reading "input" (fun s => (path? s).map some) none
  match reading.option? "value", input with
  | some _, some _ => throw (.exclusive "value" "input")
  | some value, none => return .put id (some (.text value))
  | none, some "-" => return .put id (some .standardInput)
  | none, some path => return .put id (some (.file path))
  | none, none => return .put id none

def recordAction (action : Nat → Action) (arguments : List String) : Except UsageFault Action := do
  match (← Reading.ofArguments [] false arguments).operands with
  | [] => throw (.missing "record id")
  | [text] =>
    match recordNumber? text with
    | some id => return action id
    | none => throw (.invalidValue "record id" text)
  | _ :: text :: _ => throw (.unknownArgument text)

def plainAction (action : Action) (arguments : List String) : Except UsageFault Action := do
  match (← Reading.ofArguments [] false arguments).operands with
  | [] => return action
  | text :: _ => throw (.unknownArgument text)

def actionNamed (name : String) (arguments : List String) : Except UsageFault Action :=
  match name with
  | "put" => putAction arguments
  | "get" => recordAction .get arguments
  | "delete" => recordAction .delete arguments
  | "stats" => plainAction .stats arguments
  | "scan" => plainAction .scan arguments
  | "recover" => plainAction .recover arguments
  | _ => .error (.unknownArgument name)

def ofList (arguments : List String) : Except UsageFault Arguments := do
  let reading ← Reading.ofArguments programRules true arguments
  match reading.operands with
  | [] => throw (.missing "action")
  | name :: _ =>
    let action ← actionNamed name reading.rest
    match reading.option? "file" with
    | none => throw (.missing "--file")
    | some _ =>
      return {
        file := ← valueOr reading "file" path? ""
        pageSize := ← valueOr reading "page-size" (natBelow? (1 <<< 64)) defaultPageSize
        frames := ← valueOr reading "buffer-frames" (natBelow? (1 <<< 64)) defaultFrames
        strategy := ← valueOr reading "strategy" Strategy.ofString? .exact
        action }

end Arguments

end RecordStore.Command

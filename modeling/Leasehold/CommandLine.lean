import Leasehold.Settings.Basic
import Leasehold.Text.Decimal
import Leasehold.Files

set_option autoImplicit false

/-!
The options of the command line.

An option takes its value after an equals sign or from the next argument, unless that one begins with
a dash. Its value is checked when the next option is read or the line ends, so a mistake in a later
name can be found before one in an earlier value.
-/

namespace Leasehold

abbrev Argument := Bytes

structure Arguments where
  config : Option Path := none
  functions : List String := []
  bucketTtlMs : Option Nat := none
  deriving DecidableEq, Repr

inductive UsageError where
  | displayHelp
  | unknownArgument
  | invalidValue
  | valueValidation
  | argumentConflict
  | invalidUtf8
  | tooManyValues
  deriving DecidableEq, Repr

inductive ValueOption where
  | config
  | function
  | bucketTtlMs
  deriving DecidableEq, Repr

inductive LongName where
  | help
  | value (option : ValueOption)
  deriving DecidableEq, Repr

namespace ValueOption

def name : ValueOption → String
  | config => "config"
  | function => "function"
  | bucketTtlMs => "bucket-ttl-ms"

def all : List ValueOption := [config, function, bucketTtlMs]

end ValueOption

def LongName.ofBytes? (bytes : Bytes) : Option LongName :=
  if bytes = Text.encode "help" then some .help
  else LongName.value <$> ValueOption.all.find? fun option => bytes = Text.encode option.name

inductive Shape where
  /-- Two dashes alone: no options follow. -/
  | separator
  | long (name : Bytes) (value? : Option (Bytes))
  /-- A dash and what follows it. -/
  | short (letters : Bytes)
  | plain (value : Bytes)
  deriving DecidableEq, Repr

namespace Shape

def dash : UInt8 := 0x2d

def equals : UInt8 := 0x3d

def cutValue : Bytes → Bytes × Option (Bytes)
  | [] => ([], none)
  | byte :: rest =>
      if byte = equals then ([], some rest)
      else
        let (name, value?) := cutValue rest
        (byte :: name, value?)

def of : Argument → Shape
  | first :: second :: rest =>
      if first ≠ dash then plain (first :: second :: rest)
      else if second ≠ dash then short (second :: rest)
      else if rest = [] then separator
      else
        let (name, value?) := cutValue rest
        long name value?
  | value => plain value

end Shape

structure Reading where
  arguments : Arguments := {}
  /-- The option that was read last, with its value once that is read. -/
  pending : Option (ValueOption × Option (Bytes)) := none
  optionsOver : Bool := false
  deriving DecidableEq, Repr

namespace Arguments

def setConfig (arguments : Arguments) (value : Bytes) : Except UsageError Arguments :=
  if value = [] then .error .invalidValue else .ok { arguments with config := some value }

/-- Give an option its value. Only functions can be given more than once. -/
def accept (arguments : Arguments) (option : ValueOption) (value : Bytes) :
    Except UsageError Arguments :=
  match option with
  | .config =>
      if arguments.config.isSome then .error .argumentConflict else arguments.setConfig value
  | .bucketTtlMs =>
      if arguments.bucketTtlMs.isSome then .error .argumentConflict
      else match Text.text? value with
        | none => .error .invalidUtf8
        | some text =>
            match Text.natural? maxMillis text.toList with
            | none => .error .valueValidation
            | some millis => .ok { arguments with bucketTtlMs := some millis }
  | .function =>
      match Text.text? value with
      | none => .error .invalidUtf8
      | some text => .ok { arguments with functions := arguments.functions ++ [text] }

end Arguments

namespace Reading

def resolve (reading : Reading) : Except UsageError Reading :=
  match reading.pending with
  | none => .ok reading
  | some (_, none) => .error .invalidValue
  | some (option, some value) => do
      let arguments ← reading.arguments.accept option value
      .ok { reading with arguments, pending := none }

def help (reading : Reading) : Except UsageError Reading := do
  let _ ← reading.resolve
  .error .displayHelp

def take (reading : Reading) (argument : Argument) : Except UsageError Reading :=
  if reading.optionsOver then .error .unknownArgument
  else match Shape.of argument with
    | .separator => .ok { reading with optionsOver := true }
    | .long name value? =>
        match LongName.ofBytes? name, value? with
        | none, _ => .error .unknownArgument
        | some .help, some _ => .error .tooManyValues
        | some .help, none => reading.help
        | some (.value option), some value => do
            let resolved ← reading.resolve
            let arguments ← resolved.arguments.accept option value
            .ok { resolved with arguments }
        | some (.value option), none => do
            let resolved ← reading.resolve
            .ok { resolved with pending := some (option, none) }
    | .short letters =>
        if letters.head? = some 0x68 then reading.help else .error .unknownArgument
    | .plain value =>
        match reading.pending with
        | some (option, none) => .ok { reading with pending := some (option, some value) }
        | _ => .error .unknownArgument

end Reading

namespace Arguments

/-- Read a command line. The configuration file may also be named by a variable, which counts only
where no option names one. -/
def read (line : List Argument) (configVariable? : Option Path) : Except UsageError Arguments := do
  let reading ← line.foldlM Reading.take {}
  let resolved ← reading.resolve
  match resolved.arguments.config, configVariable? with
  | none, some path => resolved.arguments.setConfig path
  | _, _ => .ok resolved.arguments

/-- Options go before what is set elsewhere. Functions are replaced as a whole. -/
def apply (arguments : Arguments) (settings : Settings) : Settings :=
  { settings with
    bucket.ttlMs := arguments.bucketTtlMs.getD settings.bucket.ttlMs
    scaler.functions :=
      if arguments.functions = [] then settings.scaler.functions else arguments.functions }

end Arguments

end Leasehold

import Leasehold.Rehearsal.Schedule
import Leasehold.Scaling.Run
import Leasehold.Settings.Check
import Leasehold.Settings.Load

set_option autoImplicit false

/-! The program: one scaler for each configured function, over leases kept in this process. -/

namespace Leasehold.Program

def usage : String :=
  "Leader-elected function scalers\n\n" ++
  "  --config PATH         path to the configuration file (also SKIFF_CONFIG)\n" ++
  "  --function NAME       function to scale; repeat for several\n" ++
  "  --bucket-ttl-ms N     time-to-live of the leader bucket in milliseconds\n" ++
  "  -h, --help            show this help"

def UsageError.text : UsageError → String
  | .displayHelp => usage
  | .unknownArgument => "error: unexpected argument"
  | .invalidValue => "error: an option needs a value"
  | .valueValidation => "error: a value is not a number of milliseconds"
  | .argumentConflict => "error: an option is given twice"
  | .invalidUtf8 => "error: a value is no text"
  | .tooManyValues => "error: an option takes no value"

def readText (path : Path) : IO (Except ReadError String) := do
  match ← (IO.FS.readBinFile (Text.shownBytes path)).toBaseIO with
  | .ok contents =>
      match Text.text? contents.data.toList with
      | some text => return .ok text
      | none => return .error .notText
  | .error (.noFileOrDirectory ..) => return .error .notFound
  | .error error => return .error (.other (toString error))

def environment : IO Environment := do
  let mut found := []
  for name in "SKIFF_CONFIG" :: Override.all.map Override.source do
    if let some value ← IO.getEnv name then
      found := (name, Text.encode value) :: found
  return found

def settings (line : List String) : IO (Except (String × UInt32) Settings) := do
  let found ← environment
  match Arguments.read (line.map Text.encode) found.configFile? with
  | .error error => return .error (UsageError.text error, if error = .displayHelp then 0 else 2)
  | .ok arguments =>
      let contents ← readText (arguments.config.getD Settings.defaultFile)
      match Settings.assemble (fun _ => contents) arguments found.text? with
      | .error error => return .error (s!"error: {error.message}", 1)
      | .ok settings =>
          match settings.validate with
          | .error error => return .error (s!"error: {error.message}", 1)
          | .ok () => return .ok settings

/-- Play the scalers at the pace of the clock until all of them are over. -/
partial def play (began : Nat) (crew : Crew) (rehearsal : Rehearsal) : IO Fleet := do
  let played := Rehearsal.playUntil (fun _ => false) ((← IO.monoNanosNow) - began) rehearsal
  if crew.isOver played.fleet then return played.fleet
  let pause := (played.fleet.wakeAt?.getD (played.now + Duration.ofSeconds 1)) - played.now
  IO.sleep (UInt32.ofNat (min (Duration.wholeMillis pause + 1) 1_000))
  play began crew played

def run (settings : Settings) : IO UInt32 := do
  let (crew, fleet) := (Fleet.opening settings.bucketTerms).spawn settings "root"
  let last ← play (← IO.monoNanosNow) crew { fleet }
  let mut failed : UInt32 := 0
  for (_, result) in crew.results last do
    if let .error error := result then
      IO.eprintln error.message
      failed := 1
  return failed

end Leasehold.Program

def main (line : List String) : IO UInt32 := do
  match ← Leasehold.Program.settings line with
  | .error (text, code) => do
      IO.eprintln text
      return code
  | .ok settings => Leasehold.Program.run settings

import Leasehold.CommandLine
import Leasehold.Settings.Document
import Leasehold.Settings.Override

set_option autoImplicit false

/-! Settings in layers: the defaults, a file, the environment, and the command line over all. -/

namespace Leasehold

abbrev Environment := List (String × Bytes)

namespace Environment

/-- A variable that is no text counts as not set. -/
def text? (environment : Environment) : Variables := fun name =>
  environment.lookup name >>= Text.text?

def configFile? (environment : Environment) : Option Path := environment.lookup "SKIFF_CONFIG"

end Environment

namespace Settings

def defaultFile : Path := Text.encode "./skiff.toml"

abbrev FileReader := Path → Except ReadError String

def ofFile (read : FileReader) (path : Path) : Except SettingsError Settings :=
  match read path with
  | .error error => .error (.unreadable (Text.shownBytes path) error.message)
  | .ok text => ofText text

/-- A file that is named has to be there. -/
def beforeOverrides (read : FileReader) : Option Path → Except SettingsError Settings
  | some path => ofFile read path
  | none => if read defaultFile matches .error .notFound then .ok {} else ofFile read defaultFile

/-- The defaults, then the file, then the environment. -/
def load (read : FileReader) (path? : Option Path) (lookup : Variables) :
    Except SettingsError Settings := do
  let settings ← beforeOverrides read path?
  let (settings, result) := settings.override lookup
  let () ← result
  .ok settings

def assemble (read : FileReader) (arguments : Arguments) (lookup : Variables) :
    Except SettingsError Settings :=
  arguments.apply <$> load read arguments.config lookup

end Settings

end Leasehold

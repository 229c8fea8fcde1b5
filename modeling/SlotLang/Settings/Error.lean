import SlotLang.Json.Reading
import SlotLang.Settings

/-!
# SlotLang.Settings.Error

Why settings cannot be had, and the words for it.
-/

namespace SlotLang

/-- Why a file cannot be read as text. -/
inductive FileFault
  | missing
  | directory
  | notText
  deriving DecidableEq, Repr

namespace FileFault

/-- The fault in words. -/
def message : FileFault → String
  | missing => "No such file or directory (os error 2)"
  | directory => "Is a directory (os error 21)"
  | notText => "stream did not contain valid UTF-8"

end FileFault

/-- Why settings cannot be had. -/
inductive SettingsError
  /-- The file cannot be read. -/
  | unreadable (file : String) (fault : FileFault)
  /-- The text, which may come from a file, is malformed at a line and column. -/
  | malformed (file : Option String) (cause : Json.Cause) (line column : Nat)
  /-- The settings are unusable. -/
  | unusable (fault : SettingsFault)
  deriving DecidableEq, Repr

/-- A failure as it is reported. -/
structure SettingsReport where
  message : String
  position : Option Position
  deriving DecidableEq, Repr

namespace SettingsReport

/-- The message with its place. -/
def text (r : SettingsReport) : String :=
  match r.position with
  | some position => s!"{r.message} (at {position.text})"
  | none => r.message

/-- A failure to get settings is an error. -/
def diagnostic (r : SettingsReport) : Diagnostic :=
  ⟨.error, "dragonc.config", ⟨r.position, none⟩, r.message⟩

end SettingsReport

namespace SettingsError

/-- The failure as it is reported. Only failures that concern a file have a place. -/
def report : SettingsError → SettingsReport
  | unreadable file fault => ⟨"read config: " ++ fault.message, some ⟨file, 0, 0⟩⟩
  | malformed file cause line column =>
    ⟨s!"parse config: {cause.message} at line {line} column {column}",
      file.map fun name => ⟨name, line, column⟩⟩
  | unusable fault => ⟨fault.message, none⟩

end SettingsError

end SlotLang

import SlotLang.Diagnostic
import SlotLang.Event
import SlotLang.Text.Blank

/-!
# SlotLang.Settings

What a user can choose: the function that receives the statements of a program, and how values are
printed.
-/

namespace SlotLang

/-- The choices. -/
structure Settings where
  /-- The function that receives the top-level statements. -/
  entryFunction : String
  /-- The external function that prints. -/
  printRoutine : String
  /-- The text passed in front of a printed value, if any. -/
  printFormat : Option String
  deriving DecidableEq, Repr

namespace Settings

/-- The choices of a user who makes none. -/
def default : Settings := ⟨"main", "printf", some "%d\n"⟩

instance : Inhabited Settings := ⟨default⟩

end Settings

/-- What makes settings unusable. -/
inductive SettingsFault
  | entryEmpty
  | routineEmpty
  | sharedName (name : String)
  deriving DecidableEq, Repr

namespace SettingsFault

/-- The fault in words. -/
def message : SettingsFault → String
  | entryEmpty => "entry function name is empty"
  | routineEmpty => "print routine name is empty"
  | sharedName name => s!"entry function and print routine share the name '{name}'"

end SettingsFault

namespace Settings

/-- Names must not be blank and must differ. Usable settings yield the events worth logging: a
missing print format is one. -/
def validate (s : Settings) : Except SettingsFault (List Event) :=
  if Text.blank s.entryFunction then
    .error .entryEmpty
  else if Text.blank s.printRoutine then
    .error .routineEmpty
  else if s.entryFunction = s.printRoutine then
    .error (.sharedName s.entryFunction)
  else if s.printFormat.isNone then
    .ok [.bareValues s.printRoutine]
  else
    .ok []

end Settings

end SlotLang

import SlotLang.Settings.Error

/-!
# SlotLang.Settings.Load

Settings are loaded from a text or from a file. A decoder reads them, and then they are checked.
What the texts look like is up to the decoder.
-/

namespace SlotLang.Settings

/-- Why and where a decoder gives up. -/
structure Malformed where
  cause : Json.Cause
  line : Nat
  column : Nat
  deriving DecidableEq, Repr

/-- Reads settings from a text and does not ask whether they are usable. -/
abbrev Decoder := String → Except Malformed Settings

/-- Reads and checks settings; the text may come from a file. Usable settings come with the events
worth logging. -/
def ofText (decode : Decoder) (file : Option String) (text : String) :
    Except SettingsError (Settings × List Event) :=
  match decode text with
  | .error e => .error (.malformed file e.cause e.line e.column)
  | .ok s =>
    match s.validate with
    | .error fault => .error (.unusable fault)
    | .ok events => .ok (s, events)

/-- Reads and checks settings. -/
def ofJson (decode : Decoder) (text : String) : Except SettingsError (Settings × List Event) :=
  ofText decode none text

/-- What a file name leads to. -/
inductive File
  | missing
  | directory
  | content (bytes : ByteArray)

/-- Reads and checks the settings in a file. -/
def ofFile (decode : Decoder) (name : String) : File → Except SettingsError (Settings × List Event)
  | .missing => .error (.unreadable name .missing)
  | .directory => .error (.unreadable name .directory)
  | .content bytes =>
    match String.fromUTF8? bytes with
    | none => .error (.unreadable name .notText)
    | some text => ofText decode (some name) text

end SlotLang.Settings

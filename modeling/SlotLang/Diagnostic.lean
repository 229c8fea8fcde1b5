import SlotLang.Position

/-!
# SlotLang.Diagnostic

The common form of everything that is reported to a user. Failures of reading settings, of
lowering and of running each become a `Diagnostic`, so that one printer serves them all.
-/

namespace SlotLang

/-- How grave a diagnostic is. -/
inductive Severity
  | info
  | warning
  | error
  | fatal
  deriving DecidableEq, Repr

namespace Severity

/-- The word for a severity. -/
def text : Severity → String
  | info => "INFO"
  | warning => "WARNING"
  | error => "ERROR"
  | fatal => "FATAL"

end Severity

/-- A message to a user, with who issues it and the place it is about. -/
structure Diagnostic where
  severity : Severity
  issuer : String
  origin : Origin
  message : String
  deriving DecidableEq, Repr

namespace Diagnostic

/-- All of a diagnostic on one line. -/
def line (d : Diagnostic) : String :=
  let position := (d.origin.position.map Position.text).getD "unknown"
  let span := (d.origin.span.map Span.text).getD "span:none"
  s!"DRAGONC | {d.severity.text} | {position} | {d.issuer} | {span} | {d.message}"

/-- The short form, which leaves out the issuer and the span. -/
def report (d : Diagnostic) : String :=
  let position := (d.origin.position.map Position.text).getD "unknown location"
  s!"DRAGONC | {d.severity.text} | {position} | {d.message}"

end Diagnostic

end SlotLang

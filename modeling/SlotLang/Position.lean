/-!
# SlotLang.Position

Places in source files. A `Position` is one place, a `Span` runs between two, and an `Origin` is
what a node or a failure knows of where it comes from, which may be nothing.
-/

namespace SlotLang

/-- A place in a source file. Lines and columns count from one; zeros stand for the file as a
whole. -/
structure Position where
  file : String
  line : Nat
  column : Nat
  deriving DecidableEq, Repr, Inhabited

/-- The stretch of source between two positions. -/
structure Span where
  start : Position
  stop : Position
  deriving DecidableEq, Repr, Inhabited

/-- Where something comes from, as far as it is known. -/
structure Origin where
  position : Option Position
  span : Option Span
  deriving DecidableEq, Repr

namespace Position

/-- A position is written `file:line:column`. -/
def text (p : Position) : String :=
  s!"{p.file}:{p.line}:{p.column}"

end Position

namespace Span

/-- The span of no width at a position. -/
def point (p : Position) : Span := ⟨p, p⟩

/-- A span inside one file names the file once; any other span shows both ends in full. -/
def text (s : Span) : String :=
  if s.start.file = s.stop.file then
    s!"{s.start.text}-{s.stop.line}:{s.stop.column}"
  else
    s!"{s.start.text} - {s.stop.text}"

end Span

namespace Origin

/-- Nothing is known of the place. -/
def unknown : Origin := ⟨none, none⟩

end Origin

end SlotLang

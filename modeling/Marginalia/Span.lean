namespace Marginalia

/-- What an annotator knows about a span beyond its style. -/
inductive Note
  | depth (depth : Nat)
  | line (line : Nat)
  | blame (line : Nat) (identifier : String)
  | hit (index : Nat)
deriving DecidableEq, Repr

/-- A stretch of content and the style it is shown in. -/
structure Span where
  start : Nat
  stop : Nat
  style : String
  note : Option Note := none
deriving DecidableEq, Repr

/-- A span that covers something. -/
def Span.Nonempty (span : Span) : Prop :=
  span.start < span.stop

instance (span : Span) : Decidable span.Nonempty :=
  inferInstanceAs (Decidable (_ < _))

/-- A span lies inside a content of the given length. -/
def Span.fits (span : Span) (length : Nat) : Bool :=
  span.stop ≤ length

def Span.length (span : Span) : Nat :=
  span.stop - span.start

/-- Two spans share an offset. -/
def Span.overlaps (left right : Span) : Bool :=
  left.start < right.stop && right.start < left.stop

end Marginalia

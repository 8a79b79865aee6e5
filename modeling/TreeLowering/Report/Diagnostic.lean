/-!
# Diagnostics

A diagnostic is an error as it is shown to a reader: a message, a code, labels on byte
ranges of one source text and notes. The first label says where the error is.
-/

namespace TreeLowering

/-- Whether a label marks the error itself or something that helps to understand it. -/
inductive Label.Style where
  /-- The place of the error. -/
  | primary
  /-- A related place. -/
  | secondary
  deriving DecidableEq, Repr

/-- A message on a byte range of the source. -/
structure Label where
  /-- What the place is to the error. -/
  style : Label.Style
  /-- First byte of the range. -/
  start : Nat
  /-- First byte after the range. -/
  stop : Nat
  /-- What is said about the place. -/
  message : String
  deriving DecidableEq, Repr

/-- An error as it is shown. -/
structure Diagnostic where
  /-- A stable name of the kind of error. -/
  code : String
  /-- What went wrong. -/
  message : String
  /-- The places concerned, the place of the error first. -/
  labels : List Label
  /-- Advice. -/
  notes : List String
  deriving DecidableEq, Repr

end TreeLowering

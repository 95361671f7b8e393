import QueryFilter.Span
import QueryFilter.Text.Quoted

/-!
# Errors of filters

What can be wrong with a query that is well formed: an operator whose operand has the wrong type,
or a typed literal that cannot be decoded.
-/

namespace QueryFilter

/-- An operator at an operand of the wrong type. -/
structure OperandMismatch where
  span : Span
  op : String
  expected : String
  found : String
deriving DecidableEq

/-- The error in words. -/
def OperandMismatch.message (e : OperandMismatch) : String :=
  "operator `" ++ e.op ++ "` at " ++ e.span.text ++ " expects " ++ e.expected ++ ", found " ++
    e.found

/-- Why a literal cannot be decoded. -/
inductive LiteralFault where
  | invalidDate
  | invalidId
  | unsupportedMarker
  | invalidJson
deriving DecidableEq

/-- The fault in words. -/
def LiteralFault.text : LiteralFault → String
  | invalidDate => "invalid date"
  | invalidId => "invalid ObjectId"
  | unsupportedMarker => "no decoder registered for marker"
  | invalidJson => "invalid JSON"

/-- A literal that cannot be decoded, and its place if it was written in a query. -/
structure LiteralError where
  fault : LiteralFault
  raw : String
  span : Option Span
deriving DecidableEq

/-- The error in words. -/
def LiteralError.message (e : LiteralError) : String := e.fault.text ++ ": " ++ Text.quoted e.raw

end QueryFilter

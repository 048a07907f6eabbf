/-
  TaintFlow.Yaml.Error
  ────────────────────
  Why a YAML text has no value: it is not a document, it cannot be read to its end, or it is a
  document and a scalar in it claims to be what it is not.
-/

namespace TaintFlow.Yaml

/-- What is wrong with a scalar of a document. -/
inductive ValueFault where
  /-- A number that is not written as one. -/
  | numeral
  /-- A number without any character. -/
  | emptyNumeral
  /-- A number with so many parts that the first one would count for too much. -/
  | tooManyParts
  /-- A day or a time that does not exist. -/
  | date
  /-- A date that is not written as one. -/
  | notADate
  /-- A date that is given by a mapping. -/
  | dateByMapping
  /-- A truth value that is not written as one. -/
  | truthValue
  /-- A character number beyond the last character. -/
  | characterNumber
  /-- A character number beyond all that numbers of characters can be. -/
  | characterNumberTooGreat
  /-- A mapping that stands for a value which leads back to it. -/
  | endless
  deriving DecidableEq, Repr

/-- Why a text has no value. -/
inductive Error where
  | malformed
  /-- The text ends where something is still missing. -/
  | unfinished
  /-- The bytes that come next are no characters. -/
  | undecodable
  | value (fault : ValueFault)
  deriving DecidableEq, Repr

/-- The outcome of reading a document or a part of it. -/
abbrev Read := Except Error

/-- Refuse the text. -/
def refuse {α : Type} : Read α := .error .malformed

/-- Go on only when the condition holds. -/
def require (condition : Bool) : Read Unit := if condition then .ok () else refuse

end TaintFlow.Yaml

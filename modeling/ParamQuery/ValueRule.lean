import ParamQuery.Error
import ParamQuery.Number.Binary64
import ParamQuery.Text.Blank
import ParamQuery.Text.Split

/-!
# Value rules

The shape that the value of a filter or of a column to write must have.

## Main definitions

* `ValueRule.parse` — reads tokens such as `required|integer`.
* `ValueRule.fault?` — what is wrong with a text under a rule, if anything.
-/

namespace ParamQuery

open Text

inductive ValueKind where
  | string
  | integer
  | numeric
  deriving DecidableEq, Repr

structure ValueRule where
  kind : ValueKind := .string
  required : Bool := false
  deriving DecidableEq, Repr, Inhabited

namespace ValueRule

/-- Adds what one token demands to a rule. -/
def addToken (rule : ValueRule) (token : String) : Except SchemaFault ValueRule :=
  if token = "required" then .ok { rule with required := true }
  else if token = "string" then .ok { rule with kind := .string }
  else if token = "integer" then .ok { rule with kind := .integer }
  else if token = "numeric" then .ok { rule with kind := .numeric }
  else .error (.unknownRule token)

/-- The tokens of a text: between bars, without white space around them, in lower case, and none
that is blank. -/
def tokens (text : String) : List String :=
  (((splitOn '|' text.toList).map trim).filter fun token => !token.isEmpty).map fun token =>
    asciiLower (String.ofList token)

/-- Reads tokens between bars; of two kinds the last one counts. -/
def parse (text : String) : Except SchemaFault ValueRule :=
  (tokens text).foldlM addToken {}

/-- Whether a text is a whole number of 64 bits, white space around it aside. -/
def isInteger (text : String) : Bool := (integer? (trim text.toList)).isSome

/-- Whether a text is a decimal number that some finite 64-bit binary number is nearest to, white
space around it aside. -/
def isNumeric (text : String) : Bool :=
  (Binary64.read? .double (trim text.toList)).any Binary64.isFinite

/-- What is wrong with a text, if anything. -/
def fault? (rule : ValueRule) (text : String) : Option ValueFault :=
  if rule.required && (trim text.toList).isEmpty then some .missing
  else
    match rule.kind with
    | .string => none
    | .integer => if isInteger text then none else some .notInteger
    | .numeric => if isNumeric text then none else some .notNumber

end ValueRule

end ParamQuery

import ParamQuery.Name
import ParamQuery.OrderedMap
import ParamQuery.Text.Split

/-!
# Request parameters

The parameters of a request as they were sent: names with a text or, where a name was repeated, a
list of texts.
-/

namespace ParamQuery

/-- The value of a parameter. -/
inductive ParamValue where
  | single (text : String)
  | many (texts : List String)
  deriving DecidableEq, Repr

namespace ParamValue

/-- The text of a value that was sent once. -/
def single? : ParamValue → Option String
  | .single text => some text
  | .many _ => none

/-- The text of a value, the texts of a list with commas between them. -/
def joined : ParamValue → String
  | .single text => text
  | .many texts => Text.joinStrings "," texts

end ParamValue

/-- The parameters of a request, in the order received. -/
abbrev Params := OrderedMap ParamValue

/-- The parameter that every endpoint accepts, in its usual spelling: failures of a request that
sends it are reported with status 200. -/
def suppressionName : String := "suppressResponseHttpStatusCode"

/-- Whether a name is a spelling of the suppression parameter. -/
def isSuppression (name : String) : Bool := canonical name == canonical suppressionName

/-- Whether the suppression parameter was sent, in any spelling. -/
def Params.suppressesStatus (params : Params) : Bool := params.keys.any isSuppression

end ParamQuery

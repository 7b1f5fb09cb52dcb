import ParamQuery.Text.Numeral

/-!
# Request methods

The methods that a request may be made with.
-/

namespace ParamQuery

open Text

inductive Method where
  | get
  | post
  | put
  | delete
  deriving DecidableEq, Repr

namespace Method

/-- Whether requests of this method carry a body. -/
def isWrite : Method → Bool
  | .post | .put => true
  | .get | .delete => false

def name : Method → String
  | .get => "GET"
  | .post => "POST"
  | .put => "PUT"
  | .delete => "DELETE"

/-- Reads the name of a method in any ASCII case. -/
def parse? (text : String) : Option Method :=
  let word := asciiLower text
  if word = "get" then some .get
  else if word = "post" then some .post
  else if word = "put" then some .put
  else if word = "delete" then some .delete
  else none

theorem parse?_name (m : Method) : parse? m.name = some m := by
  cases m <;> decide

end Method

end ParamQuery

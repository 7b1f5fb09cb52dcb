import ParamQuery.Method

/-!
# Capabilities

The features that an endpoint can switch on, the methods that each of them may be used with, and
sets of features.
-/

namespace ParamQuery

/-- A feature of reading or writing. -/
inductive Capability where
  /-- Choosing columns. -/
  | fields
  /-- Loading related rows together with a row. -/
  | relations
  /-- Reading page by page. -/
  | pagination
  /-- Searching a text. -/
  | search
  /-- Ordering rows. -/
  | order
  /-- Conditions on columns. -/
  | filter
  /-- Values to write. -/
  | body
  deriving DecidableEq, Repr

namespace Capability

def all : List Capability :=
  [.fields, .relations, .pagination, .search, .order, .filter, .body]

def name : Capability → String
  | .fields => "fields"
  | .relations => "relations"
  | .pagination => "pagination"
  | .search => "search"
  | .order => "order"
  | .filter => "filter"
  | .body => "body"

/-- The methods that a feature may be used with. -/
def allowedMethods : Capability → List Method
  | .fields => [.get, .put, .post]
  | .relations => [.get, .put]
  | .pagination | .search | .order | .filter => [.get]
  | .body => [.put, .post]

def allows (c : Capability) (m : Method) : Bool := c.allowedMethods.contains m

theorem mem_all (c : Capability) : c ∈ all := by
  cases c <;> decide

end Capability

/-- A set of features. -/
structure Capabilities where
  fields : Bool := false
  relations : Bool := false
  pagination : Bool := false
  search : Bool := false
  order : Bool := false
  filter : Bool := false
  body : Bool := false
  deriving DecidableEq, Repr

namespace Capabilities

def empty : Capabilities := {}

instance : EmptyCollection Capabilities := ⟨empty⟩

def contains (caps : Capabilities) : Capability → Bool
  | .fields => caps.fields
  | .relations => caps.relations
  | .pagination => caps.pagination
  | .search => caps.search
  | .order => caps.order
  | .filter => caps.filter
  | .body => caps.body

def insert (caps : Capabilities) : Capability → Capabilities
  | .fields => { caps with fields := true }
  | .relations => { caps with relations := true }
  | .pagination => { caps with pagination := true }
  | .search => { caps with search := true }
  | .order => { caps with order := true }
  | .filter => { caps with filter := true }
  | .body => { caps with body := true }

def ofList (list : List Capability) : Capabilities := list.foldl insert empty

/-- Every feature that reading can apply. -/
def read : Capabilities :=
  ofList [.fields, .relations, .pagination, .search, .order, .filter]

/-- The features of a set, in their fixed order. -/
def toList (caps : Capabilities) : List Capability := Capability.all.filter caps.contains

def isEmpty (caps : Capabilities) : Bool := caps.toList.isEmpty

theorem contains_insert (caps : Capabilities) (c d : Capability) :
    (caps.insert c).contains d = (c == d || caps.contains d) := by
  cases c <;> cases d <;> rfl

theorem mem_toList {caps : Capabilities} {c : Capability} :
    c ∈ caps.toList ↔ caps.contains c = true := by
  simp [toList, Capability.mem_all]

end Capabilities

end ParamQuery

import ParamQuery.Error
import ParamQuery.Order

/-!
# Configuration

The values that requests leave out, and the bound on the size of a page.
-/

namespace ParamQuery

structure Config where
  /-- The size of a page when none is sent. -/
  defaultLimit : Nat := 20
  /-- The offset when none is sent. -/
  defaultOffset : Nat := 0
  /-- The largest size of a page, if there is one. -/
  maxLimit : Option Nat := none
  /-- The order when none is sent. -/
  defaultOrder : String := "id.asc"
  deriving DecidableEq, Repr, Inhabited

namespace Config

/-- Refuses values that no request could satisfy. -/
def check (config : Config) : Except Error Unit :=
  if config.defaultLimit = 0 then .error (.config .zeroDefaultLimit)
  else
    match config.maxLimit with
    | some max =>
      if max < config.defaultLimit then .error (.config (.maxBelowDefault max config.defaultLimit))
      else .ok ()
    | none => .ok ()

/-- The order when none is sent, which must be well formed. -/
def order (config : Config) : Except Error Order :=
  match Order.parse? config.defaultOrder with
  | some order => .ok order
  | none => .error (.config (.malformedOrder config.defaultOrder))

end Config

end ParamQuery

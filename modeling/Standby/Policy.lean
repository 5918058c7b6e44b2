import Standby.Caller
import Standby.Error
/-!
# Access policy

What a caller may do is decided per action, which is named after a resource and what is done to it.
Administrators may do everything and everybody may discover extensions, unless a rule for the action says
otherwise.
-/

namespace Standby

/-- Who may do something. -/
inductive PolicyRule where
  | anyone
  | adminOnly
  | deny
  deriving DecidableEq, Repr

def PolicyRule.allows (r : PolicyRule) (c : Caller) : Bool :=
  match r with
  | .anyone => true
  | .adminOnly => c.isAdmin
  | .deny => false

/-- Rules for single actions; of several for one action the last counts. -/
structure Policy where
  rules : List (String × PolicyRule) := []
  deriving DecidableEq, Repr

namespace Policy

/-- The word for discovering an extension. -/
def discoverable : String := "discoverable"

def actionName (resource action : String) : String := s!"failsafe_api:{resource}:{action}"

/-- The rule for an action that has none of its own. -/
def defaultRule (action : String) : PolicyRule :=
  if (":" ++ discoverable).toList.isSuffixOf action.toList then .anyone else .adminOnly

/-- The rule for an action. -/
def ruleFor (p : Policy) (action : String) : PolicyRule :=
  ((p.rules.reverse.find? (·.1 == action)).map (·.2)).getD (defaultRule action)

/-- Whether a caller may do something. -/
def allows (p : Policy) (c : Caller) (action : String) : Bool := (p.ruleFor action).allows c

/-- Fails if a caller may not do something. -/
def authorize (p : Policy) (c : Caller) (action : String) : Except ApiError Unit :=
  if p.allows c action then .ok () else .error (.notAuthorized action)

end Policy

end Standby

import Standby.Text.Ascii
import Standby.Text.Blank
import Standby.Text.Split
/-!
# Callers

Who sends a request, as the authentication in front of the server says.
-/

namespace Standby

/-- The sender of a request. Role names are in lower case. -/
structure Caller where
  user : Option String
  project : Option String
  roles : List String
  deriving DecidableEq, Repr

namespace Caller

/-- The role that may do everything. -/
def adminRole : String := "admin"

/-- The caller that the given texts describe, of which the last lists roles. Blank texts count as missing. -/
def ofParts (user project roles : Option String) : Caller :=
  { user := user.bind Text.nonBlank?
    project := project.bind Text.nonBlank?
    roles := ((Text.pieces ',' (roles.getD "")).map fun r => Text.lower (Text.trim r)).filter (· ≠ "") }

def hasRole (c : Caller) (role : String) : Bool := c.roles.any (Text.sameIgnoringCase · role)

def isAdmin (c : Caller) : Bool := c.hasRole adminRole

end Caller

end Standby

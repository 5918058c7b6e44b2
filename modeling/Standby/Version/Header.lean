import Standby.Error
import Standby.Http.Headers
import Standby.Text.Blank
/-!
# The version header

The header lists entries of the form `service version`, separated by commas, over any number of lines. Only the
first entry of the server's own service counts.
-/

namespace Standby.VersionHeader

/-- What an entry says about the version of a service. It says nothing if it is blank or about another one. -/
def said? (service entry : String) : Option (Except ApiError VersionToken) :=
  match Text.words entry with
  | [] => none
  | name :: rest =>
    if !Text.sameIgnoringCase name service then none
    else
      some <|
        match rest with
        | _ :: _ :: _ => .error (.ofVersionError (.invalidText (Text.trim entry)))
        | _ => (VersionToken.parse (rest.head?.getD "")).mapError .ofVersionError

/-- What the lines of the header say about the version of a service, if anything. -/
def requested (name service : String) : List String → Except ApiError (Option VersionToken)
  | [] => .ok none
  | line :: lines =>
    if !Headers.isText line then
      .error (.of .invalidVersionString s!"{name} header is not valid ASCII.")
    else
      match (Text.pieces ',' line).findSome? (said? service) with
      | some (.ok token) => .ok (some token)
      | some (.error e) => .error e
      | none => requested name service lines

/-- The version that a request with these lines is served at. -/
def resolve (name service : String) (window : Window) (lines : List String) : Except ApiError Version := do
  let token ← requested name service lines
  (window.resolve token).mapError .ofVersionError

/-- The entry for a version that a service answers at. -/
def entry (service : String) (v : Version) : String := service ++ " " ++ v.text

end Standby.VersionHeader

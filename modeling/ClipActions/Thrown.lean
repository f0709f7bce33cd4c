import ClipActions.Value

/-! Errors that code outside the library raises. They are known by their kinds and messages. -/
namespace ClipActions

/-- What an encoder says of a text that it cannot encode. -/
def Utf8.Obstacle.message (o : Utf8.Obstacle) : Text :=
  if o.count = 1 then
    "'utf-8' codec can't encode character '\\u" ++ Text.hex 4 o.first.code ++ "' in position " ++
      Text.ofNat o.index ++ ": surrogates not allowed"
  else
    "'utf-8' codec can't encode characters in position " ++ Text.ofNat o.index ++ "-" ++
      Text.ofNat (o.index + o.count - 1) ++ ": surrogates not allowed"

inductive ServiceError where
  | authentication
  | badRequest
  | rateLimit
  | status
  | connection
  deriving DecidableEq, Repr

def ServiceError.kind : ServiceError → Text
  | authentication => "AuthenticationError"
  | badRequest => "BadRequestError"
  | rateLimit => "RateLimitError"
  | status => "APIStatusError"
  | connection => "APIConnectionError"

/-- An error that code outside the library raised. -/
structure Thrown where
  kind : Text
  message : Text
  /-- What the error carries, such as the response it came with. -/
  attributes : List (Text × Data) := []
  /-- The way in which a model service failed, if the error comes from one. -/
  service : Option ServiceError := none

namespace Thrown

/-- What an error carries under a name; null if nothing. -/
def member (e : Thrown) (name : Text) : Data := (e.attributes.lookup name).getD .null

/-- How an encoder refuses a text that holds half of a surrogate pair. -/
def unencodable? (t : Text) : Option Thrown :=
  (Utf8.obstacle? t).map fun o => { kind := "UnicodeEncodeError", message := o.message }

end Thrown
end ClipActions

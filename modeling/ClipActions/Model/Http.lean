import ClipActions.Log.Event
import ClipActions.Failure

/-! What an error tells about the HTTP exchange that it comes from. -/
namespace ClipActions.Model

/-- The method, the address and the status of an exchange, as far as an error carries them. -/
def httpFields (e : Thrown) : List (Text × Data) :=
  let response := e.member "response"
  let request :=
    if (e.member "request").isNull && !response.isNull then response.member "request"
    else e.member "request"
  let shown (name : Text) (v : Data) : List (Text × Data) :=
    if v.truthy then [(name, .str v.display)] else []
  let status := if response.isNull then e.member "status_code" else response.member "status_code"
  let code : List (Text × Data) := if status.isNull then [] else [("http_status", status)]
  shown "http_method" (request.member "method") ++ shown "http_url" (request.member "url") ++ code

end ClipActions.Model

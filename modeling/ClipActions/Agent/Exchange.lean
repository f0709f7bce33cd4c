import ClipActions.Agent.Cause
import ClipActions.Disk.Name

/-! What comes back over the agent's socket. -/
namespace ClipActions.Agent

structure TransportError where
  /-- Whether the connection itself could not be made. -/
  connect : Bool
  kind : Text
  message : Text
  cause : Cause := ⟨[{}]⟩

/-- What a request meets: a reply with a status and a body, or a failure of the transport. -/
inductive Exchange where
  | reply (status : Nat) (body : Bytes)
  | failed (error : TransportError)

/-- The other end of the socket. -/
inductive Peer where
  /-- No socket is there. -/
  | absent
  /-- A socket is there and nobody listens. -/
  | stale
  /-- For each path the answers still to come; the last of them is given again and again. -/
  | serving (routes : List (Text × List Exchange))

namespace Peer

def serves : Peer → Bool
  | serving _ => true
  | absent | stale => false

/-- The usual refusal of a connection to a socket where nobody serves: its path may have 107 bytes. -/
def refused (socket : Path) : TransportError :=
  if 107 < Disk.Name.size socket.text then
    { connect := true, kind := "ConnectError", message := "AF_UNIX path too long" }
  else
    { connect := true, kind := "ConnectError", message := "[Errno 111] Connection refused"
      cause := ⟨[{ errno? := some (.int 111) }]⟩ }

/-- The answer to a request for a path nobody serves. -/
def unknown : Exchange := .reply 404 ((Utf8.encode? "not found").getD [])

/-- The answers of a path once its first one has been given. -/
def advance (answers : List Exchange) : List Exchange :=
  match answers with
  | _ :: next :: rest => next :: rest
  | answers => answers

/-- The answer to a request for a path, if the peer serves, and the peer after it. -/
def answer (peer : Peer) (path : Text) : Option Exchange × Peer :=
  match peer with
  | serving routes =>
    match routes.lookup path with
    | some (first :: rest) =>
      (some first, serving (routes.map fun (p, xs) =>
        if p = path then (p, advance (first :: rest)) else (p, xs)))
    | _ => (some unknown, peer)
  | _ => (none, peer)

end Peer
end ClipActions.Agent

import RangeSync.Act
import RangeSync.Url.Basic

/-!
# The net

What a server answers may depend on everything it was asked before, so a server is a function of
the requests that it has served and the one at hand. A net is a server that keeps this history.
All requests read a file, whole or in part.
-/

namespace RangeSync.Http

/-- A request to read a file. -/
structure Request where
  /-- Neither the user nor the fragment is sent. -/
  url : Url
  /-- The part of the file that is asked for. -/
  range : Option String
  userAgent : String
deriving DecidableEq, Repr

/-- The bytes of an answer, as they arrive. -/
structure Body where
  pieces : List (List UInt8)
  /-- The connection ends before all announced bytes are there. -/
  isBroken : Bool
deriving DecidableEq, Repr

/-- What happens to a request. -/
inductive Reply
  /-- No connection to the server. -/
  | unreachable
  /-- The server ends the connection without an answer. -/
  | closed
  | answer (status : Nat) (headers : List (String × String)) (body : Body)
deriving DecidableEq, Repr

/-- A server: what it replies, given the requests it has served, in order, and a new one. -/
abbrev Server := List Request → Request → Reply

/-- A server that no request reaches. -/
def Server.unreachable : Server := fun _ _ => .unreachable

/-- A server with the requests it has served, in order. -/
structure Net where
  server : Server
  served : List Request

/-- All bytes of a body that arrive. -/
def Body.delivered (b : Body) : List UInt8 :=
  b.pieces.flatten

/-- The value of a header, whose name may be written in letters of either case. -/
def header? (headers : List (String × String)) (name : String) : Option String :=
  (headers.find? fun h => h.1.toLower == name.toLower).map (·.2)

/-- Send one request. A request that does not reach the server is not in its history. -/
def Net.ask {ε : Type} (request : Request) : Act Net ε Reply := do
  let net ← get
  match net.server net.served request with
  | .unreachable => pure .unreachable
  | reply =>
    set { net with served := net.served ++ [request] }
    pure reply

end RangeSync.Http

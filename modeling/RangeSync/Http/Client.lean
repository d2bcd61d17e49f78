import RangeSync.Http.Net
import RangeSync.Http.Status
import RangeSync.Url.Relative

/-!
# Asking for a file

A client signs its requests with a name, follows redirects up to a limit, and answers with the URL
that it ended up with, the status and the body. A status that reports an error is an answer like
any other.
-/

namespace RangeSync.Http

/-- Something that sends requests. -/
structure Client where
  userAgent : String
deriving DecidableEq, Repr

/-- Why a request has no answer. -/
inductive SendFault
  /-- The server cannot be reached or does not answer. -/
  | unanswered (url : Url)
  /-- The scheme is not one of the web. -/
  | otherScheme (url : Url)
  /-- There were too many redirects. -/
  | redirects (url : Url)
deriving DecidableEq, Repr

/-- The wording of a fault. -/
def SendFault.message : SendFault → String
  | .unanswered url => "error sending request for url (" ++ url.toText ++ ")"
  | .otherScheme url => "builder error for url (" ++ url.toText ++ ")"
  | .redirects url => "error following redirect for url (" ++ url.toText ++ ")"

/-- What is said when the bytes of a body end too soon. -/
def brokenBody : String := "error decoding response body"

/-- An answer. -/
structure Response where
  /-- The URL that was asked last. -/
  url : Url
  status : Nat
  body : Body
deriving DecidableEq, Repr

/-- How many redirects are followed. -/
def redirectLimit : Nat := 10

/-- The URL has a scheme of the web. -/
def isWeb (url : Url) : Bool :=
  url.scheme == "http" || url.scheme == "https"

/-- The text can be the value of a header: no controls but the tab. -/
def isHeaderValue (s : String) : Bool :=
  s.toList.all fun c => c == '\t' || (0x20 ≤ c.toNat && c.toNat != 0x7F)

namespace Client

/-- A client that signs with a name; the reason if the name cannot be sent. -/
def named (userAgent : String) : Except String Client :=
  if isHeaderValue userAgent then .ok ⟨userAgent⟩ else .error "builder error"

/-- The request for a file, without user and fragment. -/
def request (c : Client) (url : Url) (range : Option String) : Request where
  url := { url.withoutUser with fragment := none }
  range
  userAgent := c.userAgent

/-- Where an answer leads: to the URL in its header, if its status says so and the URL can be
read. -/
def redirect? (url : Url) (status : Nat) (headers : List (String × String)) : Option Url :=
  if isRedirect status then
    (header? headers "location").bind fun reference => (url.join reference).toOption
  else none

/-- The answer for a URL, with at most `left` more redirects. -/
def follow (c : Client) (range : Option String) (left : Nat) (url : Url) :
    Act Net SendFault Response := do
  if !isWeb url then throw (.otherScheme url)
  match ← Net.ask (c.request url range) with
  | .unreachable => throw (.unanswered url)
  | .closed => throw (.unanswered url)
  | .answer status headers body =>
    match redirect? url status headers with
    | none => pure ⟨url, status, body⟩
    | some next =>
      match left with
      | 0 => throw (.redirects url)
      | left + 1 => follow c range left next

/-- **Ask for a file**, or for a range of it. A user in the URL is for the server to know and is
shown nowhere. -/
def fetch (c : Client) (url : Url) (range : Option String) : Act Net SendFault Response :=
  c.follow range redirectLimit url.withoutUser

end Client
end RangeSync.Http

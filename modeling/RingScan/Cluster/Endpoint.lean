import RingScan.Inet.Text
import RingScan.Text.Blank
import RingScan.Text.Integer

/-!
# Endpoints

An endpoint is a host, which may be followed by a port.  An address of sixteen bytes has colons
itself, so it stands between brackets when a port follows.

## Main definitions

* `Endpoint.host`: the host of an endpoint.
* `Endpoint.isLocal`: an endpoint on the machine itself.
* `Endpoint.ordered`: endpoints with the local ones first.
-/

namespace RingScan.Endpoint

/-- A text is the number of a port. -/
def isPort (cs : List Char) : Bool :=
  (Text.readNatural 65535 cs).isOk

/-- The characters before a port, or all characters if no port follows a single colon. -/
def withoutPort (cs : List Char) : List Char :=
  match cs.reverse.dropWhile (· != ':') with
  | _ :: before =>
    if !before.contains ':' && isPort (cs.reverse.takeWhile (· != ':')).reverse then before.reverse
    else cs
  | [] => cs

/-- The characters of the host of an endpoint. -/
def hostChars (endpoint : List Char) : List Char :=
  match Text.trimChars endpoint with
  | '[' :: rest => rest.takeWhile (· != ']')
  | cs => withoutPort cs

/-- The host of an endpoint. -/
def host (endpoint : String) : String :=
  String.ofList (hostChars endpoint.toList)

/-- A host is an address of the machine itself. -/
def isLoopback (host : String) : Bool :=
  match Inet.Address.read? host.toList with
  | some address => address.isLoopback
  | none => false

/-- An endpoint is on the machine itself: by its name, by its address, or because its host is one
of the given local ones. -/
def isLocal (locals : List String) (endpoint : String) : Bool :=
  Text.sameIgnoringCase (host endpoint) "localhost" || isLoopback (host endpoint) ||
    locals.any fun other => Text.sameIgnoringCase (host other) (host endpoint)

/-- Endpoints with the local ones first; both groups keep their order. -/
def ordered (locals endpoints : List String) : List String :=
  endpoints.filter (isLocal locals) ++ endpoints.filter (!isLocal locals ·)

end RingScan.Endpoint

/-!
# What can be wrong with a URL

The reasons for which a text is refused as a URL, with their wording.
-/

namespace RangeSync.Url

/-- A reason to refuse a text as a URL. -/
inductive Fault
  | emptyHost
  | invalidPort
  | invalidIpv4
  | invalidIpv6
  | invalidDomainCharacter
  | invalidInternationalName
  | relativeWithoutBase
  | overflow
deriving DecidableEq, Repr

/-- The wording of a reason. -/
def Fault.message : Fault → String
  | .emptyHost => "empty host"
  | .invalidPort => "invalid port number"
  | .invalidIpv4 => "invalid IPv4 address"
  | .invalidIpv6 => "invalid IPv6 address"
  | .invalidDomainCharacter => "invalid domain character"
  | .invalidInternationalName => "invalid international domain name"
  | .relativeWithoutBase => "relative URL without a base"
  | .overflow => "URLs more than 4 GB are not supported"

end RangeSync.Url

set_option autoImplicit false

/-!
The errors of reading URIs.
-/

namespace SpecServer

inductive UriError where
  | emptyHost
  | invalidDomain
  | invalidPort
  | invalidIpv4
  | invalidIpv6
  | invalidHostChar
  | relativeWithoutBase
  | relativeToOpaque
deriving DecidableEq, Repr

def UriError.message : UriError → String
  | emptyHost => "empty host"
  | invalidDomain => "invalid international domain name"
  | invalidPort => "invalid port number"
  | invalidIpv4 => "invalid IPv4 address"
  | invalidIpv6 => "invalid IPv6 address"
  | invalidHostChar => "invalid domain character"
  | relativeWithoutBase => "relative URL without a base"
  | relativeToOpaque => "relative URL with a cannot-be-a-base base"

end SpecServer

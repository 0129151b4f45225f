/-!
# What is wrong with a URL
-/

namespace Stepwise.Url

/-- Why a text is no URL. -/
inductive Fault where
  | noScheme
  | emptyHost
  | badName
  | badPort
  | badIpv4
  | badIpv6
  | badCharacter
deriving Repr, DecidableEq

/-- What people are told. -/
def Fault.message : Fault → String
  | noScheme => "relative URL without a base"
  | emptyHost => "empty host"
  | badName => "invalid international domain name"
  | badPort => "invalid port number"
  | badIpv4 => "invalid IPv4 address"
  | badIpv6 => "invalid IPv6 address"
  | badCharacter => "invalid domain character"

end Stepwise.Url

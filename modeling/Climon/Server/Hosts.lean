import Climon.Lib.JavaScript
import Mathlib.Data.List.Infix

namespace Climon.Server.Hosts

open Climon.Lib.JavaScript Climon.Lib.Utf16

/-! # Request headers: hosts and origins -/

/-- What the URL parser makes of an origin. -/
structure OriginUrl where
  hostname : List UInt16
  host : List UInt16
  deriving DecidableEq

/-- A header that is there, parsed or not a URL. -/
abbrev OriginHeader := Option (Option OriginUrl)

def bracketOpen : UInt16 := 0x5B

def bracketClose : UInt16 := 0x5D

def colon : UInt16 := 0x3A

/-- `replace(/^\[|\]$/g, "")` -/
def stripBrackets (host : List UInt16) : List UInt16 :=
  let front := if host.head? = some bracketOpen then host.tail else host
  if front.getLast? = some bracketClose then front.dropLast else front

/-- `(?::\d+)?$` -/
def isPortSuffix : List UInt16 → Bool
  | [] => true
  | c :: digits => c == colon && digits ≠ [] && digits.all fun u => 0x30 ≤ u && u ≤ 0x39

/-- The bracketed alternative of `/^(\[[^\]]+\]|[^:]+)(?::\d+)?$/`. -/
def bracketedHost (host : List UInt16) : Option (List UInt16) :=
  let inner := host.tail.takeWhile (· != bracketClose)
  let rest := host.tail.dropWhile (· != bracketClose)
  if host.head? = some bracketOpen ∧ inner ≠ [] ∧ rest ≠ [] ∧ isPortSuffix rest.tail then
    some (bracketOpen :: inner ++ [bracketClose])
  else none

/-- The other alternative. -/
def plainHost (host : List UInt16) : Option (List UInt16) :=
  let name := host.takeWhile (· != colon)
  if name ≠ [] ∧ isPortSuffix (host.dropWhile (· != colon)) then some name else none

def hostHeaderHostname (value : List UInt16) : List UInt16 :=
  let host := trim value
  toLowerCase (stripBrackets (((bracketedHost host).or (plainHost host)).getD host))

def isLoopbackName (hostname : List UInt16) : Bool :=
  ["127.0.0.1", "localhost", "::1"].any fun name => hostname == encode name

def devTunnelHostSuffix : String := ".devtunnels.ms"

def isLoopbackHostHeader (host : Option (List UInt16)) : Bool :=
  host.any fun value => isLoopbackName (hostHeaderHostname value)

def isJson (contentType : Option (List UInt16)) : Bool :=
  contentType.any fun value => decide (encode "application/json" <:+: toLowerCase value)

def isAllowedSpawnRequest (contentType : Option (List UInt16)) (origin : OriginHeader)
    (host : Option (List UInt16)) : Bool :=
  isJson contentType &&
    (match origin with
      | none => true
      | some none => false
      | some (some url) => isLoopbackName (toLowerCase (stripBrackets url.hostname))) &&
    (match host with
      | none => true
      | some value => isLoopbackName (hostHeaderHostname value))

def isSameOriginRequest (contentType : Option (List UInt16)) (origin : OriginHeader)
    (host : Option (List UInt16)) : Bool :=
  isJson contentType &&
    match origin, host with
    | some (some url), some value => toLowerCase url.host == toLowerCase (trim value)
    | _, _ => false

def isAllowedDashboardHost (host : Option (List UInt16)) : Bool :=
  host.any fun value =>
    let hostname := hostHeaderHostname value
    isLoopbackName hostname || (encode devTunnelHostSuffix).isSuffixOf hostname

def isAllowedAttachUpgrade (origin : OriginHeader) (host : Option (List UInt16)) : Bool :=
  isAllowedDashboardHost host &&
    isSameOriginRequest (some (encode "application/json")) origin host

end Climon.Server.Hosts

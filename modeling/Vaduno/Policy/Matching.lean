import Vaduno.Types
import Vaduno.Ecma.NumberText

/-! Matching the fields of an intent against the entries of a policy or a mandate: merchants by id
or by host, settlement networks by their canonical form. -/
namespace Vaduno.Policy
open Ecma

variable (platform : Platform)

/-- Strips a single trailing dot. -/
def stripDot (host : JsString) : JsString :=
  if host.getLast? = some 46 then host.dropLast else host

/-- Lowercase and strip a single trailing dot (FQDN form). -/
def normalizeHost (host : JsString) : JsString := stripDot (platform.toLowerCase host)

/-- The normalized hostname of `url`, or `none` when there isn't a usable one. -/
def parsedHost (url : Option JsString) : Option JsString := do
  let url ← url
  if url = [] then none
  let host := normalizeHost platform (← platform.hostname url)
  if host = [] then none else some host

/-- True if `pattern` is a host-form pattern: the forms that need a URL to be evaluable at all. -/
def isHostForm (pattern : JsString) : Bool :=
  let raw := platform.trim pattern
  let lower := platform.toLowerCase raw
  if (encode "id:").isPrefixOf lower then false
  else if (encode "host:").isPrefixOf lower then true
  else raw.contains 46

def merchantMatches (merchant : MerchantRef) (pattern : JsString) : Bool :=
  let raw := platform.trim pattern
  let lower := platform.toLowerCase raw
  let merchantId := platform.toLowerCase (platform.trim merchant.id)
  if (encode "id:").isPrefixOf lower then merchantId = platform.trim (lower.drop 3)
  else
    let forceHost := (encode "host:").isPrefixOf lower
    let hostPattern := if forceHost then platform.trim (raw.drop 5) else raw
    -- a bare token without a dot is an id
    if !forceHost && !hostPattern.contains 46 then merchantId = platform.toLowerCase hostPattern
    else
      match parsedHost platform merchant.url with
      | none => false
      | some host =>
        let p := normalizeHost platform hostPattern
        if p = [] then false else decide (host = p) || (encode "." ++ p).isSuffixOf host

/-- The one merchant-identity function: the URL host where there is one, the id otherwise. -/
def merchantKeyOf (merchant : MerchantRef) : JsString :=
  let byId := "id:" ++ platform.toLowerCase (platform.trim merchant.id)
  match merchant.url.bind platform.hostname with
  | none => byId
  | some hostname =>
    let host := normalizeHost platform hostname
    if host = [] then byId else "host:" ++ host

/-- Curated names of chains that also have a CAIP-2 id. -/
def v1NetworkAliases : List (JsString × JsString) :=
  [("base", "eip155:8453"), ("base-sepolia", "eip155:84532"), ("avalanche", "eip155:43114"),
    ("avalanche-fuji", "eip155:43113"), ("polygon", "eip155:137"), ("polygon-amoy", "eip155:80002"),
    ("iotex", "eip155:4689"), ("sei", "eip155:1329"), ("sei-testnet", "eip155:1328")]

def isLowerAlphanumeric (u : UInt16) : Bool := (97 ≤ u && u ≤ 122) || (48 ≤ u && u ≤ 57)

/-- CAIP-2 grammar, matched after case-folding: a namespace of three to eight units, a colon, a
reference of one to thirty-two. -/
def caip2 (v : JsString) : Option (JsString × JsString) :=
  let (ns, reference) := cut 58 v
  if v.contains 58 && 3 ≤ ns.length && ns.length ≤ 8 && 1 ≤ reference.length &&
      reference.length ≤ 32 && (ns.all fun u => isLowerAlphanumeric u || u == 45) &&
      (reference.all fun u => isLowerAlphanumeric u || u == 45 || u == 95)
  then some (ns, reference)
  else none

/-- A network identifier reduced to its canonical comparison form, or `none` when the value cannot
canonically identify a network. -/
def normNetwork : JsValue → Option JsString
  | .string value => do
    let v := platform.toLowerCase (platform.trim value)
    if v = [] then none
    if !v.contains 58 then return (v1NetworkAliases.lookup v).getD v
    let (ns, reference) ← caip2 v
    if ns = encode "eip155" then
      -- compared numerically, so that leading zeros alias nothing
      if !(reference.all fun u => 48 ≤ u && u ≤ 57) then none
      return "eip155:" ++ natText (digitsValue reference)
    return ns ++ ":" ++ reference
  | _ => none

end Vaduno.Policy

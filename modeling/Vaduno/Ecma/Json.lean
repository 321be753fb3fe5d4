import Vaduno.Ecma.Value

/-! `JSON.stringify` without a replacer or indentation. -/
namespace Vaduno.Ecma

def isLead (u : UInt16) : Bool := 0xd800 ≤ u && u < 0xdc00

def isTrail (u : UInt16) : Bool := 0xdc00 ≤ u && u < 0xe000

def hexDigit (n : UInt16) : UInt16 := if n < 10 then 48 + n else 87 + n

def unicodeEscape (u : UInt16) : JsString :=
  [92, 117, hexDigit (u / 0x1000), hexDigit (u / 0x100 % 16), hexDigit (u / 0x10 % 16),
    hexDigit (u % 16)]

/-- One code unit inside a JSON string, when it is not half of a surrogate pair. -/
def escapeUnit (u : UInt16) : JsString :=
  if u = 8 then [92, 98]
  else if u = 9 then [92, 116]
  else if u = 10 then [92, 110]
  else if u = 12 then [92, 102]
  else if u = 13 then [92, 114]
  else if u = 34 ∨ u = 92 then [92, u]
  else if u < 32 ∨ isLead u ∨ isTrail u then unicodeEscape u
  else [u]

def escape : JsString → JsString
  | [] => []
  | [u] => escapeUnit u
  | u :: v :: rest =>
    if isLead u && isTrail v then u :: v :: escape rest else escapeUnit u ++ escape (v :: rest)

/-- `JSON.stringify` of a string. -/
def quote (s : JsString) : JsString := [34] ++ escape s ++ [34]

namespace JsValue

mutual
/-- `JSON.stringify`, with `none` for the `undefined` it answers on values JSON leaves out. -/
def stringify : JsValue → Throwing (Option JsString)
  | undefined | symbol => .ok none
  | null => .ok (some "null")
  | boolean b => .ok (some (if b then "true" else "false"))
  | number n => .ok (some (if n.isFinite then n.toText else "null"))
  | bigint _ => .error .typeError
  | string s => .ok (some (quote s))
  | array items => return some ([91] ++ joinComma (← stringifyItems items) ++ [93])
  | object props => return some ([123] ++ joinComma (← stringifyProps props) ++ [125])
  | foreign _ _ none => .error .typeError
  | foreign _ _ (some json) => .ok json

def stringifyItems : List JsValue → Throwing (List JsString)
  | [] => .ok []
  | item :: rest => return ((← stringify item).getD "null") :: (← stringifyItems rest)

def stringifyProps : List (JsString × JsValue) → Throwing (List JsString)
  | [] => .ok []
  | (key, v) :: rest => do
    match ← stringify v with
    | some json => return (quote key ++ [58] ++ json) :: (← stringifyProps rest)
    | none => stringifyProps rest
end

end JsValue
end Vaduno.Ecma

import Vaduno.Ecma.Text

/-! ECMAScript values, as far as validation code and error paths look at them: their type, their
text and their JSON. Both conversions can throw, and what is thrown is itself a value. -/
namespace Vaduno.Ecma

/-- What converting an object to text does: it gives the text, or it throws. `throws 0` throws an
error, `throws (n + 1)` a value whose own conversion is `throws n`. -/
inductive Conversion
  | text (s : JsString)
  | throws (depth : ℕ)

inductive JsValue
  | undefined
  | null
  | boolean (b : Bool)
  | number (n : Number)
  | bigint (n : ℤ)
  | string (s : JsString)
  | symbol
  | array (items : List JsValue)
  | object (props : List (JsString × JsValue))
  /-- A function, or an instance of the named class, seen only through its two conversions: to text,
  and to JSON, which is `none` where converting throws and `some none` where it gives
  `undefined`. -/
  | foreign (instanceOf : Option JsString) (text : Conversion) (json : Option (Option JsString))

/-- A thrown value: an instance of `Error` with its message, or anything else. -/
inductive Thrown
  | error (message : JsString)
  | value (v : JsValue)

/-- The `TypeError` of the engine, whose message no code below looks into. -/
def Thrown.typeError : Thrown := .error "TypeError"

abbrev Throwing := Except Thrown

theorem ok_bind (a : α) (f : α → Throwing β) : (Except.ok a >>= f) = f a := rfl

theorem bind_ok {x : Except ε α} {f : α → Except ε β} (ran : x >>= f = .ok b) :
    ∃ a, x = .ok a ∧ f a = .ok b := by
  cases x with
  | error thrown => cases ran
  | ok a => exact ⟨a, rfl, ran⟩

theorem of_toOption {r : Except ε α} (read : r.toOption = some a) : r = .ok a := by
  cases r with
  | error e => cases read
  | ok b => exact congrArg Except.ok (Option.some.inj read)

/-- Joins with commas, as `Array.prototype.join`. -/
def joinComma : List JsString → JsString
  | [] => []
  | [last] => last
  | item :: rest => item ++ "," ++ joinComma rest

/-- `items.join(separator)`. -/
def joinWith (separator : JsString) : List JsString → JsString
  | [] => []
  | [last] => last
  | item :: rest => item ++ separator ++ joinWith separator rest

namespace JsValue

/-- `Boolean(v)`. -/
def truthy : JsValue → Bool
  | undefined | null => false
  | boolean b => b
  | number n => !(n.isNaN || n = 0)
  | bigint n => decide (n ≠ 0)
  | string s => !s.isEmpty
  | _ => true

mutual
/-- The text a template literal gives a value. -/
def toText : JsValue → Throwing JsString
  | undefined => .ok "undefined"
  | null => .ok "null"
  | boolean b => .ok (if b then "true" else "false")
  | number n => .ok n.toText
  | bigint n => .ok (intText n)
  | string s => .ok s
  | symbol => .error .typeError
  | array items => return joinComma (← itemTexts items)
  | object props =>
    -- an own data property of this name shadows the inherited method and is not callable
    if props.any fun p => p.1 = "toString" then .error .typeError else .ok "[object Object]"
  | foreign _ (.text s) _ => .ok s
  | foreign _ (.throws 0) _ => .error .typeError
  | foreign _ (.throws (depth + 1)) _ => .error (.value (.foreign none (.throws depth) none))

def itemTexts : List JsValue → Throwing (List JsString)
  | [] => .ok []
  | null :: rest | undefined :: rest => return [] :: (← itemTexts rest)
  | item :: rest => return (← toText item) :: (← itemTexts rest)
end

/-- `String(v)`, which differs from a template literal on symbols only. -/
def stringOf : JsValue → Throwing JsString
  | symbol => .ok "Symbol()"
  | v => v.toText

/-- The number a comparison makes of a value. -/
def toNumber (ofText : JsString → Number) : JsValue → Throwing Number
  | undefined => .ok .nan
  | null => .ok 0
  | boolean b => .ok (if b then 1 else 0)
  | number n => .ok n
  | bigint n => .ok n
  | string s => .ok (ofText s)
  | symbol => .error .typeError
  | v => return ofText (← v.toText)

end JsValue

/-- `err instanceof Error ? err.message : String(err)`. -/
def errText : Thrown → Throwing JsString
  | .error message => .ok message
  | .value v => v.stringOf

end Vaduno.Ecma

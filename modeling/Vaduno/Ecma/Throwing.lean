import Vaduno.Ecma.Json

/-! Which exceptions have a text. Most are errors with a message; but what an object's own conversion throws
can be an object again, and reporting it then throws in turn. -/
namespace Vaduno.Ecma

/-- A thrown value that reporting gives a text. -/
def Named (e : Thrown) : Prop := ∃ text, errText e = .ok text

/-- Whatever a computation throws has a text. -/
def Names (r : Throwing α) : Prop := ∀ e, r = .error e → Named e

theorem named_error (message : JsString) : Named (.error message) := ⟨message, rfl⟩

theorem named_typeError : Named .typeError := named_error _

namespace Names

theorem ok (a : α) : Names (.ok a) := nofun

theorem of_named (named : Named e) : Names (.error e : Throwing α) := by
  rintro _ ⟨⟩
  exact named

theorem error (message : JsString) : Names (.error (.error message) : Throwing α) := of_named (named_error message)

theorem bind {r : Throwing α} {f : α → Throwing β} (first : Names r) (rest : ∀ a, Names (f a)) :
    Names (r >>= f) := by
  cases r with
  | error e =>
    rintro _ ⟨⟩
    exact first e rfl
  | ok a => exact rest a

theorem map {r : Throwing α} (f : α → β) (names : Names r) : Names (f <$> r) := by
  cases r with
  | error e =>
    rintro _ ⟨⟩
    exact names e rfl
  | ok a => exact ok _

theorem mapM {f : α → Throwing β} {items : List α} (each : ∀ a ∈ items, Names (f a)) : Names (items.mapM f) := by
  induction items with
  | nil => exact ok _
  | cons item rest ih =>
    rw [List.mapM_cons]
    obtain ⟨first, others⟩ := List.forall_mem_cons.mp each
    exact first.bind fun _ => (ih others).bind fun _ => ok _

end Names

namespace JsValue

mutual
theorem names_stringify : (v : JsValue) → Names v.stringify
  | undefined | symbol | null | boolean _ | number _ | string _ => .ok _
  | bigint _ => .of_named named_typeError
  | array items => by
    rw [stringify]
    exact (names_stringifyItems items).bind fun _ => .ok _
  | object props => by
    rw [stringify]
    exact (names_stringifyProps props).bind fun _ => .ok _
  | foreign _ _ none => .of_named named_typeError
  | foreign _ _ (some json) => .ok json

theorem names_stringifyItems : (items : List JsValue) → Names (stringifyItems items)
  | [] => .ok _
  | item :: rest => by
    rw [stringifyItems]
    exact (names_stringify item).bind fun _ => (names_stringifyItems rest).bind fun _ => .ok _

theorem names_stringifyProps : (props : List (JsString × JsValue)) → Names (stringifyProps props)
  | [] => .ok _
  | (key, v) :: rest => by
    rw [stringifyProps]
    refine (names_stringify v).bind fun json => ?_
    cases json with
    | none => exact names_stringifyProps rest
    | some json => exact (names_stringifyProps rest).bind fun _ => .ok _
end

/-- A value whose conversion to text throws nothing that has no text. -/
def Tame (v : JsValue) : Prop := Names v.toText

variable {v : JsValue}

theorem Tame.stringOf (tame : v.Tame) : Names v.stringOf := by
  cases v with
  | symbol => exact .ok _
  | _ => exact tame

theorem Tame.toNumber (tame : v.Tame) (ofText : JsString → Number) : Names (v.toNumber ofText) := by
  cases v with
  | undefined | null | boolean _ | number _ | bigint _ | string _ => exact .ok _
  | symbol => exact .of_named named_typeError
  | array _ | object _ | foreign _ _ _ => exact tame.bind fun _ => .ok _

theorem tame_number (n : Number) : (number n).Tame := .ok _

theorem tame_undefined : undefined.Tame := .ok _

end JsValue
end Vaduno.Ecma

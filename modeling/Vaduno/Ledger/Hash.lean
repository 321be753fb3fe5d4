import Vaduno.Types
import Mathlib.Data.List.Sort

/-! Canonical JSON, the text that hashes and signatures commit to: keys sorted by code unit,
nothing accepted that JSON cannot represent exactly. -/
namespace Vaduno.Ledger
open Ecma

/-- The nesting past which serialization throws. -/
def canonicalMaxDepth : ℕ := 256

/-- Comparison of keys by code unit. -/
def keyLe (a b : JsString × Throwing (Option JsString)) : Bool := !decide (b.1 < a.1)

/-- The members of an object in key order, absent ones left out. -/
def joinMembers : List (JsString × Throwing (Option JsString)) → Throwing (List JsString)
  | [] => .ok []
  | (key, text) :: rest => do
    match ← text with
    | none => joinMembers rest
    | some text => return (quote key ++ ":" ++ text) :: (← joinMembers rest)

/-- The depth check that comes before everything else. -/
def withinDepth (depth : ℕ) (path : JsString) (text : Throwing JsString) : Throwing JsString :=
  if canonicalMaxDepth < depth then
    .error (.error ("input nesting exceeds max depth " ++ natText canonicalMaxDepth ++ " at " ++ path))
  else text

mutual
def serialize (depth : ℕ) (path : JsString) (v : JsValue) : Throwing JsString :=
  withinDepth depth path <| match v with
  | .null => .ok "null"
  | .string s => .ok (quote s)
  | .boolean b => .ok (if b then "true" else "false")
  | .number n =>
    if n.isFinite then .ok n.toText
    else .error (.error (path ++ " is " ++ n.toText ++ ", which JSON cannot represent; " ++
      "rendering it as null would collide with an actual null"))
  | .bigint _ => .error (.error (path ++ " is a bigint; convert it to a string or a safe integer " ++
      "yourself — any encoding chosen here collides with a string that happens to match it"))
  | .undefined => .error (.error (path ++ " is undefined; in an array that would collide with " ++
      "null, which means something different"))
  | .symbol => .error (.error (path ++ " is a symbol, which cannot be signed"))
  | .foreign none _ _ => .error (.error (path ++ " is a function, which cannot be signed"))
  | .foreign (some name) _ _ => .error (.error (path ++ " is a " ++ name ++ ", not a plain object; " ++
      "convert it to JSON types yourself so the signed bytes are your decision"))
  | .array items => return "[" ++ joinComma (← serializeItems (depth + 1) path 0 items) ++ "]"
  | .object props =>
    return "\x7b" ++ joinComma (← joinMembers ((serializeProps (depth + 1) path props).insertionSort
      (keyLe · ·))) ++ "\x7d"

def serializeItems (depth : ℕ) (path : JsString) (index : ℕ) :
    List JsValue → Throwing (List JsString)
  | [] => .ok []
  | item :: rest =>
    return (← serialize depth (path ++ "[" ++ natText index ++ "]") item) ::
      (← serializeItems depth path (index + 1) rest)

def serializeProps (depth : ℕ) (path : JsString) :
    List (JsString × JsValue) → List (JsString × Throwing (Option JsString))
  | [] => []
  | (key, v) :: rest =>
    -- absent and undefined say the same
    (key, match v with
      | .undefined => .ok none
      | v => some <$> serialize depth (path ++ "." ++ key) v) :: serializeProps depth path rest
end

def canonicalJson (v : JsValue) : Throwing JsString := serialize 0 "$" v

/-- Where members were joined, each has a text. -/
theorem joinMembers_ok {members : List (JsString × Throwing (Option JsString))}
    (joined : joinMembers members = .ok texts) : ∀ p ∈ members, ∃ text, p.2 = .ok text := by
  induction members generalizing texts with
  | nil => simp
  | cons head rest ih =>
    obtain ⟨key, text⟩ := head
    cases text with
    | error e => cases joined
    | ok text =>
      have tail : ∃ texts, joinMembers rest = .ok texts := by
        cases text with
        | none => exact ⟨_, joined⟩
        | some text =>
          cases more : joinMembers rest with
          | error e =>
            simp only [joinMembers, ok_bind, more] at joined
            cases joined
          | ok texts => exact ⟨_, rfl⟩
      obtain ⟨texts, tail⟩ := tail
      intro p member
      rcases List.mem_cons.mp member with rfl | later
      · exact ⟨text, rfl⟩
      · exact ih tail p later

theorem mem_serializeProps {props : List (JsString × JsValue)} (depth : ℕ) (path : JsString)
    (member : (key, .number n) ∈ props) :
    (key, some <$> serialize depth (path ++ "." ++ key) (.number n)) ∈
      serializeProps depth path props := by
  induction props with
  | nil => cases member
  | cons head rest ih =>
    obtain ⟨k, w⟩ := head
    have tail : ∃ own, serializeProps depth path ((k, w) :: rest) =
        own :: serializeProps depth path rest := by
      cases w with
      | undefined => exact ⟨_, by rw [serializeProps]⟩
      | _ => exact ⟨_, by rw [serializeProps]; nofun⟩
    rcases List.mem_cons.mp member with same | later
    · cases same
      rw [serializeProps]
      · exact List.mem_cons_self
      · nofun
    · obtain ⟨own, split⟩ := tail
      rw [split]
      exact List.mem_cons_of_mem _ (ih later)

/-- Every number in an object that has canonical JSON is finite. -/
theorem isFinite_of_canonicalJson {props : List (JsString × JsValue)} {n : Number}
    (key : JsString) (text : canonicalJson (.object props) = .ok json) (member : (key, .number n) ∈ props) :
    n.isFinite = true := by
  rw [canonicalJson, serialize, withinDepth, if_neg (by decide)] at text
  cases joined : joinMembers ((serializeProps (0 + 1) "$" props).insertionSort (keyLe · ·)) with
  | error e => rw [joined] at text; cases text
  | ok texts =>
    have own := mem_serializeProps (0 + 1) "$" member
    obtain ⟨t, written⟩ := joinMembers_ok joined _ ((List.perm_insertionSort _ _).mem_iff.mpr own)
    by_contra infinite
    simp only [serialize, withinDepth] at written
    rw [if_neg (by decide), if_neg infinite] at written
    cases written

end Vaduno.Ledger

import Empyralis.Gateway.Codec

/-! The redaction of the credentials in a channel's state: `redactCredentials`.

    The state is a JSON value, of which `JSON.parse(JSON.stringify(state))` is a copy; the walk that follows rewrites
    the copy in place. -/

namespace Empyralis.Gateway.CredentialRedactor

open Codec

variable (stringKeys objectKeys : List JsString)

def redactedText : Json := .string (js "[REDACTED]")

def redactedObject : Json := .object [(js "redacted", .bool true)]

mutual

/-- The entries of an object after the walk. -/
def walk : List (JsString × Json) → List (JsString × Json)
  | [] => []
  | (key, value) :: entries =>
    (key, if stringKeys.contains key then redactedText
          else if objectKeys.contains key && value.isObject then redactedObject
          else walkValue value) :: walk entries

/-- An array is not walked. -/
def walkValue : Json → Json
  | .object fields => .object (walk fields)
  | value => value

end

/-- `redactCredentials` -/
def redactCredentials (state : List (JsString × Json)) : List (JsString × Json) := walk stringKeys objectKeys state

/-! ### What is to be hidden -/

/-- What stands under a key instead of its value; a key for objects hides an object or an array only. -/
def replacement (key : JsString) (value : Json) : Option Json :=
  if stringKeys.contains key then some redactedText
  else if objectKeys.contains key && value.isObject then some redactedObject
  else none

mutual

/-- The second value is the first with all that its keys tell to hide replaced, at any depth, and with the same shape
    and leaves elsewhere. -/
def Hidden : Json → Json → Prop
  | .array items, w => ∃ ws, w = .array ws ∧ HiddenItems items ws
  | .object fields, w => ∃ ws, w = .object ws ∧ HiddenFields fields ws
  | leaf, w => w = leaf

def HiddenItems : List Json → List Json → Prop
  | [], ws => ws = []
  | item :: items, ws => ∃ w rest, ws = w :: rest ∧ Hidden item w ∧ HiddenItems items rest

def HiddenFields : List (JsString × Json) → List (JsString × Json) → Prop
  | [], ws => ws = []
  | (key, value) :: fields, ws => ∃ w rest, ws = (key, w) :: rest ∧
      (match replacement stringKeys objectKeys key value with
        | some hidden => w = hidden
        | none => Hidden value w) ∧ HiddenFields fields rest

end

mutual

/-- All that is to be hidden is hidden already. -/
def Settled : Json → Prop
  | .array items => SettledItems items
  | .object fields => SettledFields fields
  | _ => True

def SettledItems : List Json → Prop
  | [] => True
  | item :: items => Settled item ∧ SettledItems items

def SettledFields : List (JsString × Json) → Prop
  | [] => True
  | (key, value) :: fields =>
    (match replacement stringKeys objectKeys key value with
      | some hidden => value = hidden
      | none => Settled value) ∧ SettledFields fields

end

mutual

/-- The arrays that the walk comes to are settled. -/
def ArraysSettled : List (JsString × Json) → Prop
  | [] => True
  | (key, value) :: fields =>
    (replacement stringKeys objectKeys key value = none → ArraysSettledIn value) ∧ ArraysSettled fields

def ArraysSettledIn : Json → Prop
  | .array items => SettledItems stringKeys objectKeys items
  | .object fields => ArraysSettled fields
  | _ => True

end

variable {stringKeys objectKeys}

mutual

/-- A value hides all by itself just when it is settled. -/
theorem hidden_self : ∀ v : Json, Hidden stringKeys objectKeys v v ↔ Settled stringKeys objectKeys v
  | .array items => by
    rw [Hidden, Settled, ← hiddenItems_self items]
    constructor
    · rintro ⟨ws, h, hitems⟩
      cases h
      exact hitems
    · exact fun h => ⟨items, rfl, h⟩
  | .object fields => by
    rw [Hidden, Settled, ← hiddenFields_self fields]
    constructor
    · rintro ⟨ws, h, hfields⟩
      cases h
      exact hfields
    · exact fun h => ⟨fields, rfl, h⟩
  | .null | .bool _ | .number _ | .string _ => by simp [Hidden, Settled]

theorem hiddenItems_self : ∀ items : List Json,
    HiddenItems stringKeys objectKeys items items ↔ SettledItems stringKeys objectKeys items
  | [] => by simp [HiddenItems, SettledItems]
  | item :: items => by
    rw [HiddenItems, SettledItems, ← hidden_self item, ← hiddenItems_self items]
    constructor
    · rintro ⟨w, rest, h, hitem, hitems⟩
      cases h
      exact ⟨hitem, hitems⟩
    · rintro ⟨hitem, hitems⟩
      exact ⟨item, items, rfl, hitem, hitems⟩

theorem hiddenFields_self : ∀ fields : List (JsString × Json),
    HiddenFields stringKeys objectKeys fields fields ↔ SettledFields stringKeys objectKeys fields
  | [] => by simp [HiddenFields, SettledFields]
  | (key, value) :: fields => by
    rw [HiddenFields, SettledFields, ← hidden_self value, ← hiddenFields_self fields]
    constructor
    · rintro ⟨w, rest, h, hvalue, hfields⟩
      cases h
      exact ⟨hvalue, hfields⟩
    · rintro ⟨hvalue, hfields⟩
      exact ⟨value, fields, rfl, hvalue, hfields⟩

end

/-- What the walk puts under a key. -/
theorem walk_cons (key : JsString) (value : Json) (fields : List (JsString × Json)) :
    walk stringKeys objectKeys ((key, value) :: fields) =
      (key, (replacement stringKeys objectKeys key value).getD (walkValue stringKeys objectKeys value)) ::
        walk stringKeys objectKeys fields := by
  rw [walk, replacement]
  split
  · rfl
  · split <;> rfl

mutual

/-- The walk hides all that is to be hidden just when nothing is left to hide in the arrays that it comes to. -/
theorem hidden_walk : ∀ fields : List (JsString × Json),
    HiddenFields stringKeys objectKeys fields (walk stringKeys objectKeys fields) ↔
      ArraysSettled stringKeys objectKeys fields
  | [] => by simp [HiddenFields, walk, ArraysSettled]
  | (key, value) :: fields => by
    rw [walk_cons, HiddenFields, ArraysSettled, ← hidden_walk fields, ← hidden_walkValue value]
    constructor
    · rintro ⟨w, rest, h, hvalue, hfields⟩
      cases h
      refine ⟨fun hnone => ?_, hfields⟩
      rw [hnone] at hvalue
      exact hvalue
    · rintro ⟨hvalue, hfields⟩
      refine ⟨_, _, rfl, ?_, hfields⟩
      cases hkey : replacement stringKeys objectKeys key value with
      | some hidden => rfl
      | none => exact hvalue hkey

theorem hidden_walkValue : ∀ value : Json,
    Hidden stringKeys objectKeys value (walkValue stringKeys objectKeys value) ↔
      ArraysSettledIn stringKeys objectKeys value
  | .array items => by
    rw [walkValue, ArraysSettledIn, hidden_self, Settled]
    exact fun fields h => by cases h
  | .object fields => by
    rw [walkValue, ArraysSettledIn, Hidden, ← hidden_walk fields]
    constructor
    · rintro ⟨ws, h, hfields⟩
      cases h
      exact hfields
    · exact fun h => ⟨_, rfl, h⟩
  | .null | .bool _ | .number _ | .string _ => by simp [Hidden, walkValue, ArraysSettledIn]

end

variable (stringKeys objectKeys) in
/-- Redaction is complete, and changes nothing else, just when the arrays it comes to hold nothing to redact. -/
theorem redactCredentials_complete_iff (state : List (JsString × Json)) :
    HiddenFields stringKeys objectKeys state (redactCredentials stringKeys objectKeys state) ↔
      ArraysSettled stringKeys objectKeys state := hidden_walk state

/-- A credential in an object in an array. -/
def listedCredential : List (JsString × Json) :=
  [(js "list", .array [.object [(js "apiHash", .string (js "abc"))]])]

/-- The credential is not hidden, since arrays are left as they are. -/
theorem listedCredential_leaks :
    ¬∀ (stringKeys objectKeys : List JsString) (state : List (JsString × Json)),
      HiddenFields stringKeys objectKeys state (redactCredentials stringKeys objectKeys state) := by
  intro h
  obtain ⟨hlist, -⟩ := hidden_walk _ |>.mp (h [js "apiHash"] [] listedCredential)
  obtain ⟨⟨hkey, -⟩, -⟩ := hlist (by decide)
  exact absurd (Json.string.inj hkey) (by decide)

end Empyralis.Gateway.CredentialRedactor

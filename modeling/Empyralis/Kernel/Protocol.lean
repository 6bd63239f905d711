import Empyralis.Lib.Text
import Mathlib.Data.List.Basic

/-! How the runtime kernel reads a request: JSON values, the typed access to their fields, and the
    normal form of the tokens in them. -/

namespace Empyralis.Kernel

def u64Max : Nat := 0xFFFFFFFFFFFFFFFF

/-- A JSON number; an integer that fits in 64 bits is kept exactly. -/
inductive Number where
  | posInt (n : Nat)
  | negInt (n : Nat)
  | float (text : String)

def Number.asU64 : Number → Option Nat
  | .posInt n => if n ≤ u64Max then some n else none
  | _ => none

/-- The values of `serde_json`. -/
inductive Json where
  | null
  | bool (value : Bool)
  | number (value : Number)
  | string (value : String)
  | array (items : List Json)
  | object (fields : List (String × Json))

namespace Json

def get (key : String) : Json → Option Json
  | .object fields => fields.lookup key
  | _ => none

def asStr : Json → Option String
  | .string value => some value
  | _ => none

def asArray : Json → Option (List Json)
  | .array items => some items
  | _ => none

def asU64 : Json → Option Nat
  | .number value => value.asU64
  | _ => none

end Json

/-- `str::trim`, and nothing for what is then empty. -/
def present (value : String) : Option String :=
  let trimmed := Text.trim Text.rustSpace value
  if trimmed = "" then none else some trimmed

@[simp] theorem present_of_present {value text : String} (h : present value = some text) :
    present text = some text := by
  simp only [present] at h
  split at h <;> [simp at h; skip]
  rename_i hne
  rw [Option.some.injEq] at h
  rw [← h, present, Text.trim_trim, if_neg hne]

/-- `string_field` -/
def stringField (input : Json) (key : String) : Option String :=
  ((input.get key).bind Json.asStr).bind present

/-- `string_vec_field` -/
def stringVecField (input : Json) (key : String) : List String :=
  (((input.get key).bind Json.asArray).getD []).filterMap fun item => item.asStr.bind present

/-- `string_field` of the first of two keys that has one. -/
def stringFieldOr (input : Json) (key other : String) : Option String :=
  (stringField input key).or (stringField input other)

def tokenChar : Char → Char
  | '-' | ' ' | '/' | '.' => '_'
  | c => c

/-- `normalize_token` -/
def normalizeToken (value : String) : String :=
  let cs := ((Text.trim Text.rustSpace value).toList.map Char.toLower).map tokenChar
  String.ofList (['_'].intercalate ((cs.splitOn '_').filter (· ≠ [])))

/-- `boolish` -/
def boolish (input : Json) (key : String) : Bool :=
  match input.get key with
  | some (.bool value) => value
  | some (.string value) =>
    ["1", "true", "yes", "on", "enabled", "active", "force", "forced"].contains
      (normalizeToken value)
  | some (.number value) => 0 < (value.asU64.getD 0)
  | _ => false

end Empyralis.Kernel

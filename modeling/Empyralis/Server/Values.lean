import Empyralis.Lib.Text

/-! Values of Python as they come out of JSON. -/

namespace Empyralis.Server
open Text (strip)

/-- A float, by its `repr`, which is never blank. -/
structure PyFloat where
  text : String
  trimmed : strip text = text
  written : text ≠ ""
  deriving DecidableEq

inductive Value where
  | null
  | bool (value : Bool)
  | int (value : Int)
  | float (value : PyFloat)
  | string (text : String)
  | array (items : List Value)
  | object (fields : List (String × Value))

abbrev Fields := List (String × Value)

namespace Value

/-- `bool(value)` -/
def truthy : Value → Bool
  | .null => false
  | .bool value => value
  | .int value => value ≠ 0
  | .float value => value.text ≠ "0.0" && value.text ≠ "-0.0"
  | .string text => text ≠ ""
  | .array items => !items.isEmpty
  | .object fields => !fields.isEmpty

/-- `str(value)`; `repr` is the text of a list or a dictionary. -/
def str (repr : Value → String) : Value → String
  | .null => "None"
  | .bool true => "True"
  | .bool false => "False"
  | .int value => toString value
  | .float value => value.text
  | .string text => text
  | value => repr value

/-- `str(value or "").strip()` -/
def token (repr : Value → String) (value : Value) : String :=
  if value.truthy then strip (value.str repr) else ""

/-! ### `json.dumps(value, ensure_ascii=True, indent=2)` -/

def hexDigit (n : Nat) : Char := Char.ofNat (if n < 10 then 48 + n else 87 + n)

def unicodeEscape (unit : Nat) : List Char :=
  ['\\', 'u', hexDigit (unit / 4096), hexDigit (unit / 256 % 16), hexDigit (unit / 16 % 16),
    hexDigit (unit % 16)]

/-- What is not printable ASCII is written as one or two units of UTF-16. -/
def escapeChar (c : Char) : List Char :=
  let n := c.toNat
  if c = '"' ∨ c = '\\' then ['\\', c]
  else if c = '\n' then ['\\', 'n']
  else if c = '\r' then ['\\', 'r']
  else if c = '\t' then ['\\', 't']
  else if n = 8 then ['\\', 'b']
  else if n = 12 then ['\\', 'f']
  else if 0x20 ≤ n ∧ n ≤ 0x7E then [c]
  else if n < 0x10000 then unicodeEscape n
  else
    unicodeEscape (0xD800 + (n - 0x10000) / 1024) ++ unicodeEscape (0xDC00 + (n - 0x10000) % 1024)

def quote (text : String) : String := String.ofList ('"' :: text.toList.flatMap escapeChar ++ ['"'])

/-- A new line, indented for this depth. -/
def lineBreak (depth : Nat) : String := String.ofList ('\n' :: List.replicate (2 * depth) ' ')

mutual

def dumps (depth : Nat) : Value → String
  | .null => "null"
  | .bool true => "true"
  | .bool false => "false"
  | .int value => toString value
  | .float value => value.text
  | .string text => quote text
  | .array [] => "[]"
  | .array items => "[" ++ dumpItems (depth + 1) items ++ lineBreak depth ++ "]"
  | .object [] => "\x7b\x7d"
  | .object fields => "\x7b" ++ dumpFields (depth + 1) fields ++ lineBreak depth ++ "\x7d"

def dumpItems (depth : Nat) : List Value → String
  | [] => ""
  | [item] => lineBreak depth ++ item.dumps depth
  | item :: items => lineBreak depth ++ item.dumps depth ++ "," ++ dumpItems depth items

def dumpFields (depth : Nat) : List (String × Value) → String
  | [] => ""
  | [(key, value)] => lineBreak depth ++ quote key ++ ": " ++ value.dumps depth
  | (key, value) :: fields =>
    lineBreak depth ++ quote key ++ ": " ++ value.dumps depth ++ "," ++ dumpFields depth fields

end

/-- `_workflow_text_payload` -/
def payloadText : Value → String
  | .string text => strip text
  | .array items => (Value.array items).dumps 0
  | .object fields => (Value.object fields).dumps 0
  | value => if value.truthy then strip (value.str fun _ => "") else ""

end Value

/-- `fields.get(key)` -/
def Fields.get (fields : Fields) (key : String) : Value := (fields.lookup key).getD .null

/-- `fields[key] = value`, which stays where it is if the key is there. -/
def Fields.put (fields : Fields) (key : String) (value : Value) : Fields :=
  if fields.any (·.1 = key) then fields.map fun field => if field.1 = key then (key, value) else field
  else fields ++ [(key, value)]

theorem Fields.get_cons (name key : String) (value : Value) (fields : Fields) :
    Fields.get ((name, value) :: fields) key = if key = name then value else Fields.get fields key := by
  rw [Fields.get, List.lookup_cons]
  by_cases h : key = name
  · simp [h]
  · rw [if_neg h, beq_eq_false_iff_ne.mpr h, Fields.get]

/-- A key that is there, written in place. -/
def replaceField (key : String) (value : Value) (field : String × Value) : String × Value :=
  if field.1 = key then (key, value) else field

theorem lookup_replace_of_ne {key other : String} (value : Value) (h : other ≠ key) :
    ∀ fields : Fields, (fields.map (replaceField key value)).lookup other = fields.lookup other
  | [] => rfl
  | (k, v) :: fields => by
    rw [List.map_cons, replaceField]
    split
    · rename_i hk
      obtain rfl : k = key := hk
      rw [List.lookup_cons, List.lookup_cons, beq_eq_false_iff_ne.mpr h]
      exact lookup_replace_of_ne value h fields
    · rw [List.lookup_cons, List.lookup_cons, lookup_replace_of_ne value h fields]

theorem lookup_replace_self (key : String) (value : Value) :
    ∀ fields : Fields, fields.any (·.1 = key) →
      (fields.map (replaceField key value)).lookup key = some value
  | [], h => by simp at h
  | (k, v) :: fields, h => by
    rw [List.map_cons, replaceField]
    split
    · simp
    · rename_i hk
      rw [List.lookup_cons, beq_eq_false_iff_ne.mpr (Ne.symm hk)]
      exact lookup_replace_self key value fields (by simpa [hk] using h)

theorem Fields.lookup_put (fields : Fields) (key other : String) (value : Value) :
    (Fields.put fields key value).lookup other = if other = key then some value else fields.lookup other := by
  have hmap : (fields.map fun field => if field.1 = key then (key, value) else field) =
      fields.map (replaceField key value) := rfl
  rw [Fields.put, hmap]
  by_cases ho : other = key
  · subst ho
    rw [if_pos rfl]
    split
    · rename_i hany
      exact lookup_replace_self other value fields hany
    · rename_i hany
      have hnone : fields.lookup other = none := by
        rw [List.lookup_eq_none_iff]
        intro field hfield
        rw [bne_iff_ne]
        intro heq
        exact hany (List.any_eq_true.mpr ⟨field, hfield, by simp [heq]⟩)
      rw [List.lookup_append, hnone]
      simp
  · rw [if_neg ho]
    split
    · exact lookup_replace_of_ne value ho fields
    · rw [List.lookup_append]
      simp [List.lookup_cons, beq_eq_false_iff_ne.mpr ho]

@[simp] theorem Fields.get_put (fields : Fields) (key other : String) (value : Value) :
    Fields.get (Fields.put fields key value) other =
      if other = key then value else Fields.get fields other := by
  rw [Fields.get, Fields.lookup_put]
  split
  · rfl
  · rfl

/-- `fields || other` of two JSON objects -/
def Fields.merge (fields other : Fields) : Fields :=
  other.foldl (fun merged field => merged.put field.1 field.2) fields

theorem Fields.mem_put {fields : Fields} {key : String} {value : Value} {field : String × Value}
    (h : field ∈ fields.put key value) : field = (key, value) ∨ field ∈ fields := by
  unfold Fields.put at h
  split at h
  · obtain ⟨old, hold, heq⟩ := List.mem_map.mp h
    by_cases hkey : old.1 = key
    · exact .inl (by rw [← heq, if_pos hkey])
    · exact .inr (by rw [← heq, if_neg hkey]; exact hold)
  · obtain hmem | hnew := List.mem_append.mp h
    · exact .inr hmem
    · exact .inl (List.mem_singleton.mp hnew)

theorem Fields.mem_merge {other : Fields} {field : String × Value} : ∀ {fields : Fields},
    field ∈ fields.merge other → field ∈ fields ∨ field ∈ other := by
  induction other with
  | nil => exact fun h => .inl h
  | cons first other ih =>
    intro fields h
    have hmerged : field ∈ (fields.put first.1 first.2).merge other := h
    obtain hput | hmem := ih hmerged
    · obtain rfl | hold := Fields.mem_put hput
      · exact .inr List.mem_cons_self
      · exact .inl hold
    · exact .inr (List.mem_cons_of_mem _ hmem)

/-- A dictionary: no key stands twice. -/
def Fields.Nodup (fields : Fields) : Prop := (fields.map Prod.fst).Nodup

/-- A key that is put is there once. -/
theorem Fields.nodup_put {fields : Fields} (h : fields.Nodup) (key : String) (value : Value) :
    (fields.put key value).Nodup := by
  unfold Fields.put
  split
  · have hkeys : (fields.map fun field => if field.1 = key then (key, value) else field).map Prod.fst =
        fields.map Prod.fst := by
      rw [List.map_map]
      refine List.map_congr_left fun field _ => ?_
      dsimp only [Function.comp_apply]
      split
      · exact Eq.symm ‹_›
      · rfl
    unfold Fields.Nodup
    rw [hkeys]
    exact h
  · rename_i hnew
    unfold Fields.Nodup
    rw [List.map_append, List.map_cons, List.map_nil]
    refine List.nodup_append.mpr ⟨h, List.pairwise_singleton _ key, ?_⟩
    intro name hname other hother heq
    obtain rfl := List.mem_singleton.mp hother
    obtain ⟨field, hfield, rfl⟩ := List.mem_map.mp hname
    exact hnew (List.any_eq_true.mpr ⟨field, hfield, by simp [heq]⟩)

theorem Fields.nodup_merge {other : Fields} : ∀ {fields : Fields}, fields.Nodup → (fields.merge other).Nodup := by
  induction other with
  | nil => exact fun h => h
  | cons field other ih => exact fun h => ih (Fields.nodup_put h field.1 field.2)

/-- A key of the second dictionary is read from it, every other key from the first. -/
theorem Fields.lookup_merge {other : Fields} (h : other.Nodup) (key : String) : ∀ fields : Fields,
    (fields.merge other).lookup key = (other.lookup key).or (fields.lookup key) := by
  induction other with
  | nil => exact fun fields => rfl
  | cons field other ih =>
    intro fields
    obtain ⟨hnew, hrest⟩ := List.nodup_cons.mp h
    have hmerge : Fields.merge fields (field :: other) = (fields.put field.1 field.2).merge other := rfl
    rw [hmerge, ih hrest, Fields.lookup_put, List.lookup_cons]
    by_cases hkey : key = field.1
    · subst hkey
      have hnone : other.lookup field.1 = none := by
        rw [List.lookup_eq_none_iff]
        intro later hlater
        rw [bne_iff_ne]
        intro heq
        exact hnew (List.mem_map.mpr ⟨later, hlater, heq.symm⟩)
      simp [hnone]
    · rw [if_neg hkey, beq_eq_false_iff_ne.mpr hkey]

end Empyralis.Server

import Empyralis.Kernel.Protocol
import Empyralis.Lib.Occurrence

/-! The redaction of diagnostics in the runtime kernel: `redact_value`.

    A value under a sensitive key is replaced as a whole; a string that holds a marker of a secret is cut after its
    first twelve characters. A string is short by its bytes but cut by its characters, so a marked string of more than
    twelve bytes in at most twelve characters is not cut at all. -/

namespace Empyralis.Kernel.Redaction

open Occurrence

/-- `SENSITIVE_KEYS` -/
def sensitiveKeys : List String :=
  ["api_key", "apikey", "authorization", "auth", "bearer", "client_secret", "cookie", "credential", "key", "password",
    "private_key", "refresh_token", "secret", "session", "token"]

/-- `SECRET_MARKERS` -/
def secretMarkers : List String := ["bearer ", "api-key ", "api_key", "sk-", "sk-ant-", "ghp_", "gho_", "xoxb-"]

/-- `str::contains` -/
def contains (text : List Char) (part : String) : Bool := occurs part.toList text

/-- A key that has one of the words in it. -/
def isSensitiveKey (key : String) : Bool :=
  let normalized := ((Text.trimList Text.rustSpace key.toList).map Char.toLower).map fun c => if c = '-' then '_' else c
  sensitiveKeys.any fun sensitiveKey => normalized == sensitiveKey.toList || contains normalized sensitiveKey

/-- The bytes of a text in UTF-8. -/
def byteLen (value : String) : Nat := (value.toList.map Char.utf8Size).foldr (· + ·) 0

def redactedMark : String := "***REDACTED***"

def cutMark : String := "...REDACTED"

/-- One of the markers occurs in the text in lower case. -/
def isMarked (value : String) : Bool :=
  let lower := value.toList.map Char.toLower
  secretMarkers.any (contains lower)

/-- A text that is marked is cut off after twelve characters. -/
def redactString (value : String) : String :=
  if isMarked value then
    if byteLen value ≤ 12 then redactedMark
    else
      let head := String.ofList (value.toList.take 12)
      head ++ cutMark
  else value

/-- An item of an array has no key. -/
def sensitive (key : Option String) : Bool := key.any isSensitiveKey

mutual

/-- `redact_value`: a sensitive key hides whatever is under it. -/
def redactValue (key : Option String) (value : Json) : Json :=
  if sensitive key then .string redactedMark
  else
    match value with
    | .object fields => .object (redactFields fields)
    | .array items => .array (redactItems items)
    | .string text => .string (redactString text)
    | other => other

def redactFields : List (String × Json) → List (String × Json)
  | [] => []
  | (key, child) :: fields => (key, redactValue (some key) child) :: redactFields fields

def redactItems : List Json → List Json
  | [] => []
  | item :: items => redactValue none item :: redactItems items

end

/-! ### What is to be hidden -/

/-- A text that is not given in full: a mark stands for it, or for all of it from some character on. -/
def Cut (value out : String) : Prop :=
  out = redactedMark ∨ ∃ kept rest : String, rest ≠ "" ∧ value = kept ++ rest ∧ out = kept ++ cutMark

mutual

/-- The second value is the first with a mark under its sensitive keys, at any depth, its marked strings cut, and the
    same keys, lengths and leaves elsewhere. -/
def Redacted (key : Option String) (value w : Json) : Prop :=
  if sensitive key then w = .string redactedMark
  else
    match value with
    | .object fields => ∃ ws, w = .object ws ∧ RedactedFields fields ws
    | .array items => ∃ ws, w = .array ws ∧ RedactedItems items ws
    | .string text => ∃ out, w = .string out ∧ if isMarked text then Cut text out else out = text
    | other => w = other

def RedactedFields : List (String × Json) → List (String × Json) → Prop
  | [], ws => ws = []
  | (key, child) :: fields, ws =>
    ∃ w rest, ws = (key, w) :: rest ∧ Redacted (some key) child w ∧ RedactedFields fields rest

def RedactedItems : List Json → List Json → Prop
  | [], ws => ws = []
  | item :: items, ws => ∃ w rest, ws = w :: rest ∧ Redacted none item w ∧ RedactedItems items rest

end

/-- Marked, and longer than twelve in bytes but not in characters. -/
def Uncut (value : String) : Prop := isMarked value = true ∧ 12 < byteLen value ∧ value.toList.length ≤ 12

instance (value : String) : Decidable (Uncut value) :=
  inferInstanceAs (Decidable (isMarked value = true ∧ 12 < byteLen value ∧ value.toList.length ≤ 12))

mutual

/-- No string outside of sensitive keys is one that is not cut. -/
def Cuttable (key : Option String) (value : Json) : Prop :=
  sensitive key = false →
    match value with
    | .object fields => CuttableFields fields
    | .array items => CuttableItems items
    | .string text => ¬Uncut text
    | _ => True

def CuttableFields : List (String × Json) → Prop
  | [] => True
  | (key, child) :: fields => Cuttable (some key) child ∧ CuttableFields fields

def CuttableItems : List Json → Prop
  | [] => True
  | item :: items => Cuttable none item ∧ CuttableItems items

end

/-! ### Strings -/

theorem byteLen_append (s t : String) : byteLen (s ++ t) = byteLen s + byteLen t := by
  rw [byteLen, String.toList_append, List.map_append, List.foldr_append, byteLen, byteLen]
  induction s.toList with
  | nil => exact (Nat.zero_add _).symm
  | cons c cs ih => rw [List.map_cons, List.foldr_cons, List.foldr_cons, ih, Nat.add_assoc]

theorem length_le_byteLen (s : String) : s.toList.length ≤ byteLen s := by
  rw [byteLen]
  induction s.toList with
  | nil => exact Nat.zero_le _
  | cons c cs ih =>
    have hpos : 0 < c.utf8Size := Char.utf8Size_pos c
    rw [List.map_cons, List.foldr_cons, List.length_cons]
    omega

theorem redactedMark_not_marked : isMarked redactedMark = false := by decide

/-- A marked string is cut just when it is short in bytes or long in characters. -/
theorem cut_redactString {value : String} (h : isMarked value = true) :
    Cut value (redactString value) ↔ ¬Uncut value := by
  rw [redactString, if_pos h]
  by_cases hbytes : byteLen value ≤ 12
  · rw [if_pos hbytes]
    exact iff_of_true (.inl rfl) fun huncut => absurd huncut.2.1 (Nat.not_lt.mpr hbytes)
  · rw [if_neg hbytes]
    constructor
    · rintro hcut ⟨-, -, hchars⟩
      have hall : String.ofList (value.toList.take 12) = value := by
        rw [List.take_of_length_le hchars, String.ofList_toList]
      dsimp only at hcut
      rw [hall] at hcut
      rcases hcut with hmark | ⟨kept, rest, hrest, hvalue, hout⟩
      · have hlast : (value ++ cutMark).toList.getLast? = redactedMark.toList.getLast? := by rw [hmark]
        rw [String.toList_append, List.getLast?_append_of_ne_nil _ (by decide)] at hlast
        exact absurd hlast (by decide)
      · have hkept : value = kept := by
          have hlists : value.toList ++ cutMark.toList = kept.toList ++ cutMark.toList := by
            rw [← String.toList_append, ← String.toList_append, hout]
          exact String.toList_injective (List.append_cancel_right hlists)
        rw [hkept] at hvalue
        have hnone : kept.toList ++ rest.toList = kept.toList ++ [] := by
          rw [← String.toList_append, ← hvalue, List.append_nil]
        exact hrest (String.toList_injective (List.append_cancel_left hnone))
    · intro huncut
      have hlong : 12 < value.toList.length := by
        by_contra hshort
        exact huncut ⟨h, Nat.lt_of_not_le hbytes, Nat.le_of_not_lt hshort⟩
      refine .inr ⟨_, String.ofList (value.toList.drop 12), ?_, ?_, rfl⟩
      · intro hempty
        have hnil : value.toList.drop 12 = [] := String.ofList_eq_empty_iff.mp hempty
        have hle : value.toList.length ≤ 12 := List.drop_eq_nil_iff.mp hnil
        omega
      · rw [← String.ofList_append, List.take_append_drop, String.ofList_toList]

/-- A string that is not left uncut is the same after a second redaction. -/
theorem redactString_redactString {value : String} (h : ¬Uncut value) :
    redactString (redactString value) = redactString value := by
  by_cases hmarked : isMarked value = true
  · by_cases hbytes : byteLen value ≤ 12
    · have hout : redactString value = redactedMark := by rw [redactString, if_pos hmarked, if_pos hbytes]
      rw [hout, redactString, redactedMark_not_marked]
      rfl
    · have hlong : 12 < value.toList.length := by
        by_contra hshort
        exact h ⟨hmarked, Nat.lt_of_not_le hbytes, Nat.le_of_not_lt hshort⟩
      have hout : redactString value = String.ofList (value.toList.take 12) ++ cutMark := by
        rw [redactString, if_pos hmarked, if_neg hbytes]
      have hlength : (value.toList.take 12).length = 12 := List.length_take_of_le (Nat.le_of_lt hlong)
      have htake : (String.ofList (value.toList.take 12) ++ cutMark).toList.take 12 = value.toList.take 12 := by
        rw [String.toList_append, String.toList_ofList, List.take_left' hlength]
      have hstill : ¬byteLen (String.ofList (value.toList.take 12) ++ cutMark) ≤ 12 := by
        have hchars : 12 ≤ byteLen (String.ofList (value.toList.take 12)) := by
          have hle := length_le_byteLen (String.ofList (value.toList.take 12))
          rwa [String.toList_ofList, hlength] at hle
        have hcut : byteLen cutMark = 11 := by decide
        rw [byteLen_append, hcut]
        omega
      rw [hout, redactString]
      by_cases hagain : isMarked (String.ofList (value.toList.take 12) ++ cutMark) = true
      · rw [if_pos hagain, if_neg hstill, htake]
      · rw [if_neg hagain]
  · have hsame : redactString value = value := by rw [redactString, if_neg hmarked]
    rw [hsame, hsame]

/-! ### Values -/

section

variable {key : Option String}

theorem redactValue_sensitive (h : sensitive key = true) (value : Json) :
    redactValue key value = .string redactedMark := by
  unfold redactValue
  rw [if_pos h]

theorem redactValue_object (h : sensitive key = false) (fields : List (String × Json)) :
    redactValue key (.object fields) = .object (redactFields fields) := by
  rw [redactValue, h, if_neg Bool.false_ne_true]

theorem redactValue_array (h : sensitive key = false) (items : List Json) :
    redactValue key (.array items) = .array (redactItems items) := by
  rw [redactValue, h, if_neg Bool.false_ne_true]

theorem redactValue_string (h : sensitive key = false) (text : String) :
    redactValue key (.string text) = .string (redactString text) := by
  rw [redactValue, h, if_neg Bool.false_ne_true]

end

mutual

/-- By recursion over the value, with the key that it stands under. -/
theorem redacted_redactValue (key : Option String) : ∀ value : Json,
    Redacted key value (redactValue key value) ↔ Cuttable key value
  | .object fields => by
    unfold Redacted Cuttable
    cases hkey : sensitive key with
    | true => simp [redactValue_sensitive hkey]
    | false => simp [redactValue_object hkey, ← redacted_redactFields fields]
  | .array items => by
    unfold Redacted Cuttable
    cases hkey : sensitive key with
    | true => simp [redactValue_sensitive hkey]
    | false => simp [redactValue_array hkey, ← redacted_redactItems items]
  | .string text => by
    unfold Redacted Cuttable
    cases hkey : sensitive key with
    | true => simp [redactValue_sensitive hkey]
    | false =>
      rw [redactValue_string hkey]
      by_cases hmarked : isMarked text = true
      · simpa [hmarked] using cut_redactString hmarked
      · simp [hmarked, redactString, Uncut]
  | .null | .bool _ | .number _ => by
    unfold Redacted redactValue Cuttable
    cases sensitive key <;> simp

theorem redacted_redactFields : ∀ fields : List (String × Json),
    RedactedFields fields (redactFields fields) ↔ CuttableFields fields
  | [] => by simp [RedactedFields, redactFields, CuttableFields]
  | (key, child) :: fields => by
    rw [RedactedFields, redactFields, CuttableFields, ← redacted_redactValue (some key) child,
      ← redacted_redactFields fields]
    constructor
    · rintro ⟨w, rest, h, hchild, hfields⟩
      cases h
      exact ⟨hchild, hfields⟩
    · rintro ⟨hchild, hfields⟩
      exact ⟨_, _, rfl, hchild, hfields⟩

theorem redacted_redactItems : ∀ items : List Json,
    RedactedItems items (redactItems items) ↔ CuttableItems items
  | [] => by simp [RedactedItems, redactItems, CuttableItems]
  | item :: items => by
    rw [RedactedItems, redactItems, CuttableItems, ← redacted_redactValue none item, ← redacted_redactItems items]
    constructor
    · rintro ⟨w, rest, h, hitem, hitems⟩
      cases h
      exact ⟨hitem, hitems⟩
    · rintro ⟨hitem, hitems⟩
      exact ⟨_, _, rfl, hitem, hitems⟩

end

mutual

/-- What was redacted is not changed by a second redaction. -/
theorem redactValue_redactValue (key : Option String) : ∀ {value : Json}, Cuttable key value →
    redactValue key (redactValue key value) = redactValue key value
  | .object fields, h => by
    unfold Cuttable at h
    cases hkey : sensitive key with
    | true => rw [redactValue_sensitive hkey, redactValue_sensitive hkey]
    | false => rw [redactValue_object hkey, redactValue_object hkey, redactFields_redactFields (h hkey)]
  | .array items, h => by
    unfold Cuttable at h
    cases hkey : sensitive key with
    | true => rw [redactValue_sensitive hkey, redactValue_sensitive hkey]
    | false => rw [redactValue_array hkey, redactValue_array hkey, redactItems_redactItems (h hkey)]
  | .string text, h => by
    unfold Cuttable at h
    cases hkey : sensitive key with
    | true => rw [redactValue_sensitive hkey, redactValue_sensitive hkey]
    | false => rw [redactValue_string hkey, redactValue_string hkey, redactString_redactString (h hkey)]
  | .null, _ | .bool _, _ | .number _, _ => by
    cases hkey : sensitive key with
    | true => rw [redactValue_sensitive hkey, redactValue_sensitive hkey]
    | false => simp [redactValue, hkey]

theorem redactFields_redactFields : ∀ {fields : List (String × Json)}, CuttableFields fields →
    redactFields (redactFields fields) = redactFields fields
  | [], _ => rfl
  | (key, child) :: fields, h => by
    rw [CuttableFields] at h
    rw [redactFields, redactFields, redactValue_redactValue (some key) h.1, redactFields_redactFields h.2]

theorem redactItems_redactItems : ∀ {items : List Json}, CuttableItems items →
    redactItems (redactItems items) = redactItems items
  | [], _ => rfl
  | item :: items, h => by
    rw [CuttableItems] at h
    rw [redactItems, redactItems, redactValue_redactValue none h.1, redactItems_redactItems h.2]

end

/-- Redaction hides what it is to hide, keeps the rest and is idempotent just when each marked string outside of
    sensitive keys that is longer than twelve bytes is longer than twelve characters. -/
theorem redactValue_iff (value : Json) :
    (Redacted none value (redactValue none value) ∧
      redactValue none (redactValue none value) = redactValue none value) ↔ Cuttable none value := by
  rw [redacted_redactValue]
  exact ⟨fun h => h.1, fun h => ⟨h, redactValue_redactValue none h⟩⟩

/-- Five characters after a marker, each of three bytes. -/
def wideSecret : Json := .string "sk-密密密密密"

/-- A secret of few but wide characters comes out whole. -/
theorem wideSecret_given :
    ¬∀ value : Json, Redacted none value (redactValue none value) ∧
      redactValue none (redactValue none value) = redactValue none value := by
  intro h
  have hcuttable : Cuttable none wideSecret := (redacted_redactValue none wideSecret).mp (h wideSecret).1
  unfold Cuttable at hcuttable
  exact hcuttable rfl (by decide)

end Empyralis.Kernel.Redaction

import Mathlib.Data.List.Basic

/-! The search for a pattern from left to right: where a match begins it is taken, and the search goes on behind it. It
    is how a global regular expression finds its matches, where no match is empty. -/

namespace Empyralis.Scan

variable {α β : Type*}

/-- What is matched at a place, and the number of symbols that it takes behind the first; the flag tells whether the
    place is the beginning of the text. -/
abbrev Pattern (α β : Type*) := Bool → α → List α → Option (β × Nat)

/-- Matches, each with the text since the one before it, and the text behind the last. -/
abbrev Pieces (α β : Type*) := List (List α × β) × List α

/-- One more symbol in front. -/
def Pieces.push (x : α) : Pieces α β → Pieces α β
  | ([], last) => ([], x :: last)
  | ((run, b) :: pieces, last) => ((x :: run, b) :: pieces, last)

variable (pattern : Pattern α β)

/-- The pieces of a text behind its first `skip` symbols. -/
def scan : Bool → Nat → List α → Pieces α β
  | _, _, [] => ([], [])
  | _, skip + 1, _ :: rest => scan false skip rest
  | first, 0, x :: rest =>
    match pattern first x rest with
    | some (b, more) => (([], b) :: (scan false more rest).1, (scan false more rest).2)
    | none => (scan false 0 rest).push x

def pieces (text : List α) : Pieces α β := scan pattern true 0 text

/-- The text with something in the place of each match. -/
def Pieces.join (f : β → List α) (p : Pieces α β) : List α := p.1.flatMap (fun piece => piece.1 ++ f piece.2) ++ p.2

/-- `String.prototype.replace` with a global pattern -/
def replace (f : β → List α) (text : List α) : List α := (pieces pattern text).join f

def found (text : List α) : List β := (pieces pattern text).1.map Prod.snd

variable {pattern} {f : β → List α}

theorem join_push (x : α) (p : Pieces α β) : (p.push x).join f = x :: p.join f := by
  obtain ⟨pieces, last⟩ := p
  cases pieces with
  | nil => rfl
  | cons piece pieces => rfl

theorem join_cons (run : List α) (b : β) (p : List (List α × β)) (last : List α) :
    Pieces.join f ((run, b) :: p, last) = run ++ f b ++ Pieces.join f (p, last) := by
  simp [Pieces.join]

/-- A match tells what it has taken. -/
def Reads (pattern : Pattern α β) (source : β → List α) : Prop :=
  ∀ first x rest b more, pattern first x rest = some (b, more) → source b = x :: rest.take more

/-- The pieces are the text, taken apart. -/
theorem join_scan {source : β → List α} (hreads : Reads pattern source) (text : List α) :
    ∀ first skip, (scan pattern first skip text).join source = text.drop skip := by
  induction text with
  | nil =>
    intro first skip
    cases skip <;> rfl
  | cons x rest ih =>
    intro first skip
    cases skip with
    | succ skip => exact ih false skip
    | zero =>
      rw [scan]
      cases hmatch : pattern first x rest with
      | none =>
        dsimp only
        rw [join_push, ih false 0, List.drop_zero, List.drop_zero]
      | some result =>
        obtain ⟨b, more⟩ := result
        dsimp only
        rw [join_cons, List.nil_append, hreads first x rest b more hmatch]
        refine (congrArg ((x :: rest.take more) ++ ·) (ih false more)).trans ?_
        rw [List.cons_append, List.take_append_drop, List.drop_zero]

theorem join_pieces {source : β → List α} (hreads : Reads pattern source) (text : List α) :
    (pieces pattern text).join source = text := join_scan hreads text true 0

theorem mem_join {p : Pieces α β} {x : α} :
    x ∈ p.join f ↔ (∃ piece ∈ p.1, x ∈ piece.1 ∨ x ∈ f piece.2) ∨ x ∈ p.2 := by
  rw [Pieces.join, List.mem_append, List.mem_flatMap]
  simp only [List.mem_append]

/-- What a match takes is of the text. -/
theorem mem_of_mem_source {source : β → List α} (hreads : Reads pattern source) {text : List α} {b : β}
    (hb : b ∈ found pattern text) {x : α} (hx : x ∈ source b) : x ∈ text := by
  obtain ⟨piece, hpiece, rfl⟩ := List.mem_map.mp hb
  rw [← join_pieces hreads text, mem_join]
  exact .inl ⟨piece, hpiece, .inr hx⟩

theorem replace_congr {g : β → List α} {text : List α} (h : ∀ b ∈ found pattern text, f b = g b) :
    replace pattern f text = replace pattern g text := by
  rw [replace, replace, Pieces.join, Pieces.join, List.flatMap_congr]
  intro piece hpiece
  rw [h piece.2 (List.mem_map_of_mem hpiece)]

theorem push_snd (x : α) (p : Pieces α β) : (p.push x).1.map Prod.snd = p.1.map Prod.snd := by
  obtain ⟨pieces, last⟩ := p
  cases pieces with
  | nil => rfl
  | cons piece pieces => rfl

/-- Each match was found at some place. -/
theorem match_of_mem_scan {text : List α} {b : β} : ∀ {first skip}, b ∈ (scan pattern first skip text).1.map Prod.snd →
    ∃ first x rest more, pattern first x rest = some (b, more) := by
  induction text with
  | nil =>
    intro first skip h
    cases skip <;> cases h
  | cons x rest ih =>
    intro first skip h
    cases skip with
    | succ skip => exact ih h
    | zero =>
      rw [scan] at h
      cases hmatch : pattern first x rest with
      | none =>
        rw [hmatch] at h
        dsimp only at h
        rw [push_snd] at h
        exact ih h
      | some result =>
        obtain ⟨c, more⟩ := result
        rw [hmatch] at h
        rcases List.mem_cons.mp h with rfl | h
        · exact ⟨first, x, rest, more, hmatch⟩
        · exact ih h

theorem match_of_mem_found {text : List α} {b : β} (h : b ∈ found pattern text) :
    ∃ first x rest more, pattern first x rest = some (b, more) := match_of_mem_scan h

/-! ### Replacing, symbol by symbol -/

variable (pattern f) in
/-- What `replace` makes of a text that begins somewhere in a text. -/
def replaceFrom (first : Bool) (text : List α) : List α := (scan pattern first 0 text).join f

theorem replaceFrom_of_none {first : Bool} {x : α} {rest : List α} (h : pattern first x rest = none) :
    replaceFrom pattern f first (x :: rest) = x :: replaceFrom pattern f false rest := by
  rw [replaceFrom, scan, h]
  exact join_push x _

theorem scan_skip (first : Bool) (body tail : List α) :
    scan pattern first body.length (body ++ tail) = scan pattern (first && body.isEmpty) 0 tail := by
  induction body generalizing first with
  | nil => simp
  | cons x body ih =>
    rw [List.length_cons, List.cons_append, scan, ih]
    simp

theorem replaceFrom_of_match {first : Bool} {x : α} {body tail : List α} {b : β}
    (h : pattern first x (body ++ tail) = some (b, body.length)) :
    replaceFrom pattern f first (x :: (body ++ tail)) = f b ++ replaceFrom pattern f false tail := by
  rw [replaceFrom, scan, h]
  dsimp only
  rw [join_cons, List.nil_append, scan_skip, Bool.false_and]
  rfl

end Empyralis.Scan

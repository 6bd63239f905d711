import Empyralis.Gateway.Codec
import Empyralis.Lib.Iterate
import Empyralis.Lib.Run
import Mathlib.Algebra.Group.Nat.Even
import Mathlib.Data.List.Chain

/-! The chunker of outbound messages: `chunkMessage` and `splitLongLine`.

    A text that is longer than the limit of its channel is sent as several messages. Whole lines are packed greedily; a
    line that is too long by itself is first cut at its spaces. A break inside a fenced block closes the block in the
    chunk that ends and reopens it, under the same header, in the next.

    Lengths are counted in UTF-16 code units. -/

namespace Empyralis.Gateway.MessageChunker

open Codec Iterate Run

def newline : UInt16 := 10

def lines (text : JsString) : List JsString := text.splitOn newline

/-- `join("\n")` -/
def join (lines : List JsString) : JsString := [newline].intercalate lines

def fence : JsString := js "```"

/-- A line that opens or closes a code block. -/
def isFenceLine (line : JsString) : Bool := fence.isPrefixOf (line.dropWhile isSpace)

/-! ### The code -/

/-- `text.lastIndexOf(" ", position)`; `none` is -1. -/
def lastSpace (text : JsString) : Nat → Option Nat
  | 0 => if text[0]? = some 0x20 then some 0 else none
  | position + 1 => if text[position + 1]? = some 0x20 then some (position + 1) else lastSpace text position

/-- A space at the start of the line is no place to break at. -/
def cutAt (limit : Nat) (rest : JsString) : Nat :=
  match lastSpace rest limit with
  | some (space + 1) => space + 1
  | _ => limit

/-- One round of the loop over a line that is too long. -/
def splitRound (limit : Nat) : List JsString × JsString → List JsString ⊕ List JsString × JsString
  | (out, rest) =>
    if rest.length > limit then
      let cut := cutAt limit rest
      .inr (out ++ [rest.take cut], (rest.drop cut).dropWhile (· = 0x20))
    else .inl (if rest.length > 0 then out ++ [rest] else out)

/-- A line cut into pieces, at spaces where there are any. -/
def splitLongLine (fuel : Nat) (line : JsString) (limit : Nat) : Option (List JsString) :=
  iterate (splitRound limit) fuel ([], line)

/-- The chunks that are done, and the one that is being filled. -/
structure State where
  chunks : List JsString
  current : List JsString
  currentLen : Nat
  fenceOpen : Bool
  fenceHeader : JsString

namespace State

/-- Nothing is written, and no block is open. -/
def start : State := ⟨[], [], 0, false, fence⟩

/-- The chunk that is being filled is done. -/
def flush (s : State) : State :=
  if s.current = [] then s else { s with chunks := s.chunks ++ [join s.current], current := [], currentLen := 0 }

/-- The chunk ends here; an open block is closed in it and reopened in the next. -/
def breakChunk (s : State) : State :=
  let closed := if s.fenceOpen then { s with current := s.current ++ [fence] } else s
  let s := closed.flush
  if s.fenceOpen then { s with current := s.current ++ [s.fenceHeader], currentLen := s.fenceHeader.length } else s

/-- A line put into the chunk. -/
def push (s : State) (line : JsString) : State :=
  let sep := if s.current.length > 0 then 1 else 0
  let s := { s with current := s.current ++ [line], currentLen := s.currentLen + (sep + line.length) }
  if isFenceLine line then
    if !s.fenceOpen then { s with fenceOpen := true, fenceHeader := line }
    else { s with fenceOpen := false, fenceHeader := fence }
  else s

/-- The line does not fit any more, with the fence that may have to follow it. -/
def breaks (limit : Nat) (s : State) (line : JsString) : Bool :=
  let joinCost := if s.current.length > 0 then 1 else 0
  let closeReserve := if s.fenceOpen then 4 else 0
  s.current.length > 0 && s.currentLen + joinCost + line.length + closeReserve > limit

end State

open State

/-- A line put into the chunk, or into the next one. -/
def addLine (limit : Nat) (s : State) (line : JsString) : State :=
  (if s.breaks limit line then s.breakChunk else s).push line

/-- A line, cut if it does not fit into a chunk alone. -/
def linePieces (fuel limit : Nat) (rawLine : JsString) : Option (List JsString) :=
  if rawLine.length > limit then splitLongLine fuel rawLine limit else some [rawLine]

/-- The pieces of a line, one after the other. -/
def addRawLine (fuel limit : Nat) (s : State) (rawLine : JsString) : Option State := do
  let pieces ← linePieces fuel limit rawLine
  return pieces.foldl (addLine limit) s

/-- `none` is the loop of `splitLongLine` that runs out of fuel. -/
def chunkMessage (fuel : Nat) (text : JsString) (limit : Nat) : Option (List JsString) :=
  if text.length = 0 then some []
  else if text.length ≤ limit then some [text]
  else do
    let safeLimit := max 1 limit
    let s ← (lines text).foldlM (addRawLine fuel safeLimit) start
    return s.flush.chunks.filter (·.length > 0)

/-! ### What the chunks are to be -/

/-- A text without its blanks. -/
def visible (text : JsString) : JsString := text.filter fun unit => !isSpace unit

/-- How many fences there are. -/
def fences (lines : List JsString) : Nat := lines.countP isFenceLine

/-- A chunk as it is put together: the header it reopens a block with, the lines of the text, and whether a block is
    closed at its end. -/
structure Part where
  reopened : Option JsString
  lines : List JsString
  closed : Bool

def Part.all (p : Part) : List JsString := p.reopened.toList ++ p.lines ++ if p.closed then [fence] else []

def Part.text (p : Part) : JsString := join p.all

/-- A block that a chunk closes is reopened by the next one, and no other is. -/
def Linked (p q : Part) : Prop := p.closed = q.reopened.isSome

/-- Apart from the fences that close a block and reopen it the chunks show what the text shows. -/
def Shows (text : JsString) (chunks : List JsString) : Prop :=
  ∃ parts : List Part,
    chunks = (parts.map Part.text).filter (·.length > 0) ∧
    parts.IsChain Linked ∧ (∀ p ∈ parts.head?, p.reopened = none) ∧ (∀ p ∈ parts.getLast?, p.closed = false) ∧
    (∀ p ∈ parts, ∀ header ∈ p.reopened, isFenceLine header) ∧
    visible (parts.flatMap Part.lines).flatten = visible text

/-- What is asked of the chunks: none is too long, nothing is lost, and no block is left open. -/
structure Chunked (text : JsString) (limit : Nat) (chunks : List JsString) : Prop where
  short : ∀ chunk ∈ chunks, chunk.length ≤ limit
  shows : Shows text chunks
  balanced : Even (fences (lines text)) → ∀ chunk ∈ chunks, Even (fences (lines chunk))

/-! ### When they are -/

/-- The lines of the text, the long ones cut. -/
def textPieces (fuel limit : Nat) (text : JsString) : Option (List JsString) :=
  ((lines text).mapM (linePieces fuel limit)).map List.flatten

/-- A break inside a block leaves room for the fence that closes it, and the header that reopens it leaves room for the
    line. -/
def Room (limit : Nat) (s : State) (line : JsString) : Prop :=
  s.breaks limit line = true → s.fenceOpen = true →
    s.currentLen + 4 ≤ limit ∧ s.fenceHeader.length + (1 + line.length) ≤ limit

/-- The text fits, or each of its breaks has room and cutting the long lines makes no fence line too many. -/
def Chunkable (text : JsString) (limit : Nat) : Prop :=
  text.length ≤ limit ∨ ∃ pieces, textPieces (text.length + 1) limit text = some pieces ∧
    Meets (fun s line => some (addLine limit s line)) (Room limit) start pieces ∧
    (Even (fences (lines text)) → Even (fences pieces))

/-! ### Lines and texts -/

theorem join_singleton (l : JsString) : join [l] = l := List.intercalate_singleton

theorem join_cons_cons (a b : JsString) (ls : List JsString) :
    join (a :: b :: ls) = a ++ newline :: join (b :: ls) := by
  rw [join, List.intercalate_cons_cons, List.append_assoc]
  rfl

theorem join_concat {ls : List JsString} (hls : ls ≠ []) (l : JsString) :
    join (ls ++ [l]) = join ls ++ newline :: l := by
  induction ls with
  | nil => exact absurd rfl hls
  | cons a as ih =>
    rcases as with - | ⟨b, bs⟩
    · show join [a, l] = _
      rw [join_cons_cons, join_singleton, join_singleton]
    · calc join (a :: b :: (bs ++ [l])) = a ++ newline :: join (b :: (bs ++ [l])) := join_cons_cons a b _
        _ = a ++ newline :: (join (b :: bs) ++ newline :: l) := by rw [← ih (List.cons_ne_nil b bs), List.cons_append]
        _ = join (a :: b :: bs) ++ newline :: l := by rw [join_cons_cons, List.append_assoc, List.cons_append]

theorem length_join_concat {ls : List JsString} (hls : ls ≠ []) (l : JsString) :
    (join (ls ++ [l])).length = (join ls).length + (1 + l.length) := by
  rw [join_concat hls, List.length_append, List.length_cons, Nat.add_comm l.length]

theorem visible_append (s t : JsString) : visible (s ++ t) = visible s ++ visible t := List.filter_append s t

theorem visible_join (ls : List JsString) : visible (join ls) = visible ls.flatten := by
  induction ls with
  | nil => rfl
  | cons a as ih =>
    rcases as with - | ⟨b, bs⟩
    · rw [join_singleton, List.flatten_singleton]
    · have hnewline : visible [newline] = [] := by decide
      calc visible (join (a :: b :: bs)) = visible (a ++ ([newline] ++ join (b :: bs))) := by
            rw [join_cons_cons, List.singleton_append]
        _ = visible a ++ visible (b :: bs).flatten := by
            rw [visible_append, visible_append, hnewline, List.nil_append, ih]
        _ = visible (a :: b :: bs).flatten := (visible_append a _).symm

theorem join_lines (text : JsString) : join (lines text) = text := List.intercalate_splitOn newline

theorem lines_join {ls : List JsString} (hls : ls ≠ []) (h : ∀ l ∈ ls, newline ∉ l) : lines (join ls) = ls :=
  List.splitOn_intercalate newline h hls

theorem newline_notMem_lines {text l : JsString} (hl : l ∈ lines text) : newline ∉ l := by
  induction text generalizing l with
  | nil =>
    rw [lines, List.splitOn_nil, List.mem_singleton] at hl
    rw [hl]
    exact List.not_mem_nil
  | cons unit text ih =>
    rw [lines, List.splitOn_cons_eq_if_modifyHead] at hl
    split at hl
    · rcases List.mem_cons.mp hl with rfl | hl
      · exact List.not_mem_nil
      · exact ih hl
    · rename_i hunit
      obtain ⟨first, rest, hsplit⟩ := List.exists_cons_of_ne_nil (List.splitOn_ne_nil newline text)
      rw [hsplit, List.modifyHead_cons, List.mem_cons] at hl
      rcases hl with rfl | hl
      · rintro hmem
        rcases List.mem_cons.mp hmem with heq | hmem
        · exact hunit (beq_iff_eq.mpr heq.symm)
        · exact ih (l := first) (by rw [lines, hsplit]; exact List.mem_cons_self) hmem
      · exact ih (by rw [lines, hsplit]; exact List.mem_cons_of_mem _ hl)

/-- The fences of a chunk are those of the lines it is put together from. -/
theorem fences_join {ls : List JsString} (h : ∀ l ∈ ls, newline ∉ l) : fences (lines (join ls)) = fences ls := by
  by_cases hls : ls = []
  · subst hls
    rfl
  · rw [lines_join hls h]

/-! ### Long lines -/

theorem lastSpace_le {text : JsString} : ∀ {position i : Nat}, lastSpace text position = some i → i ≤ position
  | 0, i, h => by
    rw [lastSpace] at h
    split at h <;> simp_all
  | position + 1, i, h => by
    rw [lastSpace] at h
    split at h
    · rw [Option.some.injEq] at h
      exact h.ge
    · exact Nat.le_succ_of_le (lastSpace_le h)

theorem cutAt_le (limit : Nat) (rest : JsString) : cutAt limit rest ≤ limit := by
  unfold cutAt
  split
  · rename_i space h
    exact lastSpace_le h
  · exact Nat.le_refl limit

theorem cutAt_pos {limit : Nat} (hlimit : 0 < limit) (rest : JsString) : 0 < cutAt limit rest := by
  unfold cutAt
  split
  · exact Nat.succ_pos _
  · exact hlimit

/-- Pieces of lines: within the limit, without line ends, and showing what is given. -/
structure Pieces (limit : Nat) (shown : JsString) (pieces : List JsString) : Prop where
  short : ∀ piece ∈ pieces, piece.length ≤ limit
  unbroken : ∀ piece ∈ pieces, newline ∉ piece
  shows : visible pieces.flatten = shown

/-- Where the loop of `splitLongLine` is: what is cut off and what is left show the line together. -/
def Cutting (limit : Nat) (line : JsString) (s : List JsString × JsString) : Prop :=
  newline ∉ s.2 ∧ ∃ shown, Pieces limit shown s.1 ∧ shown ++ visible s.2 = visible line

theorem visible_dropWhile_space (text : JsString) : visible (text.dropWhile (· = 0x20)) = visible text := by
  induction text with
  | nil => rfl
  | cons unit text ih =>
    by_cases h : unit = 0x20
    · have hunit : visible [unit] = [] := by
        rw [h]
        decide
      calc visible ((unit :: text).dropWhile (· = 0x20)) = visible (text.dropWhile (· = 0x20)) := by
            rw [List.dropWhile_cons_of_pos (by simpa using h)]
        _ = visible [unit] ++ visible text := by rw [ih, hunit, List.nil_append]
        _ = visible (unit :: text) := (visible_append [unit] text).symm
    · rw [List.dropWhile_cons_of_neg (by simpa using h)]

theorem Pieces.concat {limit : Nat} {shown piece : JsString} {pieces : List JsString}
    (h : Pieces limit shown pieces) (hshort : piece.length ≤ limit) (hunbroken : newline ∉ piece) :
    Pieces limit (shown ++ visible piece) (pieces ++ [piece]) where
  short := by
    intro p hp
    rcases List.mem_append.mp hp with hp | hp
    · exact h.short p hp
    · exact List.mem_singleton.mp hp ▸ hshort
  unbroken := by
    intro p hp
    rcases List.mem_append.mp hp with hp | hp
    · exact h.unbroken p hp
    · exact List.mem_singleton.mp hp ▸ hunbroken
  shows := by rw [List.flatten_append, visible_append, h.shows, List.flatten_singleton]

/-- One round cuts off a piece of at most the limit. -/
theorem cutting_step {limit : Nat} {line : JsString} {s t : List JsString × JsString} (hs : Cutting limit line s)
    (h : splitRound limit s = .inr t) : Cutting limit line t := by
  obtain ⟨out, rest⟩ := s
  obtain ⟨hunbroken, shown, hpieces, hshown⟩ := hs
  rw [splitRound] at h
  split at h
  · cases h
    refine ⟨fun hmem => hunbroken ?_, shown ++ visible (rest.take (cutAt limit rest)), hpieces.concat ?_ ?_, ?_⟩
    · exact List.mem_of_mem_drop ((List.dropWhile_sublist _).subset hmem)
    · rw [List.length_take]
      exact (Nat.min_le_left _ _).trans (cutAt_le limit rest)
    · exact fun hmem => hunbroken (List.mem_of_mem_take hmem)
    · show _ ++ visible ((rest.drop (cutAt limit rest)).dropWhile (· = 0x20)) = visible line
      rw [visible_dropWhile_space, List.append_assoc, ← visible_append, List.take_append_drop]
      exact hshown
  · cases h

theorem splitRound_shrinks {limit : Nat} (hlimit : 0 < limit) (s t : List JsString × JsString)
    (h : splitRound limit s = .inr t) : t.2.length < s.2.length := by
  obtain ⟨out, rest⟩ := s
  rw [splitRound] at h
  split at h
  · rename_i hlong
    cases h
    have hcut : 0 < cutAt limit rest := cutAt_pos hlimit rest
    have hle : ((rest.drop (cutAt limit rest)).dropWhile (· = 0x20)).length ≤ (rest.drop (cutAt limit rest)).length :=
      (List.dropWhile_sublist _).length_le
    rw [List.length_drop] at hle
    show ((rest.drop (cutAt limit rest)).dropWhile (· = 0x20)).length < rest.length
    omega
  · cases h

theorem splitLongLine_pieces {fuel limit : Nat} {line : JsString} {pieces : List JsString}
    (hline : newline ∉ line) (h : splitLongLine fuel line limit = some pieces) :
    Pieces limit (visible line) pieces := by
  have hstart : Cutting limit line ([], line) := ⟨hline, [], ⟨by simp, by simp, rfl⟩, rfl⟩
  obtain ⟨⟨out, rest⟩, ⟨hunbroken, shown, hpieces, hshown⟩, hend⟩ := iterate_inv (fun s t => cutting_step) hstart h
  rw [splitRound] at hend
  split at hend
  · cases hend
  · rename_i hshort
    split at hend <;> cases hend
    · exact hshown ▸ hpieces.concat (Nat.le_of_not_lt hshort) hunbroken
    · rename_i hempty
      have hrest : rest = [] := List.eq_nil_of_length_eq_zero (Nat.eq_zero_of_not_pos hempty)
      have hall : shown = visible line := by
        rw [← hshown, hrest]
        exact (List.append_nil shown).symm
      exact hall ▸ hpieces

theorem linePieces_exists {limit : Nat} (hlimit : 0 < limit) {rawLine : JsString} (hline : newline ∉ rawLine) :
    ∃ pieces, Pieces limit (visible rawLine) pieces ∧
      ∀ fuel, rawLine.length < fuel → linePieces fuel limit rawLine = some pieces := by
  by_cases hlong : rawLine.length > limit
  · obtain ⟨pieces, hpieces⟩ : ∃ pieces, splitLongLine (rawLine.length + 1) rawLine limit = some pieces :=
      exists_iterate (splitRound_shrinks hlimit) (Nat.lt_succ_self rawLine.length)
    refine ⟨pieces, splitLongLine_pieces hline hpieces, fun fuel hfuel => ?_⟩
    rw [linePieces, if_pos hlong]
    exact iterate_mono hfuel hpieces
  · refine ⟨[rawLine], ⟨?_, ?_, ?_⟩, fun fuel _ => by rw [linePieces, if_neg hlong]⟩
    · simpa using Nat.le_of_not_lt hlong
    · simpa using hline
    · rw [List.flatten_singleton]

theorem mapM_linePieces {limit : Nat} (hlimit : 0 < limit) (ls : List JsString) (h : ∀ l ∈ ls, newline ∉ l) :
    ∃ cut : List (List JsString), Pieces limit (visible ls.flatten) cut.flatten ∧
      ∀ fuel, (∀ l ∈ ls, l.length < fuel) → ls.mapM (linePieces fuel limit) = some cut := by
  induction ls with
  | nil => exact ⟨[], ⟨by simp, by simp, rfl⟩, fun fuel _ => rfl⟩
  | cons l ls ih =>
    obtain ⟨hl, hls⟩ := List.forall_mem_cons.mp h
    obtain ⟨first, hfirst, hfirstCut⟩ := linePieces_exists hlimit hl
    obtain ⟨rest, hrest, hrestCut⟩ := ih hls
    refine ⟨first :: rest, ⟨?_, ?_, ?_⟩, fun fuel hfuel => ?_⟩
    · intro p hp
      rw [List.flatten_cons, List.mem_append] at hp
      exact hp.elim (hfirst.short p) (hrest.short p)
    · intro p hp
      rw [List.flatten_cons, List.mem_append] at hp
      exact hp.elim (hfirst.unbroken p) (hrest.unbroken p)
    · rw [List.flatten_cons, List.flatten_append, visible_append, hfirst.shows, hrest.shows, List.flatten_cons,
        visible_append]
    · obtain ⟨hlong, hlongs⟩ := List.forall_mem_cons.mp hfuel
      rw [List.mapM_cons, hfirstCut fuel hlong, hrestCut fuel hlongs]
      rfl

theorem length_le_join {ls : List JsString} {l : JsString} (hl : l ∈ ls) : l.length ≤ (join ls).length := by
  induction ls with
  | nil => cases hl
  | cons a as ih =>
    rcases as with - | ⟨b, bs⟩
    · rw [List.mem_singleton.mp hl, join_singleton]
    · rw [join_cons_cons, List.length_append, List.length_cons]
      rcases List.mem_cons.mp hl with rfl | hl
      · exact Nat.le_add_right _ _
      · have hle : l.length ≤ (join (b :: bs)).length := ih hl
        omega

/-- The loop of `splitLongLine` ends on each line of the text. -/
theorem textPieces_exists {limit : Nat} (hlimit : 0 < limit) (text : JsString) :
    ∃ pieces, Pieces limit (visible text) pieces ∧
      ∀ fuel, text.length < fuel → textPieces fuel limit text = some pieces := by
  obtain ⟨cut, hcut, hall⟩ := mapM_linePieces hlimit (lines text) fun l => newline_notMem_lines
  rw [← visible_join, join_lines] at hcut
  refine ⟨cut.flatten, hcut, fun fuel hfuel => ?_⟩
  rw [textPieces, hall fuel fun l hl => ?_]
  · rfl
  · have hle : l.length ≤ text.length := by
      have hlength : l.length ≤ (join (lines text)).length := length_le_join hl
      rwa [join_lines] at hlength
    exact Nat.lt_of_le_of_lt hle hfuel

theorem foldlM_addRawLine (fuel limit : Nat) (ls : List JsString) (s : State) :
    ls.foldlM (addRawLine fuel limit) s =
      ((ls.mapM (linePieces fuel limit)).map List.flatten).map (·.foldl (addLine limit) s) := by
  induction ls generalizing s with
  | nil => rfl
  | cons l ls ih =>
    rw [List.foldlM_cons, List.mapM_cons, addRawLine]
    cases hl : linePieces fuel limit l with
    | none => rfl
    | some pieces =>
      show ls.foldlM (addRawLine fuel limit) (pieces.foldl (addLine limit) s) = _
      rw [ih]
      cases hls : ls.mapM (linePieces fuel limit) with
      | none => rfl
      | some cut => exact congrArg some List.foldl_append.symm

/-! ### The parts -/

namespace State

theorem breakChunk_of_open {s : State} (h : s.fenceOpen = true) :
    s.breakChunk = { s with chunks := s.chunks ++ [join (s.current ++ [fence])],
                            current := [s.fenceHeader], currentLen := s.fenceHeader.length } := by
  simp [breakChunk, flush, h]

theorem breakChunk_of_closed {s : State} (h : s.fenceOpen = false) (hs : s.current ≠ []) :
    s.breakChunk = { s with chunks := s.chunks ++ [join s.current], current := [], currentLen := 0 } := by
  simp [breakChunk, flush, h, hs]

theorem push_eq (s : State) (line : JsString) :
    s.push line = ⟨s.chunks, s.current ++ [line],
      s.currentLen + ((if s.current.length > 0 then 1 else 0) + line.length),
      if isFenceLine line then !s.fenceOpen else s.fenceOpen,
      if isFenceLine line then (if s.fenceOpen then fence else line) else s.fenceHeader⟩ := by
  cases hline : isFenceLine line <;> cases hopen : s.fenceOpen <;> simp [push, hline, hopen]

end State

/-- The parts of the chunks that are complete and of the one at work. -/
structure Layout (pieces : List JsString) (s : State) (parts : List Part) (last : Part) : Prop where
  chunks : s.chunks = parts.map Part.text
  current : s.current = last.all
  closed : last.closed = false
  linked : (parts ++ [last]).IsChain Linked
  first : ∀ p ∈ (parts ++ [last]).head?, p.reopened = none
  header : ∀ p ∈ parts ++ [last], ∀ header ∈ p.reopened, isFenceLine header
  unbroken : ∀ p ∈ parts ++ [last], ∀ l ∈ p.all, newline ∉ l
  lines : (parts ++ [last]).flatMap Part.lines = pieces
  even : ∀ p ∈ parts, Even (fences p.all)
  parity : s.fenceOpen = true ↔ ¬Even (fences s.current)
  total : s.fenceOpen = true ↔ ¬Even (fences pieces)
  reopens : isFenceLine s.fenceHeader ∧ newline ∉ s.fenceHeader

theorem layout_start : Layout [] start [] ⟨none, [], false⟩ where
  chunks := rfl
  current := rfl
  closed := rfl
  linked := List.isChain_singleton _
  first := by simp
  header := by simp
  unbroken := by simp [Part.all]
  lines := rfl
  even := by simp
  parity := by decide
  total := by decide
  reopens := by decide

/-- What a part is linked to is the header it reopens a block with. -/
theorem linked_last {parts : List Part} {p q : Part} (h : (parts ++ [p]).IsChain Linked)
    (hpq : q.reopened = p.reopened) : (parts ++ [q]).IsChain Linked := by
  rw [List.isChain_append] at h ⊢
  refine ⟨h.1, List.isChain_singleton _, fun last hlast r hr => ?_⟩
  rw [List.head?_cons, Option.mem_some_iff] at hr
  rw [← hr, Linked, hpq]
  exact h.2.2 last hlast p rfl

theorem first_last {parts : List Part} {p q : Part} (h : ∀ r ∈ (parts ++ [p]).head?, r.reopened = none)
    (hpq : q.reopened = p.reopened) : ∀ r ∈ (parts ++ [q]).head?, r.reopened = none := by
  cases parts with
  | nil => simpa [hpq] using h
  | cons r parts => simpa using h

theorem fences_concat (ls : List JsString) (l : JsString) :
    fences (ls ++ [l]) = fences ls + if isFenceLine l then 1 else 0 := by
  rw [fences, List.countP_append, List.countP_singleton]
  rfl

/-- A line after which the block is open as often as it is not makes the fences odd as often as even. -/
theorem parity_push {s : State} {ls : List JsString} (h : s.fenceOpen = true ↔ ¬Even (fences ls)) (line : JsString) :
    (s.push line).fenceOpen = true ↔ ¬Even (fences (ls ++ [line])) := by
  rw [push_eq, fences_concat]
  by_cases hline : isFenceLine line = true
  · simp only [if_pos hline]
    rw [Nat.even_add_one, not_not, Bool.not_eq_true', ← Bool.not_eq_true, h, not_not]
  · simpa only [if_neg hline, Nat.add_zero] using h

theorem Layout.push {pieces : List JsString} {s : State} {parts : List Part} {last : Part}
    (h : Layout pieces s parts last) {line : JsString} (hline : newline ∉ line) :
    Layout (pieces ++ [line]) (s.push line) parts { last with lines := last.lines ++ [line] } where
  chunks := by rw [push_eq, h.chunks]
  current := by simp [push_eq, h.current, Part.all, h.closed]
  closed := h.closed
  linked := linked_last h.linked rfl
  first := first_last h.first rfl
  header := by
    intro p hp
    rcases List.mem_append.mp hp with hp | hp
    · exact h.header p (List.mem_append_left _ hp)
    · rw [List.mem_singleton.mp hp]
      exact h.header last (by simp)
  unbroken := by
    intro p hp l hl
    rcases List.mem_append.mp hp with hp | hp
    · exact h.unbroken p (List.mem_append_left _ hp) l hl
    · have hlast : ∀ l ∈ last.all, newline ∉ l := h.unbroken last (by simp)
      rw [List.mem_singleton.mp hp] at hl
      simp only [Part.all, List.mem_append, List.mem_singleton] at hl hlast
      rcases hl with (hl | hl | rfl) | hl
      · exact hlast l (.inl (.inl hl))
      · exact hlast l (.inl (.inr hl))
      · exact hline
      · exact hlast l (.inr hl)
  lines := by
    rw [← h.lines]
    simp
  even := h.even
  parity := by
    have hcurrent : (s.push line).current = s.current ++ [line] := by rw [push_eq]
    rw [hcurrent]
    exact parity_push h.parity line
  total := parity_push h.total line
  reopens := by
    rw [push_eq]
    dsimp only
    split <;> [split; skip]
    · exact layout_start.reopens
    · exact ⟨‹_›, hline⟩
    · exact h.reopens

theorem fences_close (ls : List JsString) (closed : Bool) :
    fences (ls ++ if closed then [fence] else []) = fences ls + closed.toNat := by
  cases closed with
  | false => rw [if_neg Bool.false_ne_true, List.append_nil, Bool.toNat_false, Nat.add_zero]
  | true => rw [if_pos rfl, fences_concat, if_pos (by decide), Bool.toNat_true]

theorem Part.all_close {p : Part} (hp : p.closed = false) (closed : Bool) :
    Part.all { p with closed := closed } = p.all ++ if closed then [fence] else [] := by
  simp [Part.all, hp]

/-- Where the fences of the chunk at work are odd it is closed by one more. -/
theorem Layout.even_close {pieces : List JsString} {s : State} {parts : List Part} {last : Part}
    (h : Layout pieces s parts last) : Even (fences (Part.all { last with closed := s.fenceOpen })) := by
  rw [Part.all_close h.closed, fences_close, ← h.current]
  cases hopen : s.fenceOpen with
  | false =>
    have hodd : ¬¬Even (fences s.current) := fun hodd => Bool.false_ne_true (hopen ▸ h.parity.mpr hodd)
    rw [Bool.toNat_false, Nat.add_zero]
    exact not_not.mp hodd
  | true => exact Nat.even_add_one.mpr (h.parity.mp hopen)

/-- A break makes a part of the chunk at work and begins the next. -/
theorem Layout.breakChunk {pieces : List JsString} {s : State} {parts : List Part} {last : Part}
    (h : Layout pieces s parts last) (hs : s.current ≠ []) :
    Layout pieces s.breakChunk (parts ++ [{ last with closed := s.fenceOpen }])
      ⟨if s.fenceOpen then some s.fenceHeader else none, [], false⟩ where
  chunks := by
    rw [List.map_append, ← h.chunks, List.map_singleton, Part.text, Part.all_close h.closed, ← h.current]
    cases hopen : s.fenceOpen with
    | false => rw [breakChunk_of_closed hopen hs, if_neg Bool.false_ne_true, List.append_nil]
    | true => rw [breakChunk_of_open hopen, if_pos rfl]
  current := by
    cases hopen : s.fenceOpen with
    | false =>
      rw [breakChunk_of_closed hopen hs]
      rfl
    | true =>
      rw [breakChunk_of_open hopen]
      rfl
  closed := rfl
  linked := by
    rw [List.append_assoc, List.singleton_append, List.isChain_append_cons_cons]
    refine ⟨linked_last h.linked rfl, ?_, List.isChain_singleton _⟩
    show s.fenceOpen = Option.isSome _
    cases s.fenceOpen <;> rfl
  first := by
    rw [List.head?_append_of_ne_nil _ (by simp)]
    exact first_last h.first rfl
  header := by
    intro p hp header hheader
    rcases List.mem_append.mp hp with hp | hp
    · rcases List.mem_append.mp hp with hp | hp
      · exact h.header p (List.mem_append_left _ hp) header hheader
      · rw [List.mem_singleton.mp hp] at hheader
        exact h.header last (by simp) header hheader
    · rw [List.mem_singleton.mp hp, Option.mem_def, Option.ite_none_right_eq_some] at hheader
      rw [← Option.some.inj hheader.2]
      exact h.reopens.1
  unbroken := by
    intro p hp l hl
    rcases List.mem_append.mp hp with hp | hp
    · rcases List.mem_append.mp hp with hp | hp
      · exact h.unbroken p (List.mem_append_left _ hp) l hl
      · rw [List.mem_singleton.mp hp, Part.all_close h.closed, List.mem_append] at hl
        rcases hl with hl | hl
        · exact h.unbroken last (by simp) l hl
        · have hfence : l = fence := by
            split at hl
            · exact List.mem_singleton.mp hl
            · cases hl
          rw [hfence]
          decide
    · rw [List.mem_singleton.mp hp] at hl
      simp only [Part.all, List.append_nil, Bool.false_eq_true, if_false, Option.mem_toList,
        Option.ite_none_right_eq_some] at hl
      rw [← Option.some.inj hl.2]
      exact h.reopens.2
  lines := by
    rw [← h.lines]
    simp
  even := by
    intro p hp
    rcases List.mem_append.mp hp with hp | hp
    · exact h.even p hp
    · rw [List.mem_singleton.mp hp]
      exact h.even_close
  parity := by
    cases hopen : s.fenceOpen with
    | false =>
      rw [breakChunk_of_closed hopen hs]
      simp [hopen, fences]
    | true =>
      have hheader : isFenceLine s.fenceHeader = true := h.reopens.1
      rw [breakChunk_of_open hopen]
      simp [hopen, fences, hheader]
  total := by
    have htotal := h.total
    cases hopen : s.fenceOpen with
    | false => rwa [breakChunk_of_closed hopen hs]
    | true => rwa [breakChunk_of_open hopen]
  reopens := by
    have hreopens := h.reopens
    cases hopen : s.fenceOpen with
    | false => rwa [breakChunk_of_closed hopen hs]
    | true => rwa [breakChunk_of_open hopen]

theorem Layout.addLine {limit : Nat} {pieces : List JsString} {s : State} {line : JsString} (hline : newline ∉ line)
    (h : ∃ parts last, Layout pieces s parts last) :
    ∃ parts last, Layout (pieces ++ [line]) (addLine limit s line) parts last := by
  obtain ⟨parts, last, h⟩ := h
  rw [MessageChunker.addLine]
  split
  · rename_i hbreaks
    have hs : s.current ≠ [] := by
      rintro hempty
      simp [State.breaks, hempty] at hbreaks
    exact ⟨_, _, (h.breakChunk hs).push hline⟩
  · exact ⟨_, _, h.push hline⟩

theorem Layout.foldl {limit : Nat} {rest : List JsString} (hrest : ∀ line ∈ rest, newline ∉ line) :
    ∀ {pieces : List JsString} {s : State}, (∃ parts last, Layout pieces s parts last) →
      ∃ parts last, Layout (pieces ++ rest) (rest.foldl (MessageChunker.addLine limit) s) parts last := by
  induction rest with
  | nil =>
    intro pieces s h
    rwa [List.append_nil]
  | cons line rest ih =>
    intro pieces s h
    obtain ⟨hline, hlines⟩ := List.forall_mem_cons.mp hrest
    rw [List.foldl_cons, List.append_cons]
    exact ih hlines (Layout.addLine hline h)

/-! ### Lengths -/

/-- `currentLen` is the length of the chunk at work. -/
def Measured (s : State) : Prop := s.currentLen = (join s.current).length

theorem Measured.push {s : State} (h : Measured s) (line : JsString) : Measured (s.push line) := by
  rw [Measured] at h
  rw [Measured, push_eq]
  dsimp only
  by_cases hs : s.current = []
  · rw [hs] at h ⊢
    rw [h, if_neg (by decide), List.nil_append, join_singleton]
    show 0 + (0 + line.length) = line.length
    omega
  · rw [if_pos (List.length_pos_iff.mpr hs), length_join_concat hs, h]

theorem Measured.breakChunk {s : State} (h : Measured s) (hs : s.current ≠ []) :
    Measured s.breakChunk ∧ ∃ chunk, s.breakChunk.chunks = s.chunks ++ [chunk] ∧
      chunk.length = s.currentLen + if s.fenceOpen then 4 else 0 := by
  cases hopen : s.fenceOpen with
  | false =>
    rw [breakChunk_of_closed hopen hs]
    exact ⟨rfl, _, rfl, h.symm⟩
  | true =>
    rw [breakChunk_of_open hopen]
    refine ⟨?_, _, rfl, ?_⟩
    · rw [Measured, join_singleton]
    · rw [length_join_concat hs, h]
      rfl

/-- No chunk so far is longer than the limit, the one at work included. -/
def Short (limit : Nat) (s : State) : Prop := (∀ chunk ∈ s.chunks, chunk.length ≤ limit) ∧ s.currentLen ≤ limit

theorem State.breaks_iff {limit : Nat} {s : State} {line : JsString} :
    s.breaks limit line = true ↔ s.current ≠ [] ∧
      limit < s.currentLen + (1 + line.length) + if s.fenceOpen then 4 else 0 := by
  rw [State.breaks]
  by_cases hs : s.current = []
  · simp [hs]
  · have hpos : 0 < s.current.length := List.length_pos_iff.mpr hs
    simp [hs, hpos, Nat.add_assoc]

/-- A line keeps the chunks short just when it finds room. -/
theorem short_addLine {limit : Nat} {s : State} {line : JsString} (hmeasured : Measured s) (hs : Short limit s)
    (hline : line.length ≤ limit) : Short limit (addLine limit s line) ↔ Room limit s line := by
  obtain ⟨hchunks, hlen⟩ := hs
  rw [MessageChunker.addLine, Short, push_eq]
  by_cases hbreaks : s.breaks limit line = true
  · rw [if_pos hbreaks]
    dsimp only
    have hcurrent : s.current ≠ [] := (breaks_iff.mp hbreaks).1
    cases hopen : s.fenceOpen with
    | false =>
      rw [breakChunk_of_closed hopen hcurrent]
      refine iff_of_true ⟨?_, ?_⟩ fun _ h => absurd (hopen.symm.trans h) Bool.false_ne_true
      · rintro chunk hchunk
        rcases List.mem_append.mp hchunk with hchunk | hchunk
        · exact hchunks chunk hchunk
        · rw [List.mem_singleton.mp hchunk, ← hmeasured]
          exact hlen
      · simpa using hline
    | true =>
      obtain ⟨-, chunk, hchunk, hlength⟩ := hmeasured.breakChunk hcurrent
      rw [hchunk]
      rw [if_pos hopen] at hlength
      rw [breakChunk_of_open hopen]
      constructor
      · rintro ⟨hall, hnext⟩ - -
        exact ⟨hlength ▸ hall chunk (by simp), hnext⟩
      · rintro hroom
        obtain ⟨hclose, hreopen⟩ : s.currentLen + 4 ≤ limit ∧ s.fenceHeader.length + (1 + line.length) ≤ limit :=
          hroom hbreaks hopen
        refine ⟨?_, hreopen⟩
        rintro c hc
        rcases List.mem_append.mp hc with hc | hc
        · exact hchunks c hc
        · rw [List.mem_singleton.mp hc, hlength]
          exact hclose
  · rw [if_neg hbreaks]
    refine iff_of_true ⟨hchunks, ?_⟩ fun h => absurd h hbreaks
    dsimp only
    by_cases hcurrent : s.current = []
    · have hempty : s.currentLen = 0 := by
        rw [hmeasured, hcurrent]
        rfl
      rw [hcurrent, hempty]
      simpa using hline
    · rw [if_pos (List.length_pos_iff.mpr hcurrent)]
      by_contra hlong
      exact hbreaks (breaks_iff.mpr ⟨hcurrent, by omega⟩)

theorem measured_addLine {limit : Nat} {s : State} (h : Measured s) (line : JsString) :
    Measured (addLine limit s line) := by
  rw [MessageChunker.addLine]
  split
  · rename_i hbreaks
    exact (h.breakChunk (breaks_iff.mp hbreaks).1).1.push line
  · exact h.push line

/-- A chunk that has become too long stays too long. -/
theorem short_of_addLine {limit : Nat} {s : State} {line : JsString} (hmeasured : Measured s)
    (h : Short limit (addLine limit s line)) : Short limit s := by
  rw [MessageChunker.addLine, Short, push_eq] at h
  dsimp only at h
  split at h
  · rename_i hbreaks
    obtain ⟨-, chunk, hchunk, hlength⟩ := hmeasured.breakChunk (breaks_iff.mp hbreaks).1
    rw [hchunk] at h
    have hle : chunk.length ≤ limit := h.1 chunk (by simp)
    exact ⟨fun c hc => h.1 c (List.mem_append_left _ hc), by omega⟩
  · exact ⟨h.1, by omega⟩

/-- The chunks stay short just when every line finds room. -/
theorem short_foldl {limit : Nat} {pieces : List JsString} (hpieces : ∀ piece ∈ pieces, piece.length ≤ limit) :
    ∀ {s : State}, Measured s → Short limit s →
      (Short limit (pieces.foldl (addLine limit) s) ↔
        Meets (fun s line => some (addLine limit s line)) (Room limit) s pieces) := by
  induction pieces with
  | nil => exact fun _ hs => iff_of_true hs trivial
  | cons line rest ih =>
    intro s hmeasured hs
    obtain ⟨hline, hrest⟩ := List.forall_mem_cons.mp hpieces
    have hstep : Short limit (addLine limit s line) ↔ Room limit s line := short_addLine hmeasured hs hline
    have hback : ∀ {ls : List JsString} {t : State}, Measured t → Short limit (ls.foldl (addLine limit) t) →
        Short limit t := by
      intro ls
      induction ls with
      | nil => exact fun _ h => h
      | cons l ls ihls => exact fun ht h => short_of_addLine ht (ihls (measured_addLine ht l) h)
    constructor
    · intro h
      have hnext : Short limit (addLine limit s line) := hback (measured_addLine hmeasured line) h
      exact ⟨hstep.mp hnext, (ih hrest (measured_addLine hmeasured line) hnext).mp h⟩
    · rintro ⟨hroom, hrooms⟩
      exact (ih hrest (measured_addLine hmeasured line) (hstep.mpr hroom)).mpr hrooms

/-! ### The whole -/

/-- The chunk at work is sent too; an empty one is left out either way. -/
theorem flush_chunks (s : State) :
    s.flush.chunks.filter (·.length > 0) = (s.chunks ++ [join s.current]).filter (·.length > 0) := by
  rw [flush]
  split
  · rename_i hs
    rw [hs, List.filter_append]
    exact (List.append_nil _).symm
  · rfl

theorem forall_filter {P : JsString → Prop} (hnil : P []) (chunks : List JsString) :
    (∀ chunk ∈ chunks.filter (·.length > 0), P chunk) ↔ ∀ chunk ∈ chunks, P chunk := by
  constructor
  · intro h chunk hchunk
    by_cases hempty : chunk = []
    · exact hempty ▸ hnil
    · exact h chunk (List.mem_filter.mpr ⟨hchunk, decide_eq_true (List.length_pos_iff.mpr hempty)⟩)
  · exact fun h chunk hchunk => h chunk (List.mem_of_mem_filter hchunk)

theorem Layout.shows {pieces : List JsString} {s : State} {parts : List Part} {last : Part} {text : JsString}
    (h : Layout pieces s parts last) (hpieces : visible pieces.flatten = visible text) :
    Shows text (s.flush.chunks.filter (·.length > 0)) := by
  refine ⟨parts ++ [last], ?_, h.linked, h.first, ?_, h.header, ?_⟩
  · rw [flush_chunks, h.chunks, h.current, List.map_append]
    rfl
  · rintro p hp
    rw [List.getLast?_concat, Option.mem_some_iff] at hp
    exact hp ▸ h.closed
  · rw [h.lines, hpieces]

/-- All chunks but the one that is sent last have even fences, and that one has when the pieces have. -/
theorem Layout.even_iff {pieces : List JsString} {s : State} {parts : List Part} {last : Part}
    (h : Layout pieces s parts last) :
    (∀ chunk ∈ s.flush.chunks.filter (·.length > 0), Even (fences (MessageChunker.lines chunk))) ↔
      Even (fences pieces) := by
  have hlast : Even (fences s.current) ↔ Even (fences pieces) := not_iff_not.mp (h.parity.symm.trans h.total)
  have hfences : ∀ p ∈ parts ++ [last], fences (MessageChunker.lines p.text) = fences p.all := fun p hp =>
    fences_join (h.unbroken p hp)
  have hall : s.chunks ++ [join s.current] = (parts ++ [last]).map Part.text := by
    rw [h.chunks, h.current, List.map_append]
    rfl
  rw [flush_chunks, forall_filter (by decide), hall, ← hlast, h.current, List.forall_mem_map]
  constructor
  · intro hevery
    exact hfences last (by simp) ▸ hevery last (by simp)
  · intro heven p hp
    rw [hfences p hp]
    rcases List.mem_append.mp hp with hp | hp
    · exact h.even p hp
    · exact List.mem_singleton.mp hp ▸ heven

theorem short_flush {limit : Nat} {s : State} (h : Measured s) :
    (∀ chunk ∈ s.flush.chunks.filter (·.length > 0), chunk.length ≤ limit) ↔ Short limit s := by
  rw [flush_chunks, forall_filter (Nat.zero_le limit), List.forall_mem_append, List.forall_mem_singleton, ← h]
  rfl

theorem measured_foldl {limit : Nat} (pieces : List JsString) :
    ∀ {s : State}, Measured s → Measured (pieces.foldl (addLine limit) s) := by
  induction pieces with
  | nil => exact fun h => h
  | cons line rest ih => exact fun h => ih (measured_addLine h line)

/-- A text that fits is its own only chunk. -/
theorem chunked_of_fits {text : JsString} {limit : Nat} (h : text.length ≤ limit) (fuel : Nat) :
    ∃ chunks, chunkMessage fuel text limit = some chunks ∧ Chunked text limit chunks := by
  by_cases hempty : text.length = 0
  · refine ⟨[], by rw [chunkMessage, if_pos hempty], by simp, ?_, by simp⟩
    exact ⟨[], rfl, List.isChain_nil, by simp, by simp, by simp, by
      rw [List.eq_nil_of_length_eq_zero hempty]
      rfl⟩
  · refine ⟨[text], by rw [chunkMessage, if_neg hempty, if_pos h], by simpa using h, ?_, by simp⟩
    refine ⟨[⟨none, lines text, false⟩], ?_, List.isChain_singleton _, by simp, by simp, by simp, ?_⟩
    · have hpos : 0 < text.length := Nat.pos_of_ne_zero hempty
      simp [Part.text, Part.all, join_lines, hpos]
    · rw [List.flatMap_singleton, ← visible_join, join_lines]

/-- Chunking ends for every text, and its chunks are what they are to be just when the text fits the limit or each
    break inside a block has room for the fences and no cut of a long line makes a fence line too many. -/
theorem chunked_iff_chunkable (text : JsString) {limit : Nat} (hlimit : 0 < limit) :
    (∃ chunks, (∀ fuel, text.length < fuel → chunkMessage fuel text limit = some chunks) ∧ Chunked text limit chunks) ↔
      Chunkable text limit := by
  by_cases hfits : text.length ≤ limit
  · refine iff_of_true ?_ (.inl hfits)
    obtain ⟨chunks, hchunks, hproper⟩ := chunked_of_fits hfits 0
    refine ⟨chunks, fun fuel _ => ?_, hproper⟩
    rw [← hchunks]
    simp [chunkMessage, hfits]
  · obtain ⟨pieces, hpieces, hcut⟩ := textPieces_exists hlimit text
    obtain ⟨parts, last, hlayout⟩ : ∃ parts last, Layout pieces (pieces.foldl (addLine limit) start) parts last :=
      Layout.foldl hpieces.unbroken ⟨[], _, layout_start⟩
    have hmeasured : Measured (pieces.foldl (addLine limit) start) := measured_foldl pieces rfl
    have hshort : Short limit (pieces.foldl (addLine limit) start) ↔
        Meets (fun s line => some (addLine limit s line)) (Room limit) start pieces :=
      short_foldl hpieces.short rfl ⟨by simp [start], Nat.zero_le limit⟩
    have hchunks : ∀ fuel, text.length < fuel → chunkMessage fuel text limit =
        some ((pieces.foldl (addLine limit) start).flush.chunks.filter (·.length > 0)) := by
      intro fuel hfuel
      have hne : ¬text.length = 0 := by omega
      have hmax : max 1 limit = limit := Nat.max_eq_right hlimit
      have hpiecesAt : ((lines text).mapM (linePieces fuel limit)).map List.flatten = some pieces := hcut fuel hfuel
      rw [chunkMessage, if_neg hne, if_neg hfits]
      dsimp only
      rw [hmax, foldlM_addRawLine, hpiecesAt]
      rfl
    constructor
    · rintro ⟨chunks, hall, hproper⟩
      obtain rfl : _ = chunks := Option.some.inj
        ((hchunks (text.length + 1) (Nat.lt_succ_self _)).symm.trans (hall _ (Nat.lt_succ_self _)))
      exact .inr ⟨pieces, hcut _ (Nat.lt_succ_self _), hshort.mp ((short_flush hmeasured).mp hproper.short),
        fun heven => hlayout.even_iff.mp (hproper.balanced heven)⟩
    · rintro (h | ⟨cut, hcutAt, hroom, hbalanced⟩)
      · exact absurd h hfits
      · obtain rfl : cut = pieces := Option.some.inj (hcutAt.symm.trans (hcut _ (Nat.lt_succ_self _)))
        exact ⟨_, hchunks, (short_flush hmeasured).mpr (hshort.mpr hroom), hlayout.shows hpieces.shows,
          fun heven => hlayout.even_iff.mpr (hbalanced heven)⟩

/-- A block whose one line fills the chunk that reopens it leaves no room to close it. -/
def filledBlock : JsString := js "```\n" ++ List.replicate 13 97 ++ js "\n```"

theorem chunked_iff_chunkable_of_filledBlock :
    0 < 16 ∧ ((∃ chunks, (∀ fuel, filledBlock.length < fuel → chunkMessage fuel filledBlock 16 = some chunks) ∧
      Chunked filledBlock 16 chunks) ↔ Chunkable filledBlock 16) :=
  ⟨by decide, chunked_iff_chunkable filledBlock (by decide)⟩

/-- A code block that fills its chunk is closed beyond the limit. -/
theorem filledBlock_too_long :
    ¬∀ (text : JsString) (limit : Nat), 16 ≤ limit →
      ∃ chunks, (∀ fuel, text.length < fuel → chunkMessage fuel text limit = some chunks) ∧
        Chunked text limit chunks := by
  intro h
  obtain ⟨chunks, hchunks, hproper⟩ := h filledBlock 16 (Nat.le_refl 16)
  have hrun : chunkMessage (filledBlock.length + 1) filledBlock 16 =
      some [js "```\n```", js "```\n" ++ List.replicate 13 97 ++ js "\n```", js "```\n```"] := by decide
  obtain rfl := Option.some.inj ((hchunks _ (Nat.lt_succ_self _)).symm.trans hrun)
  exact absurd (hproper.short filledBlock (by simp [filledBlock])) (by decide)

end Empyralis.Gateway.MessageChunker

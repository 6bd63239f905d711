import Empyralis.Gateway.MarkdownElements
import Mathlib.Data.List.Forall2
import Mathlib.Data.List.GetD

/-! A text on its way through the rules, in its parts: what is put aside, what is put back, and the tags between. -/

namespace Empyralis.Gateway.ChannelMarkdown

open Codec Scan

/-! ### Texts with sentinels and tags -/

/-- A part of a text on its way through the rules. -/
inductive Tok where
  | unit (u : UInt16)
  | span (index : Nat)
  | opens
  | closes

def Tok.flat : Tok → JsString
  | .unit u => [u]
  | .span index => sentinel index
  | .opens => js "<i>"
  | .closes => js "</i>"

def flats (ts : List Tok) : JsString := ts.flatMap Tok.flat

/-- What a part is in the end. -/
def Tok.value (spans : Spans) : Tok → JsString
  | .unit u => [u]
  | .span index => spans.getD index []
  | .opens => js "<i>"
  | .closes => js "</i>"

def values (spans : Spans) (ts : List Tok) : JsString := ts.flatMap (Tok.value spans)

/-- The units are of escaped text. -/
def Escaped (ts : List Tok) : Prop := ∀ u, .unit u ∈ ts → u ≠ nul ∧ u ≠ 0x3C ∧ u ≠ 0x3E

@[simp] theorem flats_append (ts us : List Tok) : flats (ts ++ us) = flats ts ++ flats us := List.flatMap_append

@[simp] theorem flats_cons (t : Tok) (ts : List Tok) : flats (t :: ts) = t.flat ++ flats ts := List.flatMap_cons

@[simp] theorem values_append (spans : Spans) (ts us : List Tok) :
    values spans (ts ++ us) = values spans ts ++ values spans us := List.flatMap_append

@[simp] theorem values_cons (spans : Spans) (t : Tok) (ts : List Tok) :
    values spans (t :: ts) = t.value spans ++ values spans ts := List.flatMap_cons

theorem flats_units (text : JsString) : flats (text.map .unit) = text := by
  induction text with
  | nil => rfl
  | cons u text ih => rw [List.map_cons, flats_cons, ih]; rfl

theorem flat_ne_nil (t : Tok) : t.flat ≠ [] := by
  cases t <;> exact List.cons_ne_nil _ _

theorem flats_eq_nil {ts : List Tok} (h : flats ts = []) : ts = [] := by
  cases ts with
  | nil => rfl
  | cons t ts =>
    rw [flats_cons, List.append_eq_nil_iff] at h
    exact absurd h.1 (flat_ne_nil t)

/-- The marks of emphasis are units by themselves. -/
def isMark (u : UInt16) : Bool := u = star || u = tilde || u = underscore

theorem isMark_iff {u : UInt16} : isMark u = true ↔ u = star ∨ u = tilde ∨ u = underscore := by
  simp [isMark, or_assoc]

theorem digits_unit (n : Nat) : ∀ u ∈ js (toString n), isDigit u = true := by
  intro u hu
  obtain ⟨c, hc, rfl⟩ := List.mem_map.mp hu
  rw [Nat.toString_eq_repr, Nat.toList_repr] at hc
  have hdigit := Nat.isDigit_of_mem_toDigits (by decide) (by decide) hc
  rw [Char.isDigit_iff_toNat] at hdigit
  have hlow : 48 ≤ c.toNat := hdigit.1
  have hhigh : c.toNat ≤ 57 := hdigit.2
  have hunit : (UInt16.ofNat c.toNat).toNat = c.toNat :=
    UInt16.toNat_ofNat_of_lt' (Nat.lt_of_le_of_lt hhigh (by decide))
  rw [isDigit, Bool.and_eq_true, decide_eq_true_eq, decide_eq_true_eq, UInt16.le_iff_toNat_le, UInt16.le_iff_toNat_le,
    hunit]
  exact ⟨hlow, hhigh⟩

theorem mem_flat_of_mark {t : Tok} {u : UInt16} (hmark : isMark u = true) (hu : u ∈ t.flat) : t = .unit u := by
  cases t with
  | unit v => rw [List.mem_singleton.mp hu]
  | span index =>
    rcases List.mem_cons.mp hu with rfl | hu
    · exact absurd hmark (by decide)
    · rcases List.mem_append.mp hu with hu | hu
      · have hdigit := digits_unit index u hu
        rcases isMark_iff.mp hmark with rfl | rfl | rfl <;> exact absurd hdigit (by decide)
      · rw [List.mem_singleton.mp hu] at hmark
        exact absurd hmark (by decide)
  | opens =>
    have hall : ((js "<i>").all fun v => !isMark v) = true := by decide
    have hno := List.all_eq_true.mp hall u hu
    rw [hmark] at hno
    exact absurd hno (by decide)
  | closes =>
    have hall : ((js "</i>").all fun v => !isMark v) = true := by decide
    have hno := List.all_eq_true.mp hall u hu
    rw [hmark] at hno
    exact absurd hno (by decide)

/-- A mark in a text is one of its parts. -/
theorem flats_split {ts : List Tok} {before behind : JsString} {u : UInt16} (hmark : isMark u = true)
    (h : flats ts = before ++ u :: behind) :
    ∃ us vs, ts = us ++ .unit u :: vs ∧ flats us = before ∧ flats vs = behind := by
  induction ts generalizing before with
  | nil => exact absurd h.symm (by simp [flats])
  | cons t ts ih =>
    rw [flats_cons, List.append_eq_append_iff] at h
    rcases h with ⟨more, hmore, hrest⟩ | ⟨more, ht, hrest⟩
    · obtain ⟨us, vs, rfl, rfl, hvs⟩ := ih hrest
      exact ⟨t :: us, vs, rfl, by rw [flats_cons, hmore], hvs⟩
    · cases more with
      | nil =>
        have htail : flats ts = [] ++ u :: behind := hrest.symm
        obtain ⟨us, vs, rfl, hus, hvs⟩ := ih htail
        refine ⟨t :: us, vs, rfl, ?_, hvs⟩
        rw [flats_cons, hus, ht]
        simp
      | cons v more =>
        obtain ⟨rfl, hbehind⟩ := List.cons.inj hrest
        have hunit : t = .unit u := mem_flat_of_mark hmark (ht ▸ List.mem_append_right before List.mem_cons_self)
        subst hunit
        have hparts : before = [] ∧ more = [] := by
          have hlength := congrArg List.length ht
          rw [List.length_append, List.length_cons] at hlength
          have hone : (Tok.unit u).flat.length = 1 := rfl
          constructor
          · exact List.length_eq_zero_iff.mp (by omega)
          · exact List.length_eq_zero_iff.mp (by omega)
        obtain ⟨rfl, rfl⟩ := hparts
        exact ⟨[], ts, rfl, rfl, hbehind.symm⟩

/-- Marks after a text, and the parts before and behind them. -/
theorem flats_split_marks {marks : JsString} (hmarks : ∀ u ∈ marks, isMark u = true) (hne : marks ≠ [])
    {ts : List Tok} {before behind : JsString} (h : flats ts = before ++ (marks ++ behind)) :
    ∃ us vs, ts = us ++ (marks.map .unit ++ vs) ∧ flats us = before ∧ flats vs = behind := by
  induction marks generalizing ts before with
  | nil => exact absurd rfl hne
  | cons u marks ih =>
    obtain ⟨us, vs, rfl, hus, hvs⟩ := flats_split (hmarks u List.mem_cons_self) h
    cases marks with
    | nil => exact ⟨us, vs, rfl, hus, hvs⟩
    | cons v marks =>
      have hrest : flats vs = [] ++ (v :: marks ++ behind) := hvs
      obtain ⟨us', vs', rfl, hus', hvs'⟩ :=
        ih (fun w hw => hmarks w (List.mem_cons_of_mem u hw)) (List.cons_ne_nil v marks) hrest
      rw [flats_eq_nil hus']
      exact ⟨us, vs', rfl, hus, hvs'⟩

/-- The parts before a match and in it. -/
abbrev Region := List Tok × List Tok

/-- A match and its region. -/
def Matches (piece : JsString × Emphasis) (region : Region) : Prop :=
  flats region.1 = piece.1 ++ piece.2.lead ∧ flats region.2 = piece.2.inner

/-- Regions, each with what stands for its match. -/
def regions (around : List Tok → List Tok) (qs : List Region) : List Tok := qs.flatMap fun q => q.1 ++ around q.2

theorem regions_cons (around : List Tok → List Tok) (q : Region) (qs : List Region) :
    regions around (q :: qs) = q.1 ++ around q.2 ++ regions around qs := List.flatMap_cons

def marked (marks : JsString) (inner : List Tok) : List Tok := marks.map .unit ++ (inner ++ marks.map .unit)

def italic (inner : List Tok) : List Tok := .opens :: (inner ++ [.closes])

/-- The parts of a text whose pieces are known. -/
theorem flats_regions {marks : JsString} (hmarks : ∀ u ∈ marks, isMark u = true) (hne : marks ≠ [])
    {ps : List (JsString × Emphasis)} {last : JsString} {ts : List Tok}
    (h : flats ts = Pieces.join (Emphasis.source marks) (ps, last)) :
    ∃ qs end_, ts = regions (marked marks) qs ++ end_ ∧ List.Forall₂ Matches ps qs ∧ flats end_ = last := by
  induction ps generalizing ts with
  | nil => exact ⟨[], ts, rfl, .nil, h⟩
  | cons p ps ih =>
    obtain ⟨run, m⟩ := p
    have hparts : flats ts = (run ++ m.lead) ++ (marks ++ (m.inner ++ (marks ++
        Pieces.join (Emphasis.source marks) (ps, last)))) := by
      rw [h, join_cons, Emphasis.source]
      simp only [List.append_assoc]
    obtain ⟨us, vs, rfl, hus, hvs⟩ := flats_split_marks hmarks hne hparts
    obtain ⟨ws, xs, rfl, hws, hxs⟩ := flats_split_marks hmarks hne hvs
    obtain ⟨qs, end_, rfl, hqs, hend⟩ := ih hxs
    refine ⟨(us, ws) :: qs, end_, ?_, .cons ⟨hus, hws⟩ hqs, hend⟩
    rw [regions_cons, marked]
    simp only [List.append_assoc]

theorem Matches.exists_left {ps : List (JsString × Emphasis)} {qs : List Region} (h : List.Forall₂ Matches ps qs)
    {q : Region} (hq : q ∈ qs) : ∃ p ∈ ps, Matches p q := by
  induction h with
  | nil => cases hq
  | cons hm _ ih =>
    rcases List.mem_cons.mp hq with rfl | hq
    · exact ⟨_, List.mem_cons_self, hm⟩
    · obtain ⟨p, hp, hpq⟩ := ih hq
      exact ⟨p, List.mem_cons_of_mem _ hp, hpq⟩

theorem Matches.exists_right {ps : List (JsString × Emphasis)} {qs : List Region} (h : List.Forall₂ Matches ps qs)
    {p : JsString × Emphasis} (hp : p ∈ ps) : ∃ q ∈ qs, Matches p q := by
  induction h with
  | nil => cases hp
  | cons hm _ ih =>
    rcases List.mem_cons.mp hp with rfl | hp
    · exact ⟨_, List.mem_cons_self, hm⟩
    · obtain ⟨q, hq, hpq⟩ := ih hp
      exact ⟨q, List.mem_cons_of_mem _ hq, hpq⟩

theorem Matches.runs {ps : List (JsString × Emphasis)} {qs : List Region} (h : List.Forall₂ Matches ps qs)
    (hlead : ∀ p ∈ ps, p.2.lead = []) : List.Forall₂ (fun p run => flats run = p.1) ps (qs.map Prod.fst) := by
  induction h with
  | nil => exact .nil
  | cons hm _ ih =>
    refine .cons ?_ (ih fun p hp => hlead p (List.mem_cons_of_mem _ hp))
    rw [hm.1, hlead _ List.mem_cons_self, List.append_nil]

/-! ### Putting aside -/

/-- The parts with a span in the place of each match. -/
def heldParts : Nat → List (List Tok) → List Tok
  | _, [] => []
  | index, run :: runs => run ++ .span index :: heldParts (index + 1) runs

theorem mem_heldParts {t : Tok} {index : Nat} {runs : List (List Tok)} :
    t ∈ heldParts index runs ↔ (∃ run ∈ runs, t ∈ run) ∨ ∃ i < runs.length, t = .span (index + i) := by
  induction runs generalizing index with
  | nil => simp [heldParts]
  | cons run runs ih =>
    rw [heldParts, List.mem_append, List.mem_cons, ih]
    constructor
    · rintro (h | rfl | ⟨other, hother, h⟩ | ⟨i, hi, rfl⟩)
      · exact .inl ⟨run, List.mem_cons_self, h⟩
      · exact .inr ⟨0, Nat.succ_pos _, rfl⟩
      · exact .inl ⟨other, List.mem_cons_of_mem run hother, h⟩
      · exact .inr ⟨i + 1, Nat.succ_lt_succ hi, by rw [Nat.add_assoc, Nat.add_comm 1 i]⟩
    · rintro (⟨other, hother, h⟩ | ⟨i, hi, rfl⟩)
      · rcases List.mem_cons.mp hother with rfl | hother
        · exact .inl h
        · exact .inr (.inr (.inl ⟨other, hother, h⟩))
      · cases i with
        | zero => exact .inr (.inl rfl)
        | succ i =>
          exact .inr (.inr (.inr ⟨i, Nat.lt_of_succ_lt_succ hi, by rw [Nat.add_assoc, Nat.add_comm 1 i]⟩))

theorem holdEach_eq {β : Type} (wrap : β → JsString) {ps : List (JsString × β)} {runs : List (List Tok)}
    (h : List.Forall₂ (fun p run => flats run = p.1) ps runs) (spans : Spans) :
    holdEach wrap spans ps = ⟨spans ++ ps.map fun p => wrap p.2, flats (heldParts spans.length runs)⟩ := by
  induction h generalizing spans with
  | nil => simp [holdEach, heldParts, flats]
  | @cons p run ps runs hrun _ ih =>
    obtain ⟨before, b⟩ := p
    rw [holdEach, Spans.hold]
    dsimp only
    rw [ih, heldParts, flats_append, flats_cons, hrun, List.length_append, List.length_singleton, List.map_cons,
      List.append_assoc, List.singleton_append, List.append_assoc]
    rfl

theorem mem_regions {around : List Tok → List Tok} {qs : List Region} {t : Tok} :
    t ∈ regions around qs ↔ ∃ q ∈ qs, t ∈ q.1 ∨ t ∈ around q.2 := by
  rw [regions, List.mem_flatMap]
  simp only [List.mem_append]

theorem nul_mem_flats {ts : List Tok} {i : Nat} (h : .span i ∈ ts) : nul ∈ flats ts :=
  List.mem_flatMap.mpr ⟨.span i, h, List.mem_cons_self⟩

/-- Something put aside is in the match. -/
def Emphasis.holds (m : Emphasis) : Prop := nul ∈ m.inner

/-- The parts of a text with what is put aside of it. -/
structure Aside (v : Vaulted) (ts : List Tok) : Prop where
  flat : flats ts = v.text
  escaped : Escaped ts
  untagged : ∀ t ∈ ts, t ≠ .opens ∧ t ≠ .closes

theorem holding_eq {β : Type} (pattern : Pattern UInt16 β) (wrap : β → JsString) (v : Vaulted)
    {runs : List (List Tok)} (h : List.Forall₂ (fun p run => flats run = p.1) (pieces pattern v.text).1 runs) :
    replaceHolding pattern wrap v = ⟨v.spans ++ (found pattern v.text).map wrap,
      flats (heldParts v.spans.length runs) ++ (pieces pattern v.text).2⟩ := by
  rw [replaceHolding, holdEach_eq wrap h, found, List.map_map]
  rfl

theorem replaceHolding_spans {β : Type} (pattern : Pattern UInt16 β) (wrap : β → JsString) (v : Vaulted) :
    (replaceHolding pattern wrap v).spans = v.spans ++ (found pattern v.text).map wrap := by
  have hruns : List.Forall₂ (fun (p : JsString × β) run => flats run = p.1) (pieces pattern v.text).1
      ((pieces pattern v.text).1.map fun p => p.1.map .unit) := by
    rw [List.forall₂_map_right_iff, List.forall₂_same]
    exact fun p _ => flats_units p.1
  rw [holding_eq pattern wrap v hruns]

theorem aside_links {escaped : JsString} (h : Plain escaped) :
    ∃ ts, Aside (afterLinks escaped) ts ∧ ∀ i < (afterLinks escaped).spans.length, .span i ∈ ts := by
  have htext := join_pieces reads_link escaped
  have hruns : List.Forall₂ (fun (p : JsString × Link) run => flats run = p.1) (pieces link escaped).1
      ((pieces link escaped).1.map fun p => p.1.map .unit) := by
    rw [List.forall₂_map_right_iff, List.forall₂_same]
    exact fun p _ => flats_units p.1
  have heq := holding_eq link anchor ⟨[], escaped⟩ hruns
  rw [← afterLinks] at heq
  have hmem : ∀ t ∈ heldParts 0 ((pieces link escaped).1.map fun p => p.1.map .unit) ++
      (pieces link escaped).2.map .unit, (∃ i, t = .span i) ∨ ∃ u ∈ escaped, t = .unit u := by
    intro t ht
    rcases List.mem_append.mp ht with ht | ht
    · rcases mem_heldParts.mp ht with ⟨run, hrun, ht⟩ | ⟨i, -, rfl⟩
      · obtain ⟨p, hp, rfl⟩ := List.mem_map.mp hrun
        obtain ⟨u, hu, rfl⟩ := List.mem_map.mp ht
        refine .inr ⟨u, ?_, rfl⟩
        rw [← htext, mem_join]
        exact .inl ⟨p, hp, .inl hu⟩
      · exact .inl ⟨_, rfl⟩
    · obtain ⟨u, hu, rfl⟩ := List.mem_map.mp ht
      refine .inr ⟨u, ?_, rfl⟩
      rw [← htext, mem_join]
      exact .inr hu
  refine ⟨heldParts 0 ((pieces link escaped).1.map fun p => p.1.map .unit) ++ (pieces link escaped).2.map .unit,
    ⟨?_, ?_, ?_⟩, ?_⟩
  · rw [heq, flats_append, flats_units]
    rfl
  · intro u hu
    rcases hmem _ hu with ⟨i, hi⟩ | ⟨v, hv, huv⟩
    · cases hi
    · cases huv
      exact h u hv
  · intro t ht
    rcases hmem t ht with ⟨i, rfl⟩ | ⟨u, -, rfl⟩
    · exact ⟨Tok.noConfusion, Tok.noConfusion⟩
    · exact ⟨Tok.noConfusion, Tok.noConfusion⟩
  · intro i hi
    refine List.mem_append_left _ (mem_heldParts.mpr (.inr ⟨i, ?_, by rw [Nat.zero_add]⟩))
    rw [heq, List.nil_append, List.length_map, found, List.length_map] at hi
    rw [List.length_map]
    exact hi

/-- A pass that puts emphases aside: each has its sentinel after it, and a sentinel is gone only where a match has one
    in it. -/
theorem aside_emphasis {pattern : Pattern UInt16 Emphasis} {marks : JsString} (hmarks : ∀ u ∈ marks, isMark u = true)
    (hne : marks ≠ []) (hreads : Reads pattern (Emphasis.source marks)) {v : Vaulted} {ts : List Tok}
    (hlead : ∀ m ∈ found pattern v.text, m.lead = []) (wrap : Emphasis → JsString) (hts : Aside v ts) :
    ∃ us, Aside (replaceHolding pattern wrap v) us ∧
      (∀ i < (found pattern v.text).length, .span (v.spans.length + i) ∈ us) ∧
      ∀ i, .span i ∈ ts → .span i ∈ us ∨ ∃ m ∈ found pattern v.text, m.holds := by
  have htext : flats ts = (pieces pattern v.text).join (Emphasis.source marks) := by
    rw [join_pieces hreads, hts.flat]
  obtain ⟨qs, end_, rfl, hqs, hend⟩ := flats_regions hmarks hne htext
  have hruns : List.Forall₂ (fun (p : JsString × Emphasis) run => flats run = p.1) (pieces pattern v.text).1
      (qs.map Prod.fst) :=
    Matches.runs hqs fun p hp => hlead p.2 (List.mem_map_of_mem hp)
  have heq := holding_eq pattern wrap v hruns
  have hlength : (found pattern v.text).length = (qs.map Prod.fst).length := by
    rw [found, List.length_map, hruns.length_eq]
  have hmem : ∀ t ∈ heldParts v.spans.length (qs.map Prod.fst) ++ end_,
      (∃ i, t = .span i) ∨ t ∈ regions (marked marks) qs ++ end_ := by
    intro t ht
    rcases List.mem_append.mp ht with ht | ht
    · rcases mem_heldParts.mp ht with ⟨run, hrun, ht⟩ | ⟨i, -, rfl⟩
      · obtain ⟨q, hq, rfl⟩ := List.mem_map.mp hrun
        exact .inr (List.mem_append_left _ (mem_regions.mpr ⟨q, hq, .inl ht⟩))
      · exact .inl ⟨_, rfl⟩
    · exact .inr (List.mem_append_right _ ht)
  refine ⟨heldParts v.spans.length (qs.map Prod.fst) ++ end_, ⟨?_, ?_, ?_⟩, ?_, ?_⟩
  · rw [heq, flats_append, hend]
    rfl
  · intro u hu
    rcases hmem _ hu with ⟨i, hi⟩ | hu
    · cases hi
    · exact hts.escaped u hu
  · intro t ht
    rcases hmem t ht with ⟨i, rfl⟩ | ht
    · exact ⟨Tok.noConfusion, Tok.noConfusion⟩
    · exact hts.untagged t ht
  · intro i hi
    refine List.mem_append_left _ (mem_heldParts.mpr (.inr ⟨i, ?_, rfl⟩))
    rw [← hlength]
    exact hi
  · intro i hi
    rcases List.mem_append.mp hi with hi | hi
    · obtain ⟨q, hq, hi⟩ := mem_regions.mp hi
      rcases hi with hi | hi
      · refine .inl (List.mem_append_left _ (mem_heldParts.mpr (.inl ⟨q.1, List.mem_map_of_mem hq, hi⟩)))
      · rw [marked, List.mem_append, List.mem_append] at hi
        rcases hi with hi | hi | hi
        · obtain ⟨u, -, hu⟩ := List.mem_map.mp hi
          cases hu
        · obtain ⟨p, hp, hpq⟩ := Matches.exists_left hqs hq
          refine .inr ⟨p.2, List.mem_map_of_mem hp, ?_⟩
          rw [Emphasis.holds, ← hpq.2]
          exact nul_mem_flats hi
        · obtain ⟨u, -, hu⟩ := List.mem_map.mp hi
          cases hu
    · exact .inl (List.mem_append_right _ hi)

/-! ### Putting back -/

theorem number_digits (n : Nat) : (js (toString n)).foldl (fun n d => 10 * n + (d.toNat - 48)) 0 = n := by
  have hchars : ∀ (sofar : Nat), ∀ c ∈ Nat.toDigits 10 n,
      10 * sofar + ((UInt16.ofNat c.toNat).toNat - 48) = 10 * sofar + (c.toNat - '0'.toNat) := by
    intro sofar c hc
    have hdigit := Nat.isDigit_of_mem_toDigits (by decide) (by decide) hc
    rw [Char.isDigit_iff_toNat] at hdigit
    rw [UInt16.toNat_ofNat_of_lt' (Nat.lt_of_le_of_lt hdigit.2 (by decide))]
    rfl
  rw [js, Nat.toString_eq_repr, Nat.toList_repr, List.foldl_map, List.foldl_ext _ _ 0 hchars,
    ← Nat.ofDigitChars_eq_foldl, Nat.ofDigitChars_ten_toDigits]

theorem digits_ne_nil (n : Nat) : js (toString n) ≠ [] := by
  rw [js, Nat.toString_eq_repr, Nat.toList_repr]
  simp

theorem sentinelPattern_of_ne {first : Bool} {u : UInt16} {rest : JsString} (h : u ≠ nul) :
    sentinelPattern first u rest = none := by
  simp [sentinelPattern, h]

theorem sentinelPattern_sentinel (first : Bool) (i : Nat) (rest : JsString) :
    sentinelPattern first nul (js (toString i) ++ [nul] ++ rest) = some (i, (js (toString i) ++ [nul]).length) := by
  have htake : (js (toString i) ++ [nul] ++ rest).takeWhile isDigit = js (toString i) := by
    rw [List.append_assoc, List.takeWhile_append_of_pos (digits_unit i)]
    exact List.append_nil _
  rw [sentinelPattern, htake, List.append_assoc, List.drop_left, number_digits, List.length_append,
    List.length_singleton]
  exact if_pos (by rw [decide_eq_true (digits_ne_nil i)]; rfl)

section
variable {spans : Spans}

theorem replaceFrom_units {f : Nat → JsString} {text : JsString} (h : nul ∉ text) (rest : JsString) :
    ∀ first, ∃ next, replaceFrom sentinelPattern f first (text ++ rest) = text ++
      replaceFrom sentinelPattern f next rest := by
  induction text with
  | nil => exact fun first => ⟨first, rfl⟩
  | cons u text ih =>
    intro first
    have hu : u ≠ nul := fun hnul => h (hnul ▸ List.mem_cons_self)
    obtain ⟨next, hnext⟩ := ih (fun hnul => h (List.mem_cons_of_mem u hnul)) false
    exact ⟨next, by rw [List.cons_append, replaceFrom_of_none (sentinelPattern_of_ne hu), hnext, List.cons_append]⟩

theorem replaceFrom_flats {ts : List Tok} (h : Escaped ts) :
    ∀ first, replaceFrom sentinelPattern (fun index => spans.getD index []) first (flats ts) = values spans ts := by
  induction ts with
  | nil => exact fun _ => rfl
  | cons t ts ih =>
    intro first
    have hrest := ih fun u hu => h u (List.mem_cons_of_mem t hu)
    rw [flats_cons, values_cons]
    cases t with
    | unit u =>
      have hu : nul ∉ [u] := by
        rw [List.mem_singleton]
        exact fun hnul => (h u List.mem_cons_self).1 hnul.symm
      obtain ⟨next, hnext⟩ := replaceFrom_units hu (flats ts) first
      exact hnext.trans (congrArg ([u] ++ ·) (hrest next))
    | span i =>
      have hmatch := replaceFrom_of_match (f := fun index => spans.getD index [])
        (sentinelPattern_sentinel first i (flats ts))
      exact hmatch.trans (congrArg (spans.getD i [] ++ ·) (hrest false))
    | opens =>
      have hno : nul ∉ js "<i>" := by decide
      obtain ⟨next, hnext⟩ := replaceFrom_units hno (flats ts) first
      exact hnext.trans (congrArg (js "<i>" ++ ·) (hrest next))
    | closes =>
      have hno : nul ∉ js "</i>" := by decide
      obtain ⟨next, hnext⟩ := replaceFrom_units hno (flats ts) first
      exact hnext.trans (congrArg (js "</i>" ++ ·) (hrest next))

theorem restore_flats {ts : List Tok} (h : Escaped ts) : spans.restore (flats ts) = values spans ts :=
  replaceFrom_flats h true

end

/-! ### What is seen of the parts -/

def seen (spans : Spans) (ts : List Tok) : JsString :=
  ts.flatMap fun
    | .unit u => [u]
    | .span index => visibleText false (spans.getD index [])
    | .opens | .closes => []

@[simp] theorem seen_append (spans : Spans) (ts us : List Tok) :
    seen spans (ts ++ us) = seen spans ts ++ seen spans us :=
  List.flatMap_append

/-- How many elements `<i>` are open after the parts, from so many before. -/
def walk : Nat → List Tok → Option Nat
  | depth, [] => some depth
  | depth, .opens :: ts => walk (depth + 1) ts
  | 0, .closes :: _ => none
  | depth + 1, .closes :: ts => walk depth ts
  | depth, .unit _ :: ts | depth, .span _ :: ts => walk depth ts

def Spans.Elements (spans : Spans) : Prop := ∀ html ∈ spans, ∃ label, Element html label

section
variable {spans : Spans} {ts : List Tok}

theorem Spans.Elements.getD (h : spans.Elements) (i : Nat) :
    Element (spans.getD i []) (visibleText false (spans.getD i [])) := by
  rcases Nat.lt_or_ge i spans.length with hi | hi
  · obtain ⟨label, hlabel⟩ := h (spans.getD i []) (by rw [List.getD_eq_getElem _ _ hi]; exact List.getElem_mem hi)
    rw [hlabel.shown_eq]
    exact hlabel
  · rw [List.getD_eq_default _ _ hi]
    exact element_plain fun u hu => absurd hu List.not_mem_nil

theorem values_whole (hspans : spans.Elements) (h : Escaped ts) : nul ∉ values spans ts := by
  intro hnul
  obtain ⟨t, ht, hnul⟩ := List.mem_flatMap.mp hnul
  cases t with
  | unit u => exact (h u ht).1 (List.mem_singleton.mp hnul).symm
  | span i => exact (hspans.getD i).whole hnul
  | opens =>
    have hno : nul ∉ js "<i>" := by decide
    exact hno hnul
  | closes =>
    have hno : nul ∉ js "</i>" := by decide
    exact hno hnul

theorem visibleText_values (hspans : spans.Elements) (h : Escaped ts) (rest : JsString) :
    visibleText false (values spans ts ++ rest) = seen spans ts ++ visibleText false rest := by
  induction ts with
  | nil => rfl
  | cons t ts ih =>
    have htail := ih fun u hu => h u (List.mem_cons_of_mem t hu)
    rw [values_cons, List.append_assoc]
    cases t with
    | unit u =>
      have hplain : Plain [u] := fun v hv => List.mem_singleton.mp hv ▸ h u List.mem_cons_self
      exact ((element_plain hplain).shown _).trans (congrArg ([u] ++ ·) htail)
    | span i =>
      refine ((hspans.getD i).shown _).trans ?_
      rw [htail, ← List.append_assoc]
      rfl
    | opens => exact htail
    | closes => exact htail

theorem values_nested (hspans : spans.Elements) (h : Escaped ts) {elements : List JsString} {rest : JsString}
    (hrest : Nested elements rest) : ∀ depth, walk depth ts = some 0 →
      Nested (List.replicate depth (js "i") ++ elements) (values spans ts ++ rest) := by
  induction ts with
  | nil =>
    intro depth hwalk
    cases hwalk
    exact hrest
  | cons t ts ih =>
    intro depth hwalk
    have htail := ih fun u hu => h u (List.mem_cons_of_mem t hu)
    rw [values_cons, List.append_assoc]
    cases t with
    | unit u =>
      rw [walk] at hwalk
      obtain ⟨-, hlt, hgt⟩ := h u List.mem_cons_self
      exact .unit hlt hgt (htail depth hwalk)
    | span i =>
      rw [walk] at hwalk
      exact (hspans.getD i).nested _ _ (htail depth hwalk)
    | opens =>
      rw [walk] at hwalk
      have hopen := @Nested.opens (List.replicate depth (js "i") ++ elements) (js "i") [] _ (by decide) (by decide)
        (.inl rfl) (fun u hu => absurd hu List.not_mem_nil) (htail (depth + 1) hwalk)
      exact hopen
    | closes =>
      cases depth with
      | zero => cases hwalk
      | succ depth =>
        rw [walk] at hwalk
        exact .closes (htail depth hwalk)

end

/-! ### The rules for italics -/

theorem walk_append (depth : Nat) (ts us : List Tok) :
    walk depth (ts ++ us) = (walk depth ts).bind fun next => walk next us := by
  induction ts generalizing depth with
  | nil => rfl
  | cons t ts ih =>
    cases t with
    | closes =>
      cases depth with
      | zero => rfl
      | succ depth => exact ih depth
    | unit u => exact ih depth
    | span i => exact ih depth
    | opens => exact ih (depth + 1)

/-- Within one more element the same parts open and close as many. -/
theorem walk_succ {ts : List Tok} {depth next : Nat} (h : walk depth ts = some next) :
    walk (depth + 1) ts = some (next + 1) := by
  induction ts generalizing depth with
  | nil =>
    cases h
    rfl
  | cons t ts ih =>
    cases t with
    | closes =>
      cases depth with
      | zero => cases h
      | succ depth => exact ih h
    | unit u => exact ih h
    | span i => exact ih h
    | opens => exact ih h

theorem walk_units (depth : Nat) (text : JsString) : walk depth (text.map .unit) = some depth := by
  induction text with
  | nil => rfl
  | cons u text ih => exact ih

theorem walk_untagged {ts : List Tok} (h : ∀ t ∈ ts, t ≠ .opens ∧ t ≠ .closes) (depth : Nat) :
    walk depth ts = some depth := by
  induction ts with
  | nil => rfl
  | cons t ts ih =>
    have hrest := ih fun u hu => h u (List.mem_cons_of_mem t hu)
    have hhere := h t List.mem_cons_self
    cases t with
    | unit u => exact hrest
    | span i => exact hrest
    | opens => exact absurd rfl hhere.1
    | closes => exact absurd rfl hhere.2

/-- Tags around a match leave the elements around it as they are, also where it holds one side of a pair. -/
theorem walk_italic {marks : JsString} {inner : List Tok} {depth next : Nat}
    (h : walk depth (marked marks inner) = some next) : walk depth (italic inner) = some next := by
  rw [marked, walk_append, walk_units, Option.bind_some, walk_append] at h
  obtain ⟨after, hinner, hmarks⟩ := Option.bind_eq_some_iff.mp h
  rw [walk_units] at hmarks
  cases hmarks
  rw [italic, walk, walk_append, walk_succ hinner]
  rfl

theorem walk_regions {marks : JsString} {qs : List Region} {depth next : Nat}
    (h : walk depth (regions (marked marks) qs) = some next) : walk depth (regions italic qs) = some next := by
  induction qs generalizing depth with
  | nil => exact h
  | cons q qs ih =>
    rw [regions_cons, walk_append, walk_append] at h ⊢
    obtain ⟨after, hq, hrest⟩ := Option.bind_eq_some_iff.mp h
    obtain ⟨before, hrun, hmarked⟩ := Option.bind_eq_some_iff.mp hq
    rw [hrun, Option.bind_some, walk_italic hmarked, Option.bind_some]
    exact ih hrest

/-- The rule for underscores may take some that another emphasis has in it. -/
def unmarked (text : JsString) : JsString := text.filter (· ≠ underscore)

theorem unmarked_append (s t : JsString) : unmarked (s ++ t) = unmarked s ++ unmarked t := List.filter_append ..

theorem unmarked_eq_nil {marks : JsString} (h : ∀ u ∈ marks, u = underscore) : unmarked marks = [] :=
  List.filter_eq_nil_iff.mpr fun u hu => by rw [h u hu]; decide

theorem seen_units (spans : Spans) (text : JsString) : seen spans (text.map .unit) = text := by
  induction text with
  | nil => rfl
  | cons u text ih => exact congrArg (u :: ·) ih

theorem unmarked_regions {marks : JsString} (hmarks : ∀ u ∈ marks, u = underscore) (spans : Spans) (qs : List Region) :
    unmarked (seen spans (regions italic qs)) = unmarked (seen spans (regions (marked marks) qs)) := by
  induction qs with
  | nil => rfl
  | cons q qs ih =>
    have haround : unmarked (seen spans (italic q.2)) = unmarked (seen spans (marked marks q.2)) := by
      have hopen : seen spans (italic q.2) = seen spans q.2 ++ [] := seen_append spans q.2 [.closes]
      rw [hopen, List.append_nil, marked, seen_append, seen_append, seen_units, unmarked_append, unmarked_append,
        unmarked_eq_nil hmarks, List.nil_append, List.append_nil]
    rw [regions_cons, regions_cons, seen_append, seen_append, seen_append, seen_append, unmarked_append,
      unmarked_append, unmarked_append, unmarked_append, haround, ih]

theorem infix_regions {qs : List Region} {q : Region} (hq : q ∈ qs) : q.2 <:+: regions italic qs := by
  obtain ⟨before, behind, rfl⟩ := List.append_of_mem hq
  refine ⟨regions italic before ++ q.1 ++ [.opens], [.closes] ++ regions italic behind, ?_⟩
  simp [regions, italic]

theorem infix_seen {spans : Spans} {ts us : List Tok} (h : ts <:+: us) : seen spans ts <:+: seen spans us := by
  obtain ⟨before, behind, rfl⟩ := h
  exact ⟨seen spans before, seen spans behind, by rw [seen_append, seen_append]⟩

theorem infix_unmarked {s t : JsString} (h : s <:+: t) : unmarked s <:+: unmarked t := by
  obtain ⟨before, behind, rfl⟩ := h
  exact ⟨unmarked before, unmarked behind, by rw [unmarked_append, unmarked_append]⟩

/-- The text with the matches in italics. -/
theorem flats_italic {ps : List (JsString × Emphasis)} {qs : List Region} (h : List.Forall₂ Matches ps qs)
    (end_ : List Tok) :
    flats (regions italic qs ++ end_) = Pieces.join (fun m => m.lead ++ tagged "i" m.inner) (ps, flats end_) := by
  induction h with
  | nil => rfl
  | @cons p q ps qs hm _ ih =>
    obtain ⟨run, m⟩ := p
    have hitalic : flats (italic q.2) = tagged "i" m.inner := by
      rw [italic, flats_cons, flats_append, hm.2]
      rfl
    rw [regions_cons, List.append_assoc, flats_append, flats_append, ih, hm.1, hitalic, join_cons]
    simp only [List.append_assoc]

theorem mem_italic {marks : JsString} {qs : List Region} {t : Tok} (h : t ∈ regions italic qs) :
    t = .opens ∨ t = .closes ∨ t ∈ regions (marked marks) qs := by
  obtain ⟨q, hq, h⟩ := mem_regions.mp h
  rcases h with h | h
  · exact .inr (.inr (mem_regions.mpr ⟨q, hq, .inl h⟩))
  · rcases List.mem_cons.mp h with rfl | h
    · exact .inl rfl
    · rcases List.mem_append.mp h with h | h
      · exact .inr (.inr (mem_regions.mpr ⟨q, hq, .inr (List.mem_append_right _ (List.mem_append_left _ h))⟩))
      · exact .inr (.inl (List.mem_singleton.mp h))

theorem span_mem_italic {marks : JsString} {qs : List Region} {i : Nat} (h : .span i ∈ regions (marked marks) qs) :
    .span i ∈ regions italic qs := by
  obtain ⟨q, hq, h⟩ := mem_regions.mp h
  refine mem_regions.mpr ⟨q, hq, ?_⟩
  rcases h with h | h
  · exact .inl h
  · rw [marked, List.mem_append, List.mem_append] at h
    rcases h with h | h | h
    · obtain ⟨u, -, hu⟩ := List.mem_map.mp h
      cases hu
    · exact .inr (List.mem_cons_of_mem _ (List.mem_append_left _ h))
    · obtain ⟨u, -, hu⟩ := List.mem_map.mp h
      cases hu

/-- What a rule for italics keeps of the parts. -/
structure Kept (ts us : List Tok) : Prop where
  escaped : Escaped ts → Escaped us
  spans : ∀ i, .span i ∈ ts → .span i ∈ us
  walk : ∀ {depth next}, walk depth ts = some next → walk depth us = some next

theorem Kept.trans {ts us vs : List Tok} (h : Kept ts us) (h' : Kept us vs) : Kept ts vs where
  escaped := fun hts => h'.escaped (h.escaped hts)
  spans := fun i hi => h'.spans i (h.spans i hi)
  walk := fun hts => h'.walk (h.walk hts)

theorem kept_italic (marks : JsString) (qs : List Region) (end_ : List Tok) :
    Kept (regions (marked marks) qs ++ end_) (regions italic qs ++ end_) where
  escaped := by
    intro hts u hu
    rcases List.mem_append.mp hu with hu | hu
    · rcases mem_italic hu with hu | hu | hu
      · cases hu
      · cases hu
      · exact hts u (List.mem_append_left _ hu)
    · exact hts u (List.mem_append_right _ hu)
  spans := by
    intro i hi
    rcases List.mem_append.mp hi with hi | hi
    · exact List.mem_append_left _ (span_mem_italic hi)
    · exact List.mem_append_right _ hi
  walk := by
    intro depth next h
    rw [walk_append] at h ⊢
    obtain ⟨after, hregions, hend⟩ := Option.bind_eq_some_iff.mp h
    rw [walk_regions hregions]
    exact hend

/-- A rule for italics, on the parts of a text. -/
theorem italics {pattern : Pattern UInt16 Emphasis} {marks : JsString} (hmarks : ∀ u ∈ marks, isMark u = true)
    (hne : marks ≠ []) (hreads : Reads pattern (Emphasis.source marks)) {text : JsString} {ts : List Tok}
    (hts : flats ts = text) :
    ∃ us, flats us = replace pattern (fun m => m.lead ++ tagged "i" m.inner) text ∧ Kept ts us ∧
      (∀ m ∈ found pattern text, ∃ inner, flats inner = m.inner ∧ inner <:+: us) ∧
      ((∀ u ∈ marks, u = underscore) → ∀ spans, unmarked (seen spans us) = unmarked (seen spans ts)) := by
  have htext : flats ts = (pieces pattern text).join (Emphasis.source marks) := by rw [join_pieces hreads, hts]
  obtain ⟨qs, end_, rfl, hqs, hend⟩ := flats_regions hmarks hne htext
  refine ⟨regions italic qs ++ end_, ?_, kept_italic marks qs end_, ?_, ?_⟩
  · rw [flats_italic hqs, hend]
    rfl
  · intro m hm
    obtain ⟨p, hp, rfl⟩ := List.mem_map.mp hm
    obtain ⟨q, hq, hpq⟩ := Matches.exists_right hqs hp
    exact ⟨q.2, hpq.2, (infix_regions hq).trans (List.prefix_append _ _).isInfix⟩
  · intro hunderscores spans
    rw [seen_append, seen_append, unmarked_append, unmarked_append, unmarked_regions hunderscores]

end Empyralis.Gateway.ChannelMarkdown

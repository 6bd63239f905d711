import Empyralis.Gateway.MarkdownParts

/-! What the rendering of Markdown gives back of what it puts aside. -/

namespace Empyralis.Gateway.ChannelMarkdown

open Codec Scan

/-- What is seen of a fenced block: of one without a line behind the fence, all that is between the fences. -/
def Fenced.visible (block : Fenced) : JsString := if block.newline then block.value else block.header ++ block.value

/-- What is seen of an emphasis, with what is put aside in it. -/
def Emphasis.visible (spans : Spans) (m : Emphasis) : JsString := visibleText false (spans.restore m.inner)

/-- The constructs of a segment are seen in what is made of it. -/
def Shown (html : JsString) : Segment → Prop
  | .codeBlock block => escapeHtml block.visible <:+: visibleText false html
  | .inlineCode value => escapeHtml value <:+: visibleText false html
  | .text value =>
    let escaped := escapeHtml value
    let spans := (afterStrike escaped).spans
    (∀ m ∈ found link escaped, m.label <:+: visibleText false html) ∧
    (∀ m ∈ found bold (afterLinks escaped).text, m.visible spans <:+: visibleText false html) ∧
    (∀ m ∈ found strike (afterBold escaped).text, m.visible spans <:+: visibleText false html) ∧
    (∀ m ∈ found italicStar (afterStrike escaped).text,
      unmarked (m.visible spans) <:+: unmarked (visibleText false html)) ∧
    (∀ m ∈ found italicUnderscore (afterStars escaped),
      unmarked (m.visible spans) <:+: unmarked (visibleText false html))

structure Restored (md : JsString) : Prop where
  whole : nul ∉ (renderMarkdownToTelegramHtml md).text
  nested : (renderMarkdownToTelegramHtml md).formatted = true → Nested [] (renderMarkdownToTelegramHtml md).text
  shown : ∀ segment ∈ segmentMarkdown md, Shown (renderSegment segment).html segment

/-- A bold or struck text holds a span put aside before it. -/
def Entangled (escaped : JsString) : Prop :=
  (∃ m ∈ found bold (afterLinks escaped).text, m.holds) ∨ ∃ m ∈ found strike (afterBold escaped).text, m.holds

/-- A segment that loses a part; of a block without a line behind its fence the code takes the beginning for a name. -/
def Loses : Segment → Prop
  | .text value => Entangled (escapeHtml value)
  | .inlineCode _ => False
  | .codeBlock block => block.newline = false ∧ block.header ≠ []

/-! ### The emphases that are put aside -/

theorem lead_eq_nil {pattern : Pattern UInt16 Emphasis} {mark : UInt16} {closes : JsString → Bool} {marks : JsString}
    (hpattern : ∀ first u rest, pattern first u rest = between mark closes marks u rest []) (hmarks : marks ≠ [])
    (hcloses : ∀ text, closes text = true → marks <+: text) {text : JsString} {m : Emphasis}
    (h : m ∈ found pattern text) : m.lead = [] := by
  obtain ⟨first, u, rest, more, hmatch⟩ := match_of_mem_found h
  rw [hpattern] at hmatch
  exact (between_eq_some hmarks hcloses hmatch).1

theorem lead_bold {text : JsString} {m : Emphasis} (h : m ∈ found bold text) : m.lead = [] :=
  lead_eq_nil (fun _ _ _ => rfl) (by decide) (fun _ => List.isPrefixOf_iff_prefix.mp) h

theorem lead_strike {text : JsString} {m : Emphasis} (h : m ∈ found strike text) : m.lead = [] :=
  lead_eq_nil (fun _ _ _ => rfl) (by decide) (fun _ => List.isPrefixOf_iff_prefix.mp) h

theorem lead_italicStar {text : JsString} {m : Emphasis} (h : m ∈ found italicStar text) : m.lead = [] :=
  lead_eq_nil (fun _ _ _ => rfl) (by decide) (fun _ => List.isPrefixOf_iff_prefix.mp) h

theorem marks_of_all {marks : JsString} (h : marks.all isMark = true) : ∀ u ∈ marks, isMark u = true :=
  List.all_eq_true.mp h

/-- A match and the span that is put aside for it. -/
theorem held_index {β : Type} {pattern : Pattern UInt16 β} (wrap : β → JsString) {v : Vaulted} {b : β}
    (h : b ∈ found pattern v.text) : ∃ i < (found pattern v.text).length,
      (replaceHolding pattern wrap v).spans.getD (v.spans.length + i) [] = wrap b := by
  obtain ⟨i, hi, rfl⟩ := List.getElem_of_mem h
  refine ⟨i, hi, ?_⟩
  rw [replaceHolding_spans, List.getD_append_right _ _ _ _ (Nat.le_add_right _ i), Nat.add_sub_cancel_left,
    List.getD_eq_getElem _ _ (by rw [List.length_map]; exact hi), List.getElem_map]

theorem getD_held {β : Type} (pattern : Pattern UInt16 β) (wrap : β → JsString) {v : Vaulted} {i : Nat}
    (hi : i < v.spans.length) : (replaceHolding pattern wrap v).spans.getD i [] = v.spans.getD i [] := by
  rw [replaceHolding_spans, List.getD_append _ _ _ _ hi]

theorem span_of_held {β : Type} {pattern : Pattern UInt16 β} {wrap : β → JsString} {v : Vaulted} {us : List Tok}
    {P : Prop} (hbefore : ∀ i < v.spans.length, .span i ∈ us ∨ P)
    (hnew : ∀ i < (found pattern v.text).length, .span (v.spans.length + i) ∈ us) :
    ∀ i < (replaceHolding pattern wrap v).spans.length, .span i ∈ us ∨ P := by
  intro i hi
  rw [replaceHolding_spans, List.length_append, List.length_map] at hi
  rcases Nat.lt_or_ge i v.spans.length with hlt | hge
  · exact hbefore i hlt
  · obtain ⟨j, rfl⟩ := Nat.exists_eq_add_of_le hge
    exact .inl (hnew j (Nat.lt_of_add_lt_add_left hi))

theorem nul_mem_tagged {name : String} {m : Emphasis} (h : m.holds) : nul ∈ tagged name m.inner :=
  List.mem_append_left _ (List.mem_append_right _ h)

/-- With all put aside, each span has its sentinel in the text; or a bold or struck text holds one, and there is a
    sentinel whose span it is. -/
theorem aside_strike {escaped : JsString} (h : Plain escaped) :
    ∃ ts, Aside (afterStrike escaped) ts ∧
      (∀ i < (afterStrike escaped).spans.length, .span i ∈ ts ∨ Entangled escaped) ∧
      (Entangled escaped → ∃ i, .span i ∈ ts ∧ nul ∈ (afterStrike escaped).spans.getD i []) := by
  obtain ⟨ts, hts, hlinks⟩ := aside_links h
  obtain ⟨us, hus, hbolds, hkeep⟩ := aside_emphasis (marks_of_all (by decide)) (by decide) reads_bold
    (fun _ => lead_bold) (fun m => tagged "b" m.inner) hts
  obtain ⟨vs, hvs, hstrikes, hkeep'⟩ := aside_emphasis (marks_of_all (by decide)) (by decide) reads_strike
    (fun _ => lead_strike) (fun m => tagged "s" m.inner) hus
  have hheld : ∀ i < (afterBold escaped).spans.length, .span i ∈ us ∨ Entangled escaped :=
    span_of_held (fun i hi => (hkeep i (hlinks i hi)).imp_right .inl) hbolds
  have hstrike : (∃ m ∈ found strike (afterBold escaped).text, m.holds) →
      ∃ i, .span i ∈ vs ∧ nul ∈ (afterStrike escaped).spans.getD i [] := by
    rintro ⟨m, hm, hholds⟩
    obtain ⟨i, hi, hspan⟩ := held_index (fun m => tagged "s" m.inner) hm
    refine ⟨(afterBold escaped).spans.length + i, hstrikes i hi, ?_⟩
    rw [afterStrike, hspan]
    exact nul_mem_tagged hholds
  refine ⟨vs, hvs, ?_, ?_⟩
  · refine span_of_held (fun i hi => ?_) hstrikes
    rcases hheld i hi with hi | hentangled
    · exact (hkeep' i hi).imp_right .inr
    · exact .inr hentangled
  · rintro (⟨m, hm, hholds⟩ | hholds)
    · obtain ⟨i, hi, hspan⟩ := held_index (fun m => tagged "b" m.inner) hm
      rcases hkeep' _ (hbolds i hi) with hmem | hholds'
      · refine ⟨_, hmem, ?_⟩
        have hlt : (afterLinks escaped).spans.length + i < (afterBold escaped).spans.length := by
          rw [afterBold, replaceHolding_spans, List.length_append, List.length_map]
          exact Nat.add_lt_add_left hi _
        rw [afterStrike, getD_held strike _ hlt, afterBold, hspan]
        exact nul_mem_tagged hholds
      · exact hstrike hholds'
    · exact hstrike hholds

/-! ### A text in parts -/

theorem Escaped.of_sub {ts us : List Tok} (h : Escaped us) (hts : ts <:+: us) : Escaped ts :=
  fun u hu => h u (hts.subset hu)

/-- The parts of what is made of a text. -/
structure Rendered (escaped : JsString) (ts : List Tok) : Prop where
  html : (applyInlineHtml escaped).html = values (afterStrike escaped).spans ts
  units : Escaped ts
  nested : walk 0 ts = some 0
  held : ∀ i < (afterStrike escaped).spans.length, .span i ∈ ts ∨ Entangled escaped
  lost : Entangled escaped → ∃ i, .span i ∈ ts ∧ nul ∈ (afterStrike escaped).spans.getD i []
  stars : ∀ m ∈ found italicStar (afterStrike escaped).text, ∃ inner, flats inner = m.inner ∧ Escaped inner ∧
    unmarked (seen (afterStrike escaped).spans inner) <:+: unmarked (seen (afterStrike escaped).spans ts)
  underscores : ∀ m ∈ found italicUnderscore (afterStars escaped), ∃ inner, flats inner = m.inner ∧ Escaped inner ∧
    unmarked (seen (afterStrike escaped).spans inner) <:+: unmarked (seen (afterStrike escaped).spans ts)

theorem afterStars_eq (escaped : JsString) :
    afterStars escaped = replace italicStar (fun m => m.lead ++ tagged "i" m.inner) (afterStrike escaped).text := by
  refine replace_congr fun m hm => ?_
  rw [lead_italicStar hm, List.nil_append]

/-- A plain text is rendered from tokens that are properly nested. -/
theorem rendered {escaped : JsString} (h : Plain escaped) : ∃ ts, Rendered escaped ts := by
  obtain ⟨ts, hts, hheld, hlost⟩ := aside_strike h
  obtain ⟨us, hus, hstars, hinner, -⟩ := italics (marks_of_all (by decide)) (by decide) reads_italicStar hts.flat
  rw [← afterStars_eq] at hus
  obtain ⟨vs, hvs, hunderscores, hinner', hseen⟩ :=
    italics (marks_of_all (by decide)) (by decide) reads_italicUnderscore hus
  have hkept := hstars.trans hunderscores
  have hescaped : Escaped vs := hkept.escaped hts.escaped
  refine ⟨vs, ?_, hescaped, hkept.walk (walk_untagged hts.untagged 0), ?_, ?_, ?_, ?_⟩
  · rw [applyInlineHtml, afterUnderscores, ← hvs]
    exact restore_flats hescaped
  · exact fun i hi => (hheld i hi).imp_left (hkept.spans i)
  · intro hentangled
    obtain ⟨i, hi, hnul⟩ := hlost hentangled
    exact ⟨i, hkept.spans i hi, hnul⟩
  · intro m hm
    obtain ⟨inner, hflat, hinfix⟩ := hinner m hm
    refine ⟨inner, hflat, (hstars.escaped hts.escaped).of_sub hinfix, ?_⟩
    rw [hseen (fun u hu => List.mem_singleton.mp hu)]
    exact infix_unmarked (infix_seen hinfix)
  · intro m hm
    obtain ⟨inner, hflat, hinfix⟩ := hinner' m hm
    exact ⟨inner, hflat, hescaped.of_sub hinfix, infix_unmarked (infix_seen hinfix)⟩

/-- A text with a span put aside in another is rendered with the sentinel. -/
theorem Rendered.nul_mem {escaped : JsString} {ts : List Tok} (h : Rendered escaped ts)
    (hentangled : Entangled escaped) : nul ∈ (applyInlineHtml escaped).html := by
  obtain ⟨i, hi, hnul⟩ := h.lost hentangled
  rw [h.html]
  exact List.mem_flatMap.mpr ⟨.span i, hi, hnul⟩

/-! ### The spans of a text that puts nothing aside in another -/

theorem sentinel_untagged (i : Nat) : ∀ u ∈ sentinel i, u ≠ 0x3C ∧ u ≠ 0x3E := by
  intro u hu
  rcases List.mem_cons.mp hu with rfl | hu
  · decide
  · rcases List.mem_append.mp hu with hu | hu
    · have hdigit := digits_unit i u hu
      constructor <;> rintro rfl <;> exact absurd hdigit (by decide)
    · rw [List.mem_singleton.mp hu]
      decide

theorem Aside.text_untagged {v : Vaulted} {ts : List Tok} (h : Aside v ts) : ∀ u ∈ v.text, u ≠ 0x3C ∧ u ≠ 0x3E := by
  intro u hu
  rw [← h.flat] at hu
  obtain ⟨t, ht, hu⟩ := List.mem_flatMap.mp hu
  cases t with
  | unit w =>
    rw [List.mem_singleton.mp hu]
    exact (h.escaped w ht).2
  | span i => exact sentinel_untagged i u hu
  | opens => exact absurd rfl (h.untagged _ ht).1
  | closes => exact absurd rfl (h.untagged _ ht).2

theorem Aside.plain_inner {v : Vaulted} {ts : List Tok} (h : Aside v ts) {pattern : Pattern UInt16 Emphasis}
    {marks : JsString} (hreads : Reads pattern (Emphasis.source marks)) {m : Emphasis} (hm : m ∈ found pattern v.text)
    (hfree : ¬ m.holds) : Plain m.inner := by
  intro u hu
  have hsource : u ∈ m.source marks :=
    List.mem_append_right _ (List.mem_append_left _ (List.mem_append_right _ hu))
  refine ⟨?_, h.text_untagged u (mem_of_mem_source hreads hm hsource)⟩
  rintro rfl
  exact hfree hu

theorem plain_link {escaped : JsString} (h : Plain escaped) {m : Link} (hm : m ∈ found link escaped) :
    Plain m.label ∧ Plain m.url := by
  have hsource : ∀ u ∈ m.source, u ≠ nul ∧ u ≠ 0x3C ∧ u ≠ 0x3E :=
    fun u hu => h u (mem_of_mem_source reads_link hm hu)
  constructor
  · exact fun u hu => hsource u (by simp [Link.source, hu])
  · exact fun u hu => hsource u (by simp [Link.source, hu])

theorem afterStrike_spans (escaped : JsString) :
    (afterStrike escaped).spans = (found link escaped).map anchor ++
      (found bold (afterLinks escaped).text).map (fun m => tagged "b" m.inner) ++
      (found strike (afterBold escaped).text).map (fun m => tagged "s" m.inner) := by
  rw [afterStrike, replaceHolding_spans, afterBold, replaceHolding_spans, afterLinks, replaceHolding_spans,
    List.nil_append]

section
variable {escaped : JsString} (h : Plain escaped) (hfree : ¬ Entangled escaped)
include h hfree

theorem plain_bold {m : Emphasis} (hm : m ∈ found bold (afterLinks escaped).text) : Plain m.inner := by
  obtain ⟨ts, hts, -⟩ := aside_links h
  exact hts.plain_inner reads_bold hm fun hholds => hfree (.inl ⟨m, hm, hholds⟩)

theorem plain_strike {m : Emphasis} (hm : m ∈ found strike (afterBold escaped).text) : Plain m.inner := by
  obtain ⟨ts, hts, -⟩ := aside_links h
  obtain ⟨us, hus, -⟩ := aside_emphasis (marks_of_all (by decide)) (by decide) reads_bold (fun _ => lead_bold)
    (fun m => tagged "b" m.inner) hts
  exact hus.plain_inner reads_strike hm fun hholds => hfree (.inr ⟨m, hm, hholds⟩)

theorem elements_of_free : (afterStrike escaped).spans.Elements := by
  intro html hhtml
  rw [afterStrike_spans, List.mem_append, List.mem_append] at hhtml
  rcases hhtml with (hhtml | hhtml) | hhtml
  · obtain ⟨m, hm, rfl⟩ := List.mem_map.mp hhtml
    obtain ⟨hlabel, hurl⟩ := plain_link h hm
    exact ⟨m.label, element_anchor hlabel hurl⟩
  · obtain ⟨m, hm, rfl⟩ := List.mem_map.mp hhtml
    exact ⟨m.inner, element_tagged (element_plain (plain_bold h hfree hm)) (by decide) (by decide)⟩
  · obtain ⟨m, hm, rfl⟩ := List.mem_map.mp hhtml
    exact ⟨m.inner, element_tagged (element_plain (plain_strike h hfree hm)) (by decide) (by decide)⟩

end

theorem Rendered.element {escaped : JsString} {ts : List Tok} (h : Rendered escaped ts)
    (hspans : (afterStrike escaped).spans.Elements) :
    Element (applyInlineHtml escaped).html (seen (afterStrike escaped).spans ts) where
  whole := by
    rw [h.html]
    exact values_whole hspans h.units
  nested := by
    intro elements rest hrest
    rw [h.html]
    exact values_nested hspans h.units hrest 0 h.nested
  shown := by
    intro rest
    rw [h.html]
    exact visibleText_values hspans h.units rest

theorem seen_span (spans : Spans) {ts : List Tok} {i : Nat} (hi : .span i ∈ ts) :
    visibleText false (spans.getD i []) <:+: seen spans ts := by
  obtain ⟨before, behind, rfl⟩ := List.append_of_mem hi
  refine ⟨seen spans before, seen spans behind, ?_⟩
  rw [seen_append, List.append_assoc]
  rfl

/-- What is seen of a span is seen of the text. -/
theorem Rendered.shown_span {escaped : JsString} {ts : List Tok} (h : Rendered escaped ts)
    (hfree : ¬ Entangled escaped) {html label : JsString} (hhtml : html ∈ (afterStrike escaped).spans)
    (helement : Element html label) : label <:+: seen (afterStrike escaped).spans ts := by
  obtain ⟨i, hi, rfl⟩ := List.getElem_of_mem hhtml
  have hspan : .span i ∈ ts := (h.held i hi).resolve_right hfree
  have hinfix := seen_span (afterStrike escaped).spans hspan
  rw [List.getD_eq_getElem _ _ hi, helement.shown_eq] at hinfix
  exact hinfix

theorem visible_flats {spans : Spans} (hspans : spans.Elements) {m : Emphasis} {inner : List Tok}
    (hflat : flats inner = m.inner) (hinner : Escaped inner) : m.visible spans = seen spans inner := by
  have hvalues := visibleText_values hspans hinner []
  rw [List.append_nil] at hvalues
  rw [Emphasis.visible, ← hflat, restore_flats hinner, hvalues]
  exact List.append_nil _

theorem visible_plain {spans : Spans} (hspans : spans.Elements) {m : Emphasis} (hplain : Plain m.inner) :
    m.visible spans = m.inner := by
  have hunits : Escaped (m.inner.map .unit) := by
    intro u hu
    obtain ⟨v, hv, hvu⟩ := List.mem_map.mp hu
    cases hvu
    exact hplain u hv
  rw [visible_flats hspans (flats_units m.inner) hunits, seen_units]

/-- A text whose marks are not entangled is an element and shows itself. -/
theorem shown_text {value : JsString} (h : nul ∉ value) (hfree : ¬ Entangled (escapeHtml value)) :
    (∃ label, Element (applyInlineHtml (escapeHtml value)).html label) ∧
      Shown (applyInlineHtml (escapeHtml value)).html (.text value) := by
  have hplain := escapeHtml_plain h
  obtain ⟨ts, hts⟩ := rendered hplain
  have hspans := elements_of_free hplain hfree
  have helement := hts.element hspans
  refine ⟨⟨_, helement⟩, ?_⟩
  rw [Shown, helement.shown_eq]
  have hmem := afterStrike_spans (escapeHtml value)
  refine ⟨?_, ?_, ?_, ?_, ?_⟩
  · intro m hm
    obtain ⟨hlabel, hurl⟩ := plain_link hplain hm
    refine hts.shown_span hfree ?_ (element_anchor hlabel hurl)
    rw [hmem]
    exact List.mem_append_left _ (List.mem_append_left _ (List.mem_map_of_mem hm))
  · intro m hm
    have hinner := plain_bold hplain hfree hm
    rw [visible_plain hspans hinner]
    refine hts.shown_span hfree ?_ (@element_tagged _ _ (element_plain hinner) "b" (by decide) (by decide))
    rw [hmem]
    exact List.mem_append_left _ (List.mem_append_right _ (List.mem_map.mpr ⟨m, hm, rfl⟩))
  · intro m hm
    have hinner := plain_strike hplain hfree hm
    rw [visible_plain hspans hinner]
    refine hts.shown_span hfree ?_ (@element_tagged _ _ (element_plain hinner) "s" (by decide) (by decide))
    rw [hmem]
    exact List.mem_append_right _ (List.mem_map.mpr ⟨m, hm, rfl⟩)
  · intro m hm
    obtain ⟨inner, hflat, hunits, hinfix⟩ := hts.stars m hm
    rw [visible_flats hspans hflat hunits]
    exact hinfix
  · intro m hm
    obtain ⟨inner, hflat, hunits, hinfix⟩ := hts.underscores m hm
    rw [visible_flats hspans hflat hunits]
    exact hinfix

/-! ### The segments of a text -/

/-- What a segment has of the text. -/
def Segment.content : Segment → JsString
  | .text value | .inlineCode value => value
  | .codeBlock block => block.header ++ block.value

theorem mem_textSegment {value : JsString} {segment : Segment} (h : segment ∈ textSegment value) :
    segment = .text value := by
  rw [textSegment] at h
  split at h
  · cases h
  · exact List.mem_singleton.mp h

theorem content_subset_inline {text : JsString} {segment : Segment} (h : segment ∈ pushTextWithInlineCode text) :
    ∀ u ∈ segment.content, u ∈ text := by
  intro u hu
  rw [← join_pieces reads_inlineCode text, mem_join]
  rcases List.mem_append.mp h with h | h
  · obtain ⟨piece, hpiece, h⟩ := List.mem_flatMap.mp h
    rcases List.mem_append.mp h with h | h
    · rw [mem_textSegment h] at hu
      exact .inl ⟨piece, hpiece, .inl hu⟩
    · rw [List.mem_singleton.mp h] at hu
      exact .inl ⟨piece, hpiece, .inr (List.mem_cons_of_mem _ (List.mem_append_left _ hu))⟩
  · rw [mem_textSegment h] at hu
    exact .inr hu

theorem content_subset {md : JsString} {segment : Segment} (h : segment ∈ segmentMarkdown md) :
    ∀ u ∈ segment.content, u ∈ md := by
  intro u hu
  rw [← join_pieces reads_fencedCode md, mem_join]
  rcases List.mem_append.mp h with h | h
  · obtain ⟨piece, hpiece, h⟩ := List.mem_flatMap.mp h
    rcases List.mem_append.mp h with h | h
    · exact .inl ⟨piece, hpiece, .inl (content_subset_inline h u hu)⟩
    · rw [List.mem_singleton.mp h] at hu
      refine .inl ⟨piece, hpiece, .inr ?_⟩
      rcases List.mem_append.mp hu with hu | hu
      · exact List.mem_append_right _ (List.mem_append_left _ hu)
      · exact List.mem_append_right _ (List.mem_append_right _ (List.mem_append_right _ (List.mem_append_left _ hu)))
  · exact .inr (content_subset_inline h u hu)

theorem element_code {value : JsString} (h : nul ∉ value) {name : String} (hne : js name ≠ [])
    (hname : (js name).all isWord = true) : Element (tagged name (escapeHtml value)) (escapeHtml value) :=
  element_tagged (element_plain (escapeHtml_plain h)) hne hname

theorem length_le_escapeHtml (text : JsString) : text.length ≤ (escapeHtml text).length := by
  induction text with
  | nil => exact Nat.le_refl 0
  | cons u text ih =>
    have hunit : 0 < (escapeUnit u).length := by
      unfold escapeUnit
      split_ifs <;> exact Nat.succ_pos _
    rw [escapeHtml, List.flatMap_cons, List.length_append, List.length_cons]
    exact Nat.add_comm text.length 1 ▸ Nat.add_le_add hunit ih

theorem escapeHtml_append (s t : JsString) : escapeHtml (s ++ t) = escapeHtml s ++ escapeHtml t := List.flatMap_append

/-- A block is seen but for the name, where the code takes one. -/
theorem shown_codeBlock {block : Fenced} (h : nul ∉ block.value) :
    Shown (renderSegment (.codeBlock block)).html (.codeBlock block) ↔ ¬ Loses (.codeBlock block) := by
  have helement := @element_code block.value h "pre" (by decide) (by decide)
  rw [Shown, renderSegment, helement.shown_eq, Fenced.visible, Loses]
  cases hline : block.newline with
  | true => simp
  | false =>
    constructor
    · rintro hinfix ⟨-, hheader⟩
      have hlength := hinfix.length_le
      rw [if_neg Bool.false_ne_true, escapeHtml_append, List.length_append] at hlength
      have hpos := List.length_pos_iff.mpr hheader
      have hle := length_le_escapeHtml block.header
      omega
    · intro hloses
      have hheader : block.header = [] := Classical.not_not.mp fun hheader => hloses ⟨rfl, hheader⟩
      exact ⟨[], [], by simp [hheader]⟩

/-- A segment that loses nothing is rendered whole. -/
theorem renderSegment_whole {segment : Segment} (h : nul ∉ segment.content) (hloses : ¬ Loses segment) :
    (∃ label, Element (renderSegment segment).html label) ∧ Shown (renderSegment segment).html segment := by
  cases segment with
  | text value => exact shown_text h hloses
  | inlineCode value =>
    have helement := @element_code value h "code" (by decide) (by decide)
    exact ⟨⟨_, helement⟩, helement.infix_label⟩
  | codeBlock block =>
    have hvalue : nul ∉ block.value := fun hnul => h (List.mem_append_right _ hnul)
    exact ⟨⟨_, @element_code block.value hvalue "pre" (by decide) (by decide)⟩, (shown_codeBlock hvalue).mpr hloses⟩

/-! ### The rendering of a text -/

theorem renderMarkdownToTelegramHtml_cases (md : JsString) :
    (renderMarkdownToTelegramHtml md = ⟨md, none, false⟩ ∧
      ∀ segment ∈ segmentMarkdown md, (renderSegment segment).changed = false) ∨
    renderMarkdownToTelegramHtml md =
      ⟨(segmentMarkdown md).flatMap fun segment => (renderSegment segment).html, some "html", true⟩ := by
  rw [renderMarkdownToTelegramHtml]
  split
  · rename_i hunchanged
    refine .inl ⟨rfl, fun segment hsegment => ?_⟩
    simp only [List.any_map, Bool.not_eq_true', List.any_eq_false, Function.comp_apply, Bool.not_eq_true] at hunchanged
    exact hunchanged segment hsegment
  · rw [List.flatMap_map]
    exact .inr rfl

theorem elements_segments {segments : List Segment}
    (h : ∀ segment ∈ segments, ∃ label, Element (renderSegment segment).html label) :
    ∃ label, Element (segments.flatMap fun segment => (renderSegment segment).html) label := by
  induction segments with
  | nil => exact ⟨[], element_plain fun u hu => absurd hu List.not_mem_nil⟩
  | cons segment segments ih =>
    obtain ⟨label, hlabel⟩ := h segment List.mem_cons_self
    obtain ⟨behind, hbehind⟩ := ih fun other hother => h other (List.mem_cons_of_mem segment hother)
    exact ⟨label ++ behind, hlabel.append hbehind⟩

theorem changed_of_entangled {escaped : JsString} (h : Entangled escaped) :
    (applyInlineHtml escaped).changed = true := by
  rcases h with ⟨m, hm, -⟩ | ⟨m, hm, -⟩
  · have hfound : found bold (afterLinks escaped).text ≠ [] := List.ne_nil_of_mem hm
    simp [applyInlineHtml, hfound]
  · have hfound : found strike (afterBold escaped).text ≠ [] := List.ne_nil_of_mem hm
    simp [applyInlineHtml, hfound]

/-- A rendering gives back all that it puts aside exactly when no bold or struck text holds a part put aside before it
    and no fenced block has text behind its fence without a line's end. -/
theorem restored_iff {md : JsString} (h : nul ∉ md) :
    Restored md ↔ ∀ segment ∈ segmentMarkdown md, ¬ Loses segment := by
  have hcontent : ∀ segment ∈ segmentMarkdown md, nul ∉ segment.content :=
    fun segment hsegment hnul => h (content_subset hsegment nul hnul)
  constructor
  · intro hrestored segment hsegment hloses
    cases segment with
    | text value =>
      obtain ⟨ts, hts⟩ := rendered (escapeHtml_plain (hcontent _ hsegment))
      have hnul := hts.nul_mem hloses
      rcases renderMarkdownToTelegramHtml_cases md with ⟨-, hunchanged⟩ | hrender
      · have hchanged := hunchanged _ hsegment
        rw [renderSegment, changed_of_entangled hloses] at hchanged
        cases hchanged
      · refine hrestored.whole ?_
        rw [hrender]
        exact List.mem_flatMap.mpr ⟨_, hsegment, hnul⟩
    | inlineCode value => exact hloses
    | codeBlock block =>
      have hvalue : nul ∉ block.value := fun hnul => hcontent _ hsegment (List.mem_append_right _ hnul)
      exact (shown_codeBlock hvalue).mp (hrestored.shown _ hsegment) hloses
  · intro hfree
    have hwhole : ∀ segment ∈ segmentMarkdown md,
        (∃ label, Element (renderSegment segment).html label) ∧ Shown (renderSegment segment).html segment :=
      fun segment hsegment => renderSegment_whole (hcontent segment hsegment) (hfree segment hsegment)
    obtain ⟨label, helement⟩ := elements_segments fun segment hsegment => (hwhole segment hsegment).1
    refine ⟨?_, ?_, fun segment hsegment => (hwhole segment hsegment).2⟩
    · rcases renderMarkdownToTelegramHtml_cases md with ⟨hrender, -⟩ | hrender
      · rw [hrender]
        exact h
      · rw [hrender]
        exact helement.whole
    · intro hformatted
      rcases renderMarkdownToTelegramHtml_cases md with ⟨hrender, -⟩ | hrender
      · rw [hrender] at hformatted
        cases hformatted
      · rw [hrender]
        have hnested := helement.nested [] [] .nil
        rw [List.append_nil] at hnested
        exact hnested

theorem restored_iff_bold : nul ∉ js "**a** _b_" ∧
    (Restored (js "**a** _b_") ↔ ∀ segment ∈ segmentMarkdown (js "**a** _b_"), ¬ Loses segment) :=
  ⟨by decide, restored_iff (by decide)⟩

/-- The link is put aside, then the bold text with its sentinel, and one pass gives back only the bold text. -/
theorem not_restored_of_bold_link : ¬ ∀ md : JsString, nul ∉ md → Restored md := by
  intro hall
  refine (hall (js "**[a](http://x)**") (by decide)).whole ?_
  decide

end Empyralis.Gateway.ChannelMarkdown

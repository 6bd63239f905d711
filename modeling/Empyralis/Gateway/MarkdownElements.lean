import Empyralis.Gateway.ChannelMarkdown

/-! HTML whose elements nest, and what is seen of it. -/

namespace Empyralis.Gateway.ChannelMarkdown

open Codec Scan

/-- Text of which the elements are open, the innermost first, and which closes all of them. -/
inductive Nested : List JsString → JsString → Prop where
  | nil : Nested [] []
  | unit {elements : List JsString} {u : UInt16} {rest : JsString} :
      u ≠ 0x3C → u ≠ 0x3E → Nested elements rest → Nested elements (u :: rest)
  | opens {elements : List JsString} {name attributes rest : JsString} : name ≠ [] → name.all isWord = true →
      attributes = [] ∨ attributes.head? = some 0x20 → (∀ u ∈ attributes, u ≠ 0x3C ∧ u ≠ 0x3E) →
      Nested (name :: elements) rest → Nested elements (0x3C :: (name ++ attributes ++ 0x3E :: rest))
  | closes {elements : List JsString} {name rest : JsString} :
      Nested elements rest → Nested (name :: elements) (0x3C :: 0x2F :: (name ++ 0x3E :: rest))

/-- What is seen of a text with tags, of which one may be open. -/
def visibleText : Bool → JsString → JsString
  | _, [] => []
  | true, u :: rest => visibleText (u ≠ 0x3E) rest
  | false, u :: rest => if u = 0x3C then visibleText true rest else u :: visibleText false rest

/-- Without a sentinel's mark and without a tag. -/
def Plain (text : JsString) : Prop := ∀ u ∈ text, u ≠ nul ∧ u ≠ 0x3C ∧ u ≠ 0x3E

/-- HTML that opens and closes its own elements, with what is seen of it. -/
structure Element (html label : JsString) : Prop where
  whole : nul ∉ html
  nested : ∀ elements rest, Nested elements rest → Nested elements (html ++ rest)
  shown : ∀ rest, visibleText false (html ++ rest) = label ++ visibleText false rest

theorem Plain.append {s t : JsString} (hs : Plain s) (ht : Plain t) : Plain (s ++ t) := by
  intro u hu
  rcases List.mem_append.mp hu with hu | hu
  · exact hs u hu
  · exact ht u hu

theorem plain_of_all {text : JsString} (h : (text.all fun u => u ≠ nul && u ≠ 0x3C && u ≠ 0x3E) = true) :
    Plain text := by
  intro u hu
  simpa [and_assoc] using List.all_eq_true.mp h u hu

theorem escapeUnit_plain {u : UInt16} (h : u ≠ nul) : Plain (escapeUnit u) := by
  unfold escapeUnit
  split
  · exact plain_of_all (by decide)
  · split
    · exact plain_of_all (by decide)
    · split
      · exact plain_of_all (by decide)
      · split
        · exact plain_of_all (by decide)
        · intro v hv
          rw [List.mem_singleton.mp hv]
          exact ⟨h, by assumption, by assumption⟩

theorem escapeHtml_plain {text : JsString} (h : nul ∉ text) : Plain (escapeHtml text) := by
  intro v hv
  obtain ⟨u, hu, hv⟩ := List.mem_flatMap.mp hv
  exact escapeUnit_plain (fun hnul => h (hnul ▸ hu)) v hv

theorem visibleText_tag {body : JsString} (hbody : ∀ u ∈ body, u ≠ 0x3E) (rest : JsString) :
    visibleText true (body ++ 0x3E :: rest) = visibleText false rest := by
  induction body with
  | nil => rfl
  | cons u body ih =>
    have hu : u ≠ 0x3E := hbody u List.mem_cons_self
    rw [List.cons_append, visibleText, decide_eq_true hu]
    exact ih fun v hv => hbody v (List.mem_cons_of_mem u hv)

theorem element_plain {text : JsString} (h : Plain text) : Element text text where
  whole := fun hnul => (h nul hnul).1 rfl
  nested := by
    intro elements rest hrest
    induction text with
    | nil => exact hrest
    | cons u text ih =>
      obtain ⟨-, hlt, hgt⟩ := h u List.mem_cons_self
      exact .unit hlt hgt (ih fun v hv => h v (List.mem_cons_of_mem u hv))
  shown := by
    intro rest
    induction text with
    | nil => rfl
    | cons u text ih =>
      obtain ⟨-, hlt, -⟩ := h u List.mem_cons_self
      rw [List.cons_append, visibleText, if_neg hlt, ih fun v hv => h v (List.mem_cons_of_mem u hv), List.cons_append]

theorem Element.append {html label other seen : JsString} (h : Element html label) (hother : Element other seen) :
    Element (html ++ other) (label ++ seen) where
  whole := by
    intro hnul
    rcases List.mem_append.mp hnul with hnul | hnul
    · exact h.whole hnul
    · exact hother.whole hnul
  nested := by
    intro elements rest hrest
    rw [List.append_assoc]
    exact h.nested elements _ (hother.nested elements rest hrest)
  shown := by
    intro rest
    rw [List.append_assoc, h.shown, hother.shown, List.append_assoc]

theorem Element.shown_eq {html label : JsString} (h : Element html label) : visibleText false html = label := by
  have hend := h.shown []
  rw [List.append_nil] at hend
  rw [hend]
  exact List.append_nil label

theorem Element.infix_label {html label : JsString} (h : Element html label) : label <:+: visibleText false html :=
  h.shown_eq.symm ▸ List.infix_rfl

theorem plain_of_words {name : JsString} (h : name.all isWord = true) : Plain name := by
  intro u hu
  have hword : isWord u = true := List.all_eq_true.mp h u hu
  refine ⟨?_, ?_, ?_⟩ <;> rintro rfl <;> exact absurd hword (by decide)

/-- An element around HTML. -/
theorem Element.wrap {html label name attributes : JsString} (h : Element html label) (hne : name ≠ [])
    (hname : name.all isWord = true) (hattributes : attributes = [] ∨ attributes.head? = some 0x20)
    (hplain : Plain attributes) :
    Element (0x3C :: (name ++ attributes ++ 0x3E :: (html ++ 0x3C :: 0x2F :: (name ++ [0x3E])))) label where
  whole := by
    have hnames := plain_of_words hname
    intro hnul
    simp only [List.mem_cons, List.mem_append, List.not_mem_nil, or_false] at hnul
    rcases hnul with hnul | (hnul | hnul) | hnul | hnul | hnul | hnul | hnul | hnul
    · exact absurd hnul (by decide)
    · exact (hnames nul hnul).1 rfl
    · exact (hplain nul hnul).1 rfl
    · exact absurd hnul (by decide)
    · exact h.whole hnul
    · exact absurd hnul (by decide)
    · exact absurd hnul (by decide)
    · exact (hnames nul hnul).1 rfl
    · exact absurd hnul (by decide)
  nested := by
    intro elements rest hrest
    have hinner := h.nested (name :: elements) _ (.closes hrest)
    have hopen := Nested.opens hne hname hattributes (fun u hu => (hplain u hu).2) hinner
    simpa using hopen
  shown := by
    have hnames := plain_of_words hname
    intro rest
    have hstart : ∀ u ∈ name ++ attributes, u ≠ 0x3E := fun u hu => ((hnames.append hplain) u hu).2.2
    have hend : ∀ u ∈ 0x2F :: name, u ≠ 0x3E := by
      intro u hu
      rcases List.mem_cons.mp hu with rfl | hu
      · decide
      · exact (hnames u hu).2.2
    have hclose : visibleText false (0x3C :: (0x2F :: name ++ 0x3E :: rest)) = visibleText false rest := by
      rw [visibleText, if_pos rfl, visibleText_tag hend]
    calc visibleText false (0x3C :: (name ++ attributes ++ 0x3E :: (html ++ 0x3C :: 0x2F :: (name ++ [0x3E]))) ++ rest)
      _ = visibleText true (name ++ attributes ++ 0x3E :: (html ++ 0x3C :: (0x2F :: name ++ 0x3E :: rest))) := by
        simp [visibleText]
      _ = visibleText false (html ++ 0x3C :: (0x2F :: name ++ 0x3E :: rest)) := visibleText_tag hstart _
      _ = label ++ visibleText false rest := by rw [h.shown, hclose]

theorem element_tagged {html label : JsString} (h : Element html label) {name : String} (hne : js name ≠ [])
    (hname : (js name).all isWord = true) : Element (tagged name html) label := by
  have hwrap := h.wrap hne hname (.inl rfl) (fun _ hu => absurd hu List.not_mem_nil)
  have heq : tagged name html = 0x3C :: (js name ++ [] ++ 0x3E :: (html ++ 0x3C :: 0x2F :: (js name ++ [0x3E]))) := by
    simp [tagged, js]
  rw [heq]
  exact hwrap

theorem element_anchor {m : Link} (hlabel : Plain m.label) (hurl : Plain m.url) : Element (anchor m) m.label := by
  have hescaped : Plain (escapeHtmlAttr m.url) := escapeHtml_plain fun hnul => (hurl nul hnul).1 rfl
  have hattribute : Plain (js " href=\"" ++ escapeHtmlAttr m.url ++ js "\"") :=
    ((plain_of_all (by decide)).append hescaped).append (plain_of_all (by decide))
  have hwrap := @Element.wrap _ _ (js "a") _ (element_plain hlabel) (by decide) (by decide) (.inr rfl) hattribute
  have heq : anchor m = 0x3C :: (js "a" ++ (js " href=\"" ++ escapeHtmlAttr m.url ++ js "\"") ++
      0x3E :: (m.label ++ 0x3C :: 0x2F :: (js "a" ++ [0x3E]))) := by
    simp [anchor, js]
  rw [heq]
  exact hwrap

end Empyralis.Gateway.ChannelMarkdown

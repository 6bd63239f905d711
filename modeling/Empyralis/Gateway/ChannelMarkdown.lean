import Empyralis.Gateway.Codec
import Empyralis.Lib.Scan

/-! The rendering of Markdown for Telegram: `renderMarkdownToTelegramHtml`.

    A text is taken apart into code and other text, in which links, bold and struck text are put aside behind sentinels
    while the rules after them run, and put back at the end. -/

namespace Empyralis.Gateway.ChannelMarkdown

open Codec Scan

/-! ### The patterns -/

/-- `\w` -/
def isWord (u : UInt16) : Bool := (0x30 ≤ u && u ≤ 0x39) || (0x41 ≤ u && u ≤ 0x5A) || u = 0x5F || (0x61 ≤ u && u ≤ 0x7A)

/-- `\d` -/
def isDigit (u : UInt16) : Bool := 0x30 ≤ u && u ≤ 0x39

def nul : UInt16 := 0
def newline : UInt16 := 0x0A
def star : UInt16 := 0x2A
def underscore : UInt16 := 0x5F
def backtick : UInt16 := 0x60
def tilde : UInt16 := 0x7E

/-- A fenced block: what stands behind the fence, whether a line ends there, and the block. The code keeps the last. -/
structure Fenced where
  header : JsString
  newline : Bool
  value : JsString

def fence : JsString := js "```"

/-- What stands before the first of a text's places where another begins, and that behind it. -/
def upTo (ending : JsString) : JsString → Option (JsString × JsString)
  | [] => if ending = [] then some ([], []) else none
  | u :: rest =>
    if ending.isPrefixOf (u :: rest) then some ([], (u :: rest).drop ending.length)
    else (upTo ending rest).map fun (before, behind) => (u :: before, behind)

/-- `FENCED_CODE_RE` -/
def fencedCode : Pattern UInt16 Fenced := fun _ u rest =>
  if fence.isPrefixOf (u :: rest) then
    let opened := rest.drop 2
    let header := opened.takeWhile fun v => v ≠ newline && v ≠ backtick
    let behind := opened.drop header.length
    let line := behind.head? = some newline
    let body := if line then behind.tail else behind
    (upTo fence body).map fun (value, _) =>
      (⟨header, line, value⟩, 2 + header.length + (if line then 1 else 0) + value.length + 3)
  else none

/-- `INLINE_CODE_RE` -/
def inlineCode : Pattern UInt16 JsString := fun _ u rest =>
  let value := rest.takeWhile fun v => v ≠ backtick && v ≠ newline
  if u = backtick && value ≠ [] && (rest.drop value.length).head? = some backtick then some (value, value.length + 1)
  else none

/-- `[label](url)` -/
structure Link where
  label : JsString
  url : JsString

/-- `https?://` -/
def urlScheme (text : JsString) : Option JsString :=
  if (js "http://").isPrefixOf text then some (js "http://")
  else if (js "https://").isPrefixOf text then some (js "https://")
  else none

/-- `LINK_RE` -/
def link : Pattern UInt16 Link := fun _ u rest =>
  let label := rest.takeWhile fun v => v ≠ 0x5D && v ≠ newline
  let behind := rest.drop label.length
  if u = 0x5B && label ≠ [] && (js "](").isPrefixOf behind then
    (urlScheme (behind.drop 2)).bind fun scheme =>
      let tail := (behind.drop (2 + scheme.length)).takeWhile fun v => v ≠ 0x29 && !isSpace v
      if tail ≠ [] && (behind.drop (2 + scheme.length + tail.length)).head? = some 0x29 then
        some (⟨label, scheme ++ tail⟩, label.length + 2 + scheme.length + tail.length + 1)
      else none
  else none

/-- An emphasis: the unit before it that its pattern takes too, and what stands between the marks. -/
structure Emphasis where
  lead : JsString
  inner : JsString

variable (mark : UInt16) (closes : JsString → Bool)

/-- `[^m]*?\S` before what closes: the fewest units that do. -/
def lazyTail : JsString → Option JsString
  | [] => none
  | u :: rest =>
    if !isSpace u && closes rest then some [u]
    else if u ≠ mark then (lazyTail rest).map (u :: ·)
    else none

/-- `\S(?:[^m]*?\S)?` before what closes -/
def emphasized : JsString → Option JsString
  | [] => none
  | u :: rest =>
    if isSpace u then none
    else
      match lazyTail mark closes rest with
      | some tail => some (u :: tail)
      | none => if closes rest then some [u] else none

/-- An emphasis between two runs of marks, with `closes` the test of what follows it. -/
def between (marks : JsString) (u : UInt16) (rest : JsString) (lead : JsString) : Option (Emphasis × Nat) :=
  if marks.isPrefixOf (u :: rest) then
    (emphasized mark closes ((u :: rest).drop marks.length)).map fun inner =>
      (⟨lead, inner⟩, 2 * marks.length + inner.length - 1)
  else none

/-- `BOLD_RE` -/
def bold : Pattern UInt16 Emphasis := fun _ u rest =>
  between star (js "**").isPrefixOf (js "**") u rest []

/-- `STRIKE_RE` -/
def strike : Pattern UInt16 Emphasis := fun _ u rest =>
  between tilde (js "~~").isPrefixOf (js "~~") u rest []

/-- `ITALIC_STAR_RE` -/
def italicStar : Pattern UInt16 Emphasis := fun _ u rest =>
  between star (js "*").isPrefixOf (js "*") u rest []

/-- `_(?![\w])` -/
def endsWord (text : JsString) : Bool := text.head? = some underscore && !text.tail.head?.any isWord

/-- `ITALIC_UNDERSCORE_RE`: the beginning of the text, or a unit that is neither of a word nor a star, goes before
    it. -/
def italicUnderscore : Pattern UInt16 Emphasis := fun first u rest =>
  if first && u = underscore then between underscore endsWord (js "_") u rest []
  else if isWord u || u = star then none
  else
    match rest with
    | [] => none
    | v :: rest => (between underscore endsWord (js "_") v rest [u]).map fun (m, more) => (m, more + 1)

/-! ### The segments -/

/-- A piece of the text: plain text, or code, which no rule for text looks into. -/
inductive Segment where
  | text (value : JsString)
  | inlineCode (value : JsString)
  | codeBlock (block : Fenced)

/-- A piece of plain text, unless it is empty. -/
def textSegment (value : JsString) : List Segment := if value = [] then [] else [.text value]

/-- A text, cut at its inline code. -/
def pushTextWithInlineCode (text : JsString) : List Segment :=
  let p := pieces inlineCode text
  p.1.flatMap (fun piece => textSegment piece.1 ++ [.inlineCode piece.2]) ++ textSegment p.2

/-- The pieces of a text: it is cut at its fenced code first. -/
def segmentMarkdown (md : JsString) : List Segment :=
  let p := pieces fencedCode md
  p.1.flatMap (fun piece => pushTextWithInlineCode piece.1 ++ [.codeBlock piece.2]) ++ pushTextWithInlineCode p.2

/-! ### The inline rules -/

/-- A unit as HTML has it. -/
def escapeUnit (u : UInt16) : JsString :=
  if u = 0x26 then js "&amp;" else if u = 0x3C then js "&lt;" else if u = 0x3E then js "&gt;"
  else if u = 0x22 then js "&quot;" else [u]

def escapeHtml (text : JsString) : JsString := text.flatMap escapeUnit

/-- `escapeHtmlAttr` does the same. -/
def escapeHtmlAttr (url : JsString) : JsString := escapeHtml url

/-- `SpanVault` -/
abbrev Spans := List JsString

/-- What stands for a span that is put aside. -/
def sentinel (index : Nat) : JsString := nul :: js (toString index) ++ [nul]

/-- A span put aside, with what stands for it. -/
def Spans.hold (spans : Spans) (value : JsString) : Spans × JsString := (spans ++ [value], sentinel spans.length)

/-- `\u0000(\d+)\u0000`, with the number -/
def sentinelPattern : Pattern UInt16 Nat := fun _ u rest =>
  let digits := rest.takeWhile isDigit
  if u = nul && digits ≠ [] && (rest.drop digits.length).head? = some nul then
    some (digits.foldl (fun n d => 10 * n + (d.toNat - 48)) 0, digits.length + 1)
  else none

/-- The spans put back, in one pass. -/
def Spans.restore (spans : Spans) (text : JsString) : JsString :=
  replace sentinelPattern (fun index => spans.getD index []) text

/-- A text, with what is put aside of it. -/
structure Vaulted where
  spans : Spans
  text : JsString

/-- Each match put aside in turn. -/
def holdEach {β : Type} (wrap : β → JsString) : Spans → List (JsString × β) → Vaulted
  | spans, [] => ⟨spans, []⟩
  | spans, (run, b) :: rest =>
    let (spans, mark) := spans.hold (wrap b)
    let held := holdEach wrap spans rest
    ⟨held.spans, run ++ mark ++ held.text⟩

/-- The matches of a text put aside, each in its tag. -/
def replaceHolding {β : Type} (pattern : Pattern UInt16 β) (wrap : β → JsString) (v : Vaulted) : Vaulted :=
  let p := pieces pattern v.text
  let held := holdEach wrap v.spans p.1
  ⟨held.spans, held.text ++ p.2⟩

def tagged (name : String) (inner : JsString) : JsString := js ("<" ++ name ++ ">") ++ inner ++ js ("</" ++ name ++ ">")

/-- A link in HTML. -/
def anchor (m : Link) : JsString := js "<a href=\"" ++ escapeHtmlAttr m.url ++ js "\">" ++ m.label ++ js "</a>"

/-- The text after the rule for links. -/
def afterLinks (escaped : JsString) : Vaulted := replaceHolding link anchor ⟨[], escaped⟩

/-- The text after the rule for bold. -/
def afterBold (escaped : JsString) : Vaulted :=
  replaceHolding bold (fun m => tagged "b" m.inner) (afterLinks escaped)

/-- The text after the rule for strikethrough. -/
def afterStrike (escaped : JsString) : Vaulted :=
  replaceHolding strike (fun m => tagged "s" m.inner) (afterBold escaped)

/-- The text after the rule for italics in stars, whose matches stay in it. -/
def afterStars (escaped : JsString) : JsString :=
  replace italicStar (fun m => tagged "i" m.inner) (afterStrike escaped).text

/-- The text after the last rule. -/
def afterUnderscores (escaped : JsString) : JsString :=
  replace italicUnderscore (fun m => m.lead ++ tagged "i" m.inner) (afterStars escaped)

/-- The HTML of a piece, and whether a rule has changed it. -/
structure Inline where
  html : JsString
  changed : Bool

def applyInlineHtml (escaped : JsString) : Inline where
  html := (afterStrike escaped).spans.restore (afterUnderscores escaped)
  changed := !(found link escaped).isEmpty || !(found bold (afterLinks escaped).text).isEmpty ||
    !(found strike (afterBold escaped).text).isEmpty || !(found italicStar (afterStrike escaped).text).isEmpty ||
    !(found italicUnderscore (afterStars escaped)).isEmpty

/-! ### The rendering -/

def renderSegment : Segment → Inline
  | .codeBlock block => ⟨tagged "pre" (escapeHtml block.value), true⟩
  | .inlineCode value => ⟨tagged "code" (escapeHtml value), true⟩
  | .text value => applyInlineHtml (escapeHtml value)

/-- The text to be sent, and the mode that it is sent in. -/
structure TelegramMarkdownRender where
  text : JsString
  parseMode : Option String
  formatted : Bool

/-- A text that no rule changes is sent as it is. -/
def renderMarkdownToTelegramHtml (md : JsString) : TelegramMarkdownRender :=
  let rendered := (segmentMarkdown md).map renderSegment
  if !rendered.any (·.changed) then ⟨md, none, false⟩
  else ⟨rendered.flatMap (·.html), some "html", true⟩

/-! ### What the patterns take -/

/-- What is read is the source of a match that the text begins with. -/
theorem source_eq_take {source rest : JsString} {u : UInt16} {more : Nat} (behind : JsString)
    (h : u :: rest = source ++ behind) (hcount : more + 1 = source.length) : source = u :: rest.take more := by
  have htake : u :: rest.take more = (u :: rest).take (more + 1) := rfl
  rw [htake, h, hcount, List.take_left]

section
variable {mark : UInt16} {closes : JsString → Bool}

theorem lazyTail_eq_some {text tail : JsString} (h : lazyTail mark closes text = some tail) :
    ∃ behind, text = tail ++ behind ∧ closes behind = true := by
  induction text generalizing tail with
  | nil => cases h
  | cons u rest ih =>
    rw [lazyTail] at h
    split at h
    · rename_i hends
      cases h
      rw [Bool.and_eq_true] at hends
      exact ⟨rest, rfl, hends.2⟩
    · split at h
      · obtain ⟨tail, htail, rfl⟩ := Option.map_eq_some_iff.mp h
        obtain ⟨behind, rfl, hcloses⟩ := ih htail
        exact ⟨behind, rfl, hcloses⟩
      · cases h

theorem emphasized_eq_some {text inner : JsString} (h : emphasized mark closes text = some inner) :
    ∃ behind, text = inner ++ behind ∧ closes behind = true := by
  cases text with
  | nil => cases h
  | cons u rest =>
    rw [emphasized] at h
    split at h
    · cases h
    · split at h
      · rename_i tail htail
        cases h
        obtain ⟨behind, rfl, hcloses⟩ := lazyTail_eq_some htail
        exact ⟨behind, rfl, hcloses⟩
      · split at h
        · rename_i hcloses
          cases h
          exact ⟨rest, rfl, hcloses⟩
        · cases h

theorem between_eq_some {marks rest lead : JsString} {u : UInt16} {m : Emphasis} {more : Nat} (hmarks : marks ≠ [])
    (hcloses : ∀ text, closes text = true → marks <+: text)
    (h : between mark closes marks u rest lead = some (m, more)) :
    m.lead = lead ∧ marks ++ m.inner ++ marks = u :: rest.take more := by
  rw [between] at h
  split at h
  · rename_i hprefix
    obtain ⟨inner, hinner, hm⟩ := Option.map_eq_some_iff.mp h
    cases hm
    refine ⟨rfl, ?_⟩
    obtain ⟨text, htext⟩ := List.isPrefixOf_iff_prefix.mp hprefix
    rw [← htext, List.drop_left] at hinner
    obtain ⟨behind, rfl, hends⟩ := emphasized_eq_some hinner
    obtain ⟨tail, rfl⟩ := hcloses behind hends
    have hlength : 0 < marks.length := List.length_pos_iff.mpr hmarks
    refine source_eq_take tail ?_ ?_
    · rw [← htext, List.append_assoc, List.append_assoc]
    · dsimp only
      rw [List.length_append, List.length_append]
      omega
  · cases h

end

/-- The text of a match. -/
def Emphasis.source (marks : JsString) (m : Emphasis) : JsString := m.lead ++ (marks ++ m.inner ++ marks)

def Link.source (m : Link) : JsString := js "[" ++ m.label ++ js "](" ++ m.url ++ js ")"

theorem reads_bold : Reads bold (Emphasis.source (js "**")) := by
  intro first u rest m more h
  obtain ⟨hlead, hsource⟩ := between_eq_some (by decide) (fun _ => List.isPrefixOf_iff_prefix.mp) h
  rw [Emphasis.source, hlead, hsource, List.nil_append]

theorem reads_strike : Reads strike (Emphasis.source (js "~~")) := by
  intro first u rest m more h
  obtain ⟨hlead, hsource⟩ := between_eq_some (by decide) (fun _ => List.isPrefixOf_iff_prefix.mp) h
  rw [Emphasis.source, hlead, hsource, List.nil_append]

theorem reads_italicStar : Reads italicStar (Emphasis.source (js "*")) := by
  intro first u rest m more h
  obtain ⟨hlead, hsource⟩ := between_eq_some (by decide) (fun _ => List.isPrefixOf_iff_prefix.mp) h
  rw [Emphasis.source, hlead, hsource, List.nil_append]

theorem prefix_of_endsWord (text : JsString) (h : endsWord text = true) : js "_" <+: text := by
  cases text with
  | nil => cases h
  | cons u rest =>
    rw [endsWord, List.head?_cons, Bool.and_eq_true, decide_eq_true_eq, Option.some.injEq] at h
    exact ⟨rest, by rw [h.1]; rfl⟩

theorem reads_italicUnderscore : Reads italicUnderscore (Emphasis.source (js "_")) := by
  intro first u rest m more h
  unfold italicUnderscore at h
  split at h
  · obtain ⟨hlead, hsource⟩ := between_eq_some (by decide) prefix_of_endsWord h
    rw [Emphasis.source, hlead, hsource, List.nil_append]
  · split at h
    · cases h
    · cases rest with
      | nil => cases h
      | cons v rest =>
        obtain ⟨⟨m, more⟩, hbetween, heq⟩ := Option.map_eq_some_iff.mp h
        cases heq
        obtain ⟨hlead, hsource⟩ := between_eq_some (by decide) prefix_of_endsWord hbetween
        rw [Emphasis.source, hlead, hsource]
        rfl

theorem head_eq_some {text : JsString} {u : UInt16} (h : text.head? = some u) : text = u :: text.tail := by
  cases text with
  | nil => cases h
  | cons v rest => rw [List.head?_cons, Option.some.injEq] at h; rw [h, List.tail_cons]

theorem prefix_of_urlScheme {text scheme : JsString} (h : urlScheme text = some scheme) : scheme <+: text := by
  rw [urlScheme] at h
  split at h
  · rename_i hprefix
    cases h
    exact List.isPrefixOf_iff_prefix.mp hprefix
  · split at h
    · rename_i hprefix
      cases h
      exact List.isPrefixOf_iff_prefix.mp hprefix
    · cases h

theorem eq_append_drop {text part : JsString} (h : part <+: text) : text = part ++ text.drop part.length :=
  (List.prefix_iff_eq_append.mp h).symm

/-- A link is read as it is spelled. -/
theorem reads_link : Reads link Link.source := by
  intro first u rest m more h
  unfold link at h
  dsimp only at h
  split at h
  · rename_i hopen
    rw [Bool.and_eq_true, Bool.and_eq_true, decide_eq_true_eq] at hopen
    obtain ⟨⟨rfl, -⟩, hbracket⟩ := hopen
    generalize hlabel : rest.takeWhile (fun v => v ≠ 0x5D && v ≠ newline) = label at h hbracket
    obtain ⟨scheme, hscheme, h⟩ := Option.bind_eq_some_iff.mp h
    rw [← List.drop_drop, ← List.drop_drop, ← List.drop_drop] at h
    generalize htail : ((((rest.drop label.length).drop 2).drop scheme.length).takeWhile fun v =>
      v ≠ 0x29 && !isSpace v) = tail at h
    split at h
    · rename_i hclose
      rw [Bool.and_eq_true] at hclose
      cases h
      -- the text is the label, the brackets, the scheme, the rest of the address and what closes it
      have hrest : rest = label ++ rest.drop label.length :=
        eq_append_drop (hlabel ▸ List.takeWhile_prefix _)
      have hmiddle : rest.drop label.length = js "](" ++ (rest.drop label.length).drop 2 :=
        eq_append_drop (List.isPrefixOf_iff_prefix.mp hbracket)
      have haddress := eq_append_drop (prefix_of_urlScheme hscheme)
      have hpath := eq_append_drop (htail ▸ List.takeWhile_prefix _ : tail <+: _)
      obtain ⟨behind, hend⟩ : ∃ behind, (((rest.drop label.length).drop 2).drop scheme.length).drop tail.length =
          0x29 :: behind := ⟨_, head_eq_some (of_decide_eq_true hclose.2)⟩
      rw [hend] at hpath
      rw [hpath] at haddress
      rw [haddress] at hmiddle
      rw [hmiddle] at hrest
      refine source_eq_take behind ?_ ?_
      · rw [hrest, Link.source]
        simp only [js, List.append_assoc]
        rfl
      · simp only [Link.source, List.length_append]
        have hjoint : (js "](").length = 2 := rfl
        have hopening : (js "[").length = 1 := rfl
        have hclosing : (js ")").length = 1 := rfl
        omega
    · cases h
  · cases h

theorem upTo_eq_some {ending text before behind : JsString} (h : upTo ending text = some (before, behind)) :
    text = before ++ (ending ++ behind) := by
  induction text generalizing before with
  | nil =>
    rw [upTo] at h
    split at h
    · rename_i hending
      cases h
      rw [hending]
      rfl
    · cases h
  | cons u rest ih =>
    rw [upTo] at h
    split at h
    · rename_i hprefix
      cases h
      exact eq_append_drop (List.isPrefixOf_iff_prefix.mp hprefix)
    · obtain ⟨⟨before, behind⟩, hrest, heq⟩ := Option.map_eq_some_iff.mp h
      cases heq
      rw [ih hrest]
      rfl

def Fenced.source (block : Fenced) : JsString :=
  fence ++ (block.header ++ ((if block.newline then js "\n" else []) ++ (block.value ++ fence)))

/-- A fenced block is read as it is spelled. -/
theorem reads_fencedCode : Reads fencedCode Fenced.source := by
  intro first u rest block more h
  unfold fencedCode at h
  dsimp only at h
  split at h
  · rename_i hopen
    obtain ⟨⟨value, behind⟩, hvalue, heq⟩ := Option.map_eq_some_iff.mp h
    have hrest : u :: rest = fence ++ rest.drop 2 := eq_append_drop (List.isPrefixOf_iff_prefix.mp hopen)
    generalize rest.drop 2 = opened at hrest hvalue heq
    have hheader : opened = opened.takeWhile (fun v => v ≠ newline && v ≠ backtick) ++
        opened.drop (opened.takeWhile fun v => v ≠ newline && v ≠ backtick).length :=
      eq_append_drop (List.takeWhile_prefix _)
    generalize opened.takeWhile (fun v => v ≠ newline && v ≠ backtick) = header at hheader hvalue heq
    generalize opened.drop header.length = body at hheader hvalue heq
    have hfence : fence.length = 3 := rfl
    cases heq
    by_cases hline : body.head? = some newline
    · rw [if_pos hline] at hvalue
      have hvalue := upTo_eq_some hvalue
      rw [hheader, head_eq_some hline, hvalue] at hrest
      refine source_eq_take behind ?_ ?_
      · rw [hrest, Fenced.source]
        simp [hline, newline, js]
      · simp [Fenced.source, hline, hfence, js]
        omega
    · rw [if_neg hline] at hvalue
      have hvalue := upTo_eq_some hvalue
      rw [hheader, hvalue] at hrest
      refine source_eq_take behind ?_ ?_
      · rw [hrest, Fenced.source]
        simp [hline]
      · simp [Fenced.source, hline, hfence]
        omega
  · cases h

theorem reads_inlineCode : Reads inlineCode fun value => backtick :: (value ++ [backtick]) := by
  intro first u rest value more h
  unfold inlineCode at h
  dsimp only at h
  split at h
  · rename_i hopen
    rw [Bool.and_eq_true, Bool.and_eq_true, decide_eq_true_eq] at hopen
    obtain ⟨⟨rfl, -⟩, hclose⟩ := hopen
    have hvalue := eq_append_drop (List.takeWhile_prefix (l := rest) fun v => v ≠ backtick && v ≠ newline)
    rw [head_eq_some (of_decide_eq_true hclose)] at hvalue
    cases h
    refine source_eq_take (rest.drop (rest.takeWhile fun v => v ≠ backtick && v ≠ newline).length).tail ?_ ?_
    · rw [List.cons_append, List.append_assoc]
      exact congrArg (backtick :: ·) hvalue
    · rw [List.length_cons, List.length_append, List.length_singleton]
  · cases h

end Empyralis.Gateway.ChannelMarkdown

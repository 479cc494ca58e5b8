import GateAccess.Traces
import Mathlib.Data.List.Chain

namespace GateAccess

/-- A start or end tag, with its attributes as they are spelled: character references stay. -/
structure HtmlTag where
  isEnd : Bool
  name : List UInt8
  attrs : List (List UInt8 × List UInt8)
  deriving DecidableEq

/-- Where the HTML tokenizer stands between two bytes. Raw text elements have no state of their
own: without a `<` in them they read as text does. -/
inductive HtmlState
  | data
  | tagOpen
  | endTagOpen
  | tagName (tag : HtmlTag)
  | beforeAttrName (tag : HtmlTag)
  | attrName (tag : HtmlTag) (name : List UInt8)
  | afterAttrName (tag : HtmlTag) (name : List UInt8)
  | beforeAttrValue (tag : HtmlTag) (name : List UInt8)
  | attrValue (quote : Option UInt8) (tag : HtmlTag) (name value : List UInt8)
  | afterAttrValue (tag : HtmlTag)
  | selfClosing (tag : HtmlTag)
  | markupDeclaration
  | markupDash
  | bogusComment
  | commentStart
  | commentStartDash
  | comment
  | commentEndDash
  | commentEnd
  | commentEndBang
  deriving DecidableEq

def htmlSpace (c : UInt8) : Bool := c = 9 || c = 10 || c = 12 || c = 13 || c = 32

def htmlLetter (c : UInt8) : Bool := 65 ≤ c && c ≤ 90 || 97 ≤ c && c ≤ 122

def htmlLower (c : UInt8) : UInt8 := if 65 ≤ c ∧ c ≤ 90 then c + 32 else c

/-- The bytes that make a `<` before them more than text. -/
def opensTag (c : UInt8) : Bool := htmlLetter c || c = 33 || c = 47 || c = 63

/-- Of two attributes of one name the first counts. -/
def HtmlTag.attr (tag : HtmlTag) (name value : List UInt8) : HtmlTag :=
  if tag.attrs.any fun a => a.1 = name then tag
  else { tag with attrs := tag.attrs ++ [(name, value)] }

def dataStep (c : UInt8) : HtmlState := if c = 60 then .tagOpen else .data

def commentStep (c : UInt8) : HtmlState := if c = 45 then .commentEndDash else .comment

/-- What follows a tag's name or one of its attributes. -/
def tagStep (tag : HtmlTag) (c : UInt8) : HtmlState × List HtmlTag :=
  if htmlSpace c then (.beforeAttrName tag, [])
  else if c = 47 then (.selfClosing tag, [])
  else if c = 62 then (.data, [tag])
  else (.attrName tag [htmlLower c], [])

/-- One byte of the tokenizer, with the tag it completes. -/
def htmlStep : HtmlState → UInt8 → HtmlState × List HtmlTag
  | .data, c => (dataStep c, [])
  | .tagOpen, c =>
    if htmlLetter c then (.tagName ⟨false, [htmlLower c], []⟩, [])
    else if c = 33 then (.markupDeclaration, [])
    else if c = 47 then (.endTagOpen, [])
    else if c = 63 then (.bogusComment, [])
    else (dataStep c, [])
  | .endTagOpen, c =>
    if htmlLetter c then (.tagName ⟨true, [htmlLower c], []⟩, [])
    else if c = 62 then (.data, [])
    else (.bogusComment, [])
  | .tagName tag, c =>
    if htmlSpace c || c = 47 || c = 62 then tagStep tag c
    else (.tagName { tag with name := tag.name ++ [htmlLower c] }, [])
  | .beforeAttrName tag, c => tagStep tag c
  | .attrName tag name, c =>
    if htmlSpace c then (.afterAttrName tag name, [])
    else if c = 47 || c = 62 then tagStep (tag.attr name []) c
    else if c = 61 then (.beforeAttrValue tag name, [])
    else (.attrName tag (name ++ [htmlLower c]), [])
  | .afterAttrName tag name, c =>
    if htmlSpace c then (.afterAttrName tag name, [])
    else if c = 61 then (.beforeAttrValue tag name, [])
    else tagStep (tag.attr name []) c
  | .beforeAttrValue tag name, c =>
    if htmlSpace c then (.beforeAttrValue tag name, [])
    else if c = 34 || c = 39 then (.attrValue (some c) tag name [], [])
    else if c = 62 then (.data, [tag.attr name []])
    else (.attrValue none tag name [c], [])
  | .attrValue (some quote) tag name value, c =>
    if c = quote then (.afterAttrValue (tag.attr name value), [])
    else (.attrValue (some quote) tag name (value ++ [c]), [])
  | .attrValue none tag name value, c =>
    if htmlSpace c || c = 62 then tagStep (tag.attr name value) c
    else (.attrValue none tag name (value ++ [c]), [])
  | .afterAttrValue tag, c => tagStep tag c
  | .selfClosing tag, c => tagStep tag c
  | .markupDeclaration, c =>
    (if c = 45 then .markupDash else if c = 62 then .data else .bogusComment, [])
  | .markupDash, c =>
    (if c = 45 then .commentStart else if c = 62 then .data else .bogusComment, [])
  | .bogusComment, c => (if c = 62 then .data else .bogusComment, [])
  | .commentStart, c =>
    (if c = 45 then .commentStartDash else if c = 62 then .data else .comment, [])
  | .commentStartDash, c =>
    (if c = 45 then .commentEnd else if c = 62 then .data else .comment, [])
  | .comment, c => (commentStep c, [])
  | .commentEndDash, c => (if c = 45 then .commentEnd else .comment, [])
  | .commentEnd, c =>
    (if c = 45 then .commentEnd else if c = 62 then .data
      else if c = 33 then .commentEndBang else .comment, [])
  | .commentEndBang, c =>
    (if c = 45 then .commentEndDash else if c = 62 then .data else .comment, [])

abbrev htmlState (s : HtmlState) (text : List UInt8) : HtmlState :=
  exec (fun s c => (htmlStep s c).1) s text

/-- The tags that a text completes. -/
abbrev htmlTags (s : HtmlState) (text : List UInt8) : List HtmlTag :=
  logOf (fun s c => (htmlStep s c).1) (fun s c => (htmlStep s c).2) s text

/-- The states in which a byte is text. -/
def InText (s : HtmlState) : Prop := s = .data ∨ s = .tagOpen

instance (s : HtmlState) : Decidable (InText s) := inferInstanceAs (Decidable (_ ∨ _))

/-- The states inside a quoted attribute value. -/
def InValue (quote : UInt8) (s : HtmlState) : Prop := ∃ tag name value, s = .attrValue (some quote) tag name value

/-- No `<` stands before a byte that makes a tag of it. -/
def TextClean (text : List UInt8) : Prop := text.IsChain fun a b => a = 60 → opensTag b = false

theorem htmlState_append (s : HtmlState) (a b : List UInt8) :
    htmlState s (a ++ b) = htmlState (htmlState s a) b := exec_append _ _ _ _

theorem htmlTags_append (s : HtmlState) (a b : List UInt8) :
    htmlTags s (a ++ b) = htmlTags s a ++ htmlTags (htmlState s a) b :=
  logOf_append _ _ _ _ _

theorem tagOpen_text {c : UInt8} (h : opensTag c = false) : htmlStep .tagOpen c = (dataStep c, []) := by
  simp only [opensTag, Bool.or_eq_false_iff, decide_eq_false_iff_not] at h
  simp [htmlStep, h]

theorem tagOpen_opens {c : UInt8} (h : opensTag c = true) : ¬InText (htmlStep .tagOpen c).1 := by
  simp only [opensTag, Bool.or_eq_true, decide_eq_true_eq] at h
  simp only [htmlStep]
  split_ifs <;> simp_all [InText]

theorem htmlState_concat (s : HtmlState) (text : List UInt8) (c : UInt8) :
    htmlState s (text ++ [c]) = (htmlStep (htmlState s text) c).1 := exec_concat _ _ _ _

theorem htmlTags_concat (s : HtmlState) (text : List UInt8) (c : UInt8) :
    htmlTags s (text ++ [c]) = htmlTags s text ++ (htmlStep (htmlState s text) c).2 := by
  rw [htmlTags_append]
  exact congrArg _ (List.append_nil _)

theorem textClean_concat {text : List UInt8} {c : UInt8} :
    TextClean (text ++ [c]) ↔ TextClean text ∧ (text.getLast? = some 60 → opensTag c = false) := by
  constructor
  · intro h
    obtain ⟨hbefore, -, hlast⟩ := List.isChain_append.mp h
    exact ⟨hbefore, fun hopen => hlast 60 hopen c rfl rfl⟩
  · rintro ⟨hbefore, hlast⟩
    refine List.isChain_append.mpr ⟨hbefore, List.isChain_singleton _, fun x hx y hy hopen => ?_⟩
    obtain rfl : c = y := by simpa using hy
    exact hlast (hopen ▸ hx)

/-- A clean text stays text; only a `<` at its end is still undecided. -/
theorem htmlState_clean {text : List UInt8} (h : TextClean text) :
    htmlTags .data text = [] ∧
      htmlState .data text = if text.getLast? = some 60 then .tagOpen else .data := by
  induction text using List.reverseRecOn with
  | nil => exact ⟨rfl, rfl⟩
  | append_singleton text c ih =>
    obtain ⟨hbefore, hlast⟩ := textClean_concat.mp h
    obtain ⟨htags, hstate⟩ := ih hbefore
    have hstep : htmlStep (htmlState .data text) c = (dataStep c, []) := by
      rw [hstate]
      split
      next hopen => exact tagOpen_text (hlast hopen)
      next => rfl
    rw [htmlTags_concat, htmlState_concat, hstep, htags]
    simp [dataStep]

theorem textClean_plain {text : List UInt8} (h : 60 ∉ text) : TextClean text := by
  induction text using List.reverseRecOn with
  | nil => exact .nil
  | append_singleton text c ih =>
    refine textClean_concat.mpr ⟨ih fun hmem => h (List.mem_append_left _ hmem), fun hlast => ?_⟩
    exact absurd (List.mem_append_left _ (List.mem_of_getLast? hlast)) h

theorem htmlState_plain {text : List UInt8} (h : 60 ∉ text) :
    htmlTags .data text = [] ∧ htmlState .data text = .data := by
  obtain ⟨htags, hstate⟩ := htmlState_clean (textClean_plain h)
  rw [if_neg fun hlast => h (List.mem_of_getLast? hlast)] at hstate
  exact ⟨htags, hstate⟩

theorem inText_iff {text : List UInt8} :
    (∀ part, part <+: text → InText (htmlState .data part)) ↔ TextClean text := by
  constructor
  · intro h
    induction text using List.reverseRecOn with
    | nil => exact .nil
    | append_singleton text c ih =>
      have hclean := ih fun part hpart => h part (hpart.trans (List.prefix_append _ _))
      refine textClean_concat.mpr ⟨hclean, fun hlast => ?_⟩
      by_contra hopens
      have hin := h (text ++ [c]) (List.prefix_refl _)
      rw [htmlState_concat, (htmlState_clean hclean).2, if_pos hlast] at hin
      exact tagOpen_opens (Bool.not_eq_false _ ▸ hopens) hin
  · rintro h part ⟨rest, rfl⟩
    rw [(htmlState_clean (List.isChain_append.mp h).1).2]
    split
    · exact .inr rfl
    · exact .inl rfl

theorem htmlState_value {quote : UInt8} {tag : HtmlTag} {name value text : List UInt8}
    (h : quote ∉ text) :
    htmlTags (.attrValue (some quote) tag name value) text = [] ∧
      htmlState (.attrValue (some quote) tag name value) text =
        .attrValue (some quote) tag name (value ++ text) := by
  induction text using List.reverseRecOn with
  | nil => exact ⟨rfl, by simp⟩
  | append_singleton text c ih =>
    obtain ⟨hbefore, hc⟩ : quote ∉ text ∧ quote ≠ c := by simpa using h
    obtain ⟨htags, hstate⟩ := ih hbefore
    rw [htmlTags_concat, htmlState_concat, hstate, htags]
    simp [htmlStep, Ne.symm hc]

theorem inValue_iff {quote : UInt8} {tag : HtmlTag} {name value text : List UInt8} :
    (∀ part, part <+: text → InValue quote (htmlState (.attrValue (some quote) tag name value) part)) ↔
      quote ∉ text := by
  constructor
  · intro h
    induction text using List.reverseRecOn with
    | nil => simp
    | append_singleton text c ih =>
      have hbefore := ih fun part hpart => h part (hpart.trans (List.prefix_append _ _))
      obtain ⟨tag', name', value', hin⟩ := h (text ++ [c]) (List.prefix_refl _)
      rw [htmlState_concat, (htmlState_value hbefore).2] at hin
      by_cases hc : c = quote
      · simp [htmlStep, hc] at hin
      · simp [hbefore, Ne.symm hc]
  · rintro h part ⟨rest, rfl⟩
    have hpart : quote ∉ part := fun hmem => h (List.mem_append_left _ hmem)
    exact ⟨_, _, _, (htmlState_value hpart).2⟩

end GateAccess

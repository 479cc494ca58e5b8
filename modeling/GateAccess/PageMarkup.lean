import GateAccess.WifiPage

namespace GateAccess

variable (unescape : List UInt8 → List UInt8)

/-- A tag with the character references in its values read. -/
def HtmlTag.read (tag : HtmlTag) : HtmlTag :=
  { tag with attrs := tag.attrs.map fun a => if a.1 = ascii "value" then (a.1, unescape a.2) else a }

def pageTags (text : List UInt8) : List HtmlTag := (htmlTags .data text).map (HtmlTag.read unescape)

/-- An option of this value, and nothing else. -/
def optionTags (r : ScanRecord) (value : List UInt8) : List HtmlTag :=
  [⟨false, ascii "option",
      (ascii "value", value) :: if r.wep then [(ascii "disabled", [])] else []⟩,
    ⟨true, ascii "option", []⟩]

/-- The page up to the option that follows those of these records. -/
def pageUpTo (message : WifiMessage) (before : List ScanRecord) : List UInt8 :=
  pageHead message ++ before.flatMap optionText

/-- Each record has its one option, and no byte of a name is more than value or text. -/
structure MarkupKept (page : List UInt8) (scan : ScanResult) (message : WifiMessage) : Prop where
  options : pageTags unescape page = pageTags unescape (pageHead message) ++
    scan.records.flatMap (fun r => optionTags r r.ssid.bytes) ++ pageTags unescape pageTail
  listed : ∀ before r after, scan.records = before ++ r :: after →
    pageUpTo message before ++ optionText r <+: page
  values : ∀ before r after, scan.records = before ++ r :: after → ∀ part, part <+: r.ssid.bytes →
    InValue 34 (htmlState .data (pageUpTo message before ++ optionStart ++ part))
  texts : ∀ before r after, scan.records = before ++ r :: after → ∀ part, part <+: r.ssid.bytes →
    InText (htmlState .data
      (pageUpTo message before ++ optionStart ++ r.ssid.bytes ++ r.attrEnd ++ part))
  shown : ∀ part, part <+: message.name → InText (htmlState .data (pageTop ++ message.start ++ part))

/-- A name that HTML takes for itself both as a value and as text. -/
structure NameClean (name : List UInt8) : Prop where
  value : 34 ∉ name
  text : TextClean name

theorem optionTags_read (r : ScanRecord) (value : List UInt8) :
    (optionTags r value).map (HtmlTag.read unescape) = optionTags r (unescape value) := by
  have hne : ascii "disabled" ≠ ascii "value" := by decide
  unfold optionTags
  cases r.wep <;> simp [HtmlTag.read, hne]

theorem optionStart_value :
    htmlTags .data optionStart = [] ∧
      htmlState .data optionStart = .attrValue (some 34) ⟨false, ascii "option", []⟩ (ascii "value") [] := by
  decide +kernel

theorem attrEnd_tag (r : ScanRecord) (value : List UInt8) :
    htmlTags (.attrValue (some 34) ⟨false, ascii "option", []⟩ (ascii "value") value) r.attrEnd =
        [⟨false, ascii "option", (ascii "value", value) ::
          if r.wep then [(ascii "disabled", [])] else []⟩] ∧
      htmlState (.attrValue (some 34) ⟨false, ascii "option", []⟩ (ascii "value") value) r.attrEnd =
        .data := by
  unfold ScanRecord.attrEnd
  cases r.wep
  · exact ⟨rfl, rfl⟩
  · exact ⟨rfl, rfl⟩

theorem decimalInt_plain (n : Int) : 60 ∉ decimalInt n := by
  have hdigits : 60 ∉ decimal n.natAbs := fun h => by
    have hdigit := List.all_eq_true.mp (decimal_digits n.natAbs) 60 h
    exact absurd hdigit (by decide)
  unfold decimalInt
  split
  · simp [hdigits]
  · exact hdigits

theorem details_plain (r : ScanRecord) : ∃ rest, r.details = 32 :: rest ∧ 60 ∉ rest := by
  have hauth : 60 ∉ authName r.authmode := by cases r.authmode <;> decide
  have hwep : 60 ∉ (if r.wep then ascii " - nao suportada" else []) := by cases r.wep <;> decide
  have hcomma : 60 ∉ ascii ", " := by decide
  have hunit : 60 ∉ ascii " dBm)" := by decide
  refine ⟨40 :: (authName r.authmode ++ ascii ", " ++ decimalInt r.rssi.toInt ++ ascii " dBm)" ++
    (if r.wep then ascii " - nao suportada" else [])), ?_, ?_⟩
  · simp [ScanRecord.details, ascii]
  · simp only [List.mem_cons, List.mem_append, not_or]
    exact ⟨by decide, ⟨⟨⟨hauth, hcomma⟩, decimalInt_plain _⟩, hunit⟩, hwep⟩

/-- Behind a name the text goes on as text, whatever the name ended with. -/
theorem details_text {s : HtmlState} (h : InText s) (r : ScanRecord) :
    htmlTags s r.details = [] ∧ htmlState s r.details = .data := by
  obtain ⟨rest, hdetails, hplain⟩ := details_plain r
  have hspace : htmlTags s [32] = [] ∧ htmlState s [32] = .data := by
    rcases h with rfl | rfl <;> decide
  have hrest := htmlState_plain hplain
  have hsplit : r.details = [32] ++ rest := hdetails
  rw [hsplit, htmlTags_append, htmlState_append, hspace.1, hspace.2]
  exact hrest

theorem option_clean {r : ScanRecord} (h : NameClean r.ssid.bytes) :
    htmlTags .data (optionText r) = optionTags r r.ssid.bytes ∧ htmlState .data (optionText r) = .data := by
  obtain ⟨hstartTags, hstart⟩ := optionStart_value
  have hvalue := @htmlState_value 34 ⟨false, ascii "option", []⟩ (ascii "value") [] _ h.value
  obtain ⟨hendTags, hend⟩ := attrEnd_tag r r.ssid.bytes
  obtain ⟨htextTags, -⟩ := htmlState_clean h.text
  obtain ⟨hdetailTags, hdetail⟩ := details_text
    (inText_iff.mpr h.text r.ssid.bytes (List.prefix_refl _)) r
  have hclose : htmlTags .data (ascii "</option>") = [⟨true, ascii "option", []⟩] ∧
      htmlState .data (ascii "</option>") = .data := by decide +kernel
  simp only [optionText, htmlTags_append, htmlState_append, hstartTags, hstart, hvalue.1, hvalue.2,
    List.nil_append, hendTags, hend, htextTags, hdetailTags, hdetail, hclose.1, hclose.2]
  exact ⟨rfl, trivial⟩

theorem options_clean {rs : List ScanRecord} (h : ∀ r ∈ rs, NameClean r.ssid.bytes) :
    htmlTags .data (rs.flatMap optionText) = rs.flatMap (fun r => optionTags r r.ssid.bytes) ∧
      htmlState .data (rs.flatMap optionText) = .data := by
  induction rs with
  | nil => exact ⟨rfl, rfl⟩
  | cons r rs ih =>
    obtain ⟨htags, hstate⟩ := option_clean (h r List.mem_cons_self)
    obtain ⟨hrestTags, hrest⟩ := ih fun x hx => h x (List.mem_cons_of_mem _ hx)
    rw [List.flatMap_cons, List.flatMap_cons, htmlTags_append, htmlState_append, htags, hstate,
      hrestTags, hrest]
    exact ⟨rfl, rfl⟩

theorem messageStart_data (message : WifiMessage) :
    htmlState .data (pageTop ++ message.start) = .data := by
  rw [htmlState_append, pageTop_settles.1, message.start_plain.1.1]

theorem message_rest {message : WifiMessage} (h : TextClean message.name) :
    htmlState (htmlState .data message.name) message.rest = .data := by
  have hin := inText_iff.mpr h message.name (List.prefix_refl _)
  cases message with
  | none | invalidForm | refused | notSaved => rfl
  | notJoined ssid | saved ssid =>
    simp only [WifiMessage.rest]
    rcases hin with hdata | hopen
    · rw [hdata]; decide +kernel
    · rw [hopen]; decide +kernel

theorem pageHead_data {message : WifiMessage} (h : TextClean message.name) :
    htmlState .data (pageHead message) = .data := by
  have hsplit : pageHead message =
      (pageTop ++ message.start) ++ message.name ++ message.rest ++ formTop := by
    simp [pageHead, message.text_eq]
  rw [hsplit, htmlState_append, htmlState_append, htmlState_append, messageStart_data,
    message_rest h, formTop_settles.1]

theorem pageUpTo_data {message : WifiMessage} {before : List ScanRecord}
    (hmessage : TextClean message.name) (h : ∀ r ∈ before, NameClean r.ssid.bytes) :
    htmlState .data (pageUpTo message before) = .data := by
  rw [pageUpTo, htmlState_append, pageHead_data hmessage, (options_clean h).2]

/-- Every byte of a name's first copy is read from here. -/
theorem value_starts {message : WifiMessage} {before : List ScanRecord}
    (hmessage : TextClean message.name) (h : ∀ r ∈ before, NameClean r.ssid.bytes) :
    htmlState .data (pageUpTo message before ++ optionStart) =
      .attrValue (some 34) ⟨false, ascii "option", []⟩ (ascii "value") [] := by
  rw [htmlState_append, pageUpTo_data hmessage h, optionStart_value.2]

/-- And every byte of its second copy from here. -/
theorem text_starts {message : WifiMessage} {before : List ScanRecord} {r : ScanRecord}
    (hmessage : TextClean message.name) (h : ∀ x ∈ before, NameClean x.ssid.bytes)
    (hvalue : 34 ∉ r.ssid.bytes) :
    htmlState .data (pageUpTo message before ++ optionStart ++ r.ssid.bytes ++ r.attrEnd) = .data := by
  rw [htmlState_append, htmlState_append, value_starts hmessage h, (htmlState_value hvalue).2,
    (attrEnd_tag r _).2]

theorem option_listed {scan : ScanResult} {message : WifiMessage} {before after : List ScanRecord}
    {r : ScanRecord} (h : scan.records = before ++ r :: after) :
    pageUpTo message before ++ optionText r <+: pageParts scan message := by
  refine ⟨after.flatMap optionText ++ pageTail, ?_⟩
  simp [pageParts, pageUpTo, h]

theorem pageParts_tags {scan : ScanResult} {message : WifiMessage} (hmessage : TextClean message.name)
    (h : ∀ r ∈ scan.records, NameClean r.ssid.bytes) :
    pageTags unescape (pageParts scan message) = pageTags unescape (pageHead message) ++
      scan.records.flatMap (fun r => optionTags r (unescape r.ssid.bytes)) ++
        pageTags unescape pageTail := by
  obtain ⟨htags, hstate⟩ := options_clean h
  have hread : (scan.records.flatMap fun r => optionTags r r.ssid.bytes).map (HtmlTag.read unescape) =
      scan.records.flatMap fun r => optionTags r (unescape r.ssid.bytes) := by
    rw [List.map_flatMap]
    exact congrArg (fun f => scan.records.flatMap f) (funext fun r => optionTags_read unescape r _)
  rw [pageTags, pageParts, htmlTags_append, htmlTags_append, htmlState_append, pageHead_data hmessage,
    htags, hstate, List.map_append, List.map_append, hread, pageTags, pageTags]

theorem optionTags_values {rs : List ScanRecord} {f g : ScanRecord → List UInt8} :
    rs.flatMap (fun r => optionTags r (f r)) = rs.flatMap (fun r => optionTags r (g r)) ↔
      ∀ r ∈ rs, f r = g r := by
  constructor
  · intro h
    induction rs with
    | nil => simp
    | cons r rs ih =>
      rw [List.flatMap_cons, List.flatMap_cons] at h
      obtain ⟨hfirst, hrest⟩ := List.append_inj h rfl
      have hvalue : f r = g r := by
        simp only [optionTags, List.cons.injEq, HtmlTag.mk.injEq, Prod.mk.injEq, true_and] at hfirst
        exact hfirst.1.1
      intro x hx
      rcases List.mem_cons.mp hx with rfl | hx
      · exact hvalue
      · exact ih hrest x hx
  · intro h
    induction rs with
    | nil => rfl
    | cons r rs ih =>
      rw [List.flatMap_cons, List.flatMap_cons, h r List.mem_cons_self,
        ih fun x hx => h x (List.mem_cons_of_mem _ hx)]

variable {unescape}

theorem MarkupKept.message {page : List UInt8} {scan : ScanResult} {message : WifiMessage}
    (h : MarkupKept unescape page scan message) : TextClean message.name := by
  refine inText_iff.mp fun part hpart => ?_
  have hshown := h.shown part hpart
  rw [htmlState_append, messageStart_data] at hshown
  exact hshown

/-- A name whose copies stay value and text behind clean ones is clean. -/
theorem MarkupKept.next {page : List UInt8} {scan : ScanResult} {message : WifiMessage}
    (h : MarkupKept unescape page scan message) {before after : List ScanRecord} {r : ScanRecord}
    (hsplit : scan.records = before ++ r :: after) (hbefore : ∀ x ∈ before, NameClean x.ssid.bytes) :
    NameClean r.ssid.bytes := by
  have hvalue : 34 ∉ r.ssid.bytes := by
    refine (@inValue_iff 34 ⟨false, ascii "option", []⟩ (ascii "value") [] _).mp
      fun part hpart => ?_
    have hin := h.values before r after hsplit part hpart
    rw [htmlState_append, value_starts h.message hbefore] at hin
    exact hin
  refine ⟨hvalue, inText_iff.mp fun part hpart => ?_⟩
  have hin := h.texts before r after hsplit part hpart
  rw [htmlState_append, text_starts h.message hbefore hvalue] at hin
  exact hin

theorem MarkupKept.names {page : List UInt8} {scan : ScanResult} {message : WifiMessage}
    (h : MarkupKept unescape page scan message) {before after : List ScanRecord}
    (hsplit : scan.records = before ++ after) : ∀ r ∈ before, NameClean r.ssid.bytes := by
  induction before using List.reverseRecOn generalizing after with
  | nil => simp
  | append_singleton before r ih =>
    rw [← List.append_cons] at hsplit
    have hbefore := ih hsplit
    intro x hx
    rcases List.mem_append.mp hx with hx | hx
    · exact hbefore x hx
    · obtain rfl := List.mem_singleton.mp hx
      exact h.next hsplit hbefore

/-- Every record is on the page, and the page keeps its structure exactly when each name is one that
needs no escaping. -/
theorem markup_kept_iff (unescape : List UInt8 → List UInt8) (scan : ScanResult)
    (message : WifiMessage) :
    wifiPage true scan message = some (pageParts scan message) ∧
      (MarkupKept unescape (pageParts scan message) scan message ↔
        TextClean message.name ∧
          ∀ r ∈ scan.records, NameClean r.ssid.bytes ∧ unescape r.ssid.bytes = r.ssid.bytes) := by
  refine ⟨by rw [wifiPage_eq, if_pos rfl], ?_⟩
  constructor
  · intro h
    have hnames := h.names (List.append_nil scan.records).symm
    have htags := h.options
    rw [pageParts_tags unescape h.message hnames] at htags
    have hvalues := optionTags_values.mp (List.append_cancel_left (List.append_cancel_right htags))
    exact ⟨h.message, fun r hr => ⟨hnames r hr, hvalues r hr⟩⟩
  · rintro ⟨hmessage, hall⟩
    have hnames : ∀ r ∈ scan.records, NameClean r.ssid.bytes := fun r hr => (hall r hr).1
    have hbefore : ∀ {before r after}, scan.records = before ++ r :: after →
        ∀ x ∈ before, NameClean x.ssid.bytes := fun hsplit x hx =>
      hnames x (by rw [hsplit]; exact List.mem_append_left _ hx)
    have hname : ∀ {before r after}, scan.records = before ++ r :: after →
        NameClean r.ssid.bytes := fun hsplit => hnames _ (by rw [hsplit]; simp)
    refine ⟨?_, fun before r after hsplit => option_listed hsplit, ?_, ?_, ?_⟩
    · rw [pageParts_tags unescape hmessage hnames,
        optionTags_values.mpr fun r hr => (hall r hr).2]
    · intro before r after hsplit part hpart
      rw [htmlState_append, value_starts hmessage (hbefore hsplit)]
      exact inValue_iff.mpr (hname hsplit).value part hpart
    · intro before r after hsplit part hpart
      rw [htmlState_append, text_starts hmessage (hbefore hsplit) (hname hsplit).value]
      exact inText_iff.mpr (hname hsplit).text part hpart
    · intro part hpart
      rw [htmlState_append, messageStart_data]
      exact inText_iff.mpr hmessage part hpart

def scriptRecord : ScanRecord where
  ssid := ⟨ascii "x\"><script src=//a.b>", by decide, by decide⟩
  authmode := .wpa2Psk
  rssi := -40

def scriptScan : ScanResult := ⟨[scriptRecord], by decide⟩

/-- A network of this name puts a script on the page. -/
theorem network_name_injects :
    (∃ tag ∈ htmlTags .data (pageParts scriptScan .none),
      tag.isEnd = false ∧ tag.name = ascii "script") ∧
    ¬MarkupKept id (pageParts scriptScan .none) scriptScan .none := by
  have hmessage : TextClean WifiMessage.none.name := .nil
  constructor
  · have hoption : ∃ tag ∈ htmlTags .data (optionText scriptRecord),
        tag.isEnd = false ∧ tag.name = ascii "script" := by decide +kernel
    obtain ⟨tag, hmem, hscript⟩ := hoption
    refine ⟨tag, ?_, hscript⟩
    have hsplit : pageParts scriptScan .none =
        pageHead .none ++ (optionText scriptRecord ++ pageTail) := by
      simp [pageParts, scriptScan]
    rw [hsplit, htmlTags_append, pageHead_data hmessage, htmlTags_append]
    exact List.mem_append_right _ (List.mem_append_left _ hmem)
  · intro h
    have hfirst : scriptScan.records = [] ++ scriptRecord :: [] := rfl
    have hname := h.next hfirst (by simp)
    exact absurd hname.value (by decide)

end GateAccess

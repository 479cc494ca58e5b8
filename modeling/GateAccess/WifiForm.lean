import GateAccess.ProvForm
import GateAccess.WifiCreds

namespace GateAccess

def bodyMax : Nat := 512
def provNvsSsidMax : Nat := 32
def provNvsPskMax : Nat := 64

/-- A posted form, and how many of its bytes the one `httpd_req_recv` call delivers: 0 when it
fails. -/
structure HttpPost where
  authenticated : Bool
  posted : List UInt8
  delivered : Nat
  deriving DecidableEq

def HttpPost.got (req : HttpPost) : List UInt8 := req.posted.take req.delivered

def readBody (req : HttpPost) (bufSize : Nat) : Option (List UInt8) :=
  if req.posted.length = 0 ∨ req.posted.length ≥ bufSize then none
  else if req.got.length = 0 then none
  else some req.got

structure ProvCreds where
  ssid : Bytes (provNvsSsidMax + 1)
  psk : Bytes (provNvsPskMax + 1)
  deriving DecidableEq

/-- What `wifi_post` does about a form: up to the point where it tries the network. -/
inductive WifiPost
  | redirect
  | page (message : List UInt8)
  | tries (creds : ProvCreds)
  deriving DecidableEq

/-- The typed name, else the listed one, else nothing. -/
def wifiPostSsid (manual chosen : Bytes (provNvsSsidMax + 1) × Bool) : List UInt8 :=
  if manual.2 && manual.1.toList.headD 0 ≠ 0 then manual.1.toList
  else if chosen.2 && chosen.1.toList.headD 0 ≠ 0 then chosen.1.toList
  else []

def ProvCreds.check (creds : ProvCreds) : ProvResult :=
  let r := provCheckSsid (some creds.ssid.toList)
  if r = .ok then
    provCheckPsk (some creds.psk.toList) (decide (creds.psk.toList.headD 0 = 0))
  else r

def wifiPost (req : HttpPost) : WifiPost :=
  if !req.authenticated then .redirect
  else
    match readBody req bodyMax with
    | none => .page (ascii "<p class=\"err\">Formulario invalido ou longo demais.</p>")
    | some body =>
      let chosen := provFormField body (ascii "ssid") (provNvsSsidMax + 1)
      let manual := provFormField body (ascii "manual") (provNvsSsidMax + 1)
      let psk := provFormField body (ascii "psk") (provNvsPskMax + 1)
      let creds : ProvCreds := ⟨snprintf _ (wifiPostSsid manual chosen), psk.1⟩
      let r := creds.check
      if r ≠ .ok then
        .page (cstr (snprintf 192 (ascii "<p class=\"err\">" ++ provResultText r ++ ascii "</p>")).toList)
      else .tries creds

/-- The field a form names its network in. -/
def nameField (posted : List UInt8) : List UInt8 :=
  if (fieldValue (ascii "manual") posted).getD [] ≠ [] then ascii "manual" else ascii "ssid"

/-- The credentials are the whole fields of the form, decoded. -/
def UsedExactly (posted : List UInt8) (creds : ProvCreds) : Prop :=
  (∀ v, fieldValue (ascii "psk") posted = some v →
    unescape hexPair v = some (cstr creds.psk.toList)) ∧
  ∃ v, fieldValue (nameField posted) posted = some v ∧
    unescape hexPair v = some (cstr creds.ssid.toList)

/-- A field that arrives whole, decodes, fits its buffer and holds no NUL. -/
def FieldFits (req : HttpPost) (name : List UInt8) (size : Nat) : Prop :=
  ∃ v t, fieldValue name req.posted = some v ∧ fieldValue name (cstr req.got) = some v ∧
    unescape hexPair v = some t ∧ t.length < size ∧ 0 ∉ t

/-- The typed name was cut to nothing, but the listed one that stands in for it is the same. -/
def SameByLuck (req : HttpPost) : Prop :=
  nameField req.posted = ascii "manual" ∧
    fieldText (ascii "manual") (provNvsSsidMax + 1) req.got = [] ∧
    (fieldValue (ascii "manual") req.posted).bind (unescape hexPair) =
      some (fieldText (ascii "ssid") (provNvsSsidMax + 1) req.got)

theorem cstr_head {s : List UInt8} : s.headD 0 ≠ 0 ↔ cstr s ≠ [] := by
  cases s with
  | nil => simp [cstr]
  | cons c s => by_cases hc : c = 0 <;> simp [cstr, hc]

theorem got_short (req : HttpPost) : cstr req.got <+: req.posted :=
  (List.takeWhile_prefix _).trans (List.take_prefix _ _)

/-- What is left in the buffer of a field that is not empty is all of it just when the field fits. -/
theorem fieldText_eq_iff {req : HttpPost} {name v : List UInt8} {size : Nat}
    (hv : fieldValue name req.posted = some v) (hne : v ≠ []) :
    unescape hexPair v = some (fieldText name size req.got) ↔ FieldFits req name size := by
  constructor
  · intro h
    have htext : fieldText name size req.got ≠ [] := fun hnil => hne (unescape_nil_iff.mp (hnil ▸ h))
    rw [fieldText] at h htext
    cases hcut : fieldValue name (cstr req.got) with
    | none => simp [hcut] at htext
    | some v' =>
      cases ht : unescape hexPair v' with
      | none => simp [hcut, ht] at htext
      | some t =>
        have hfits : t.length < size := by
          by_contra hlong
          simp [hcut, ht, hlong] at htext
        simp only [hcut, Option.bind_some, ht, hfits, if_true] at h
        obtain ⟨w, hw, hpre⟩ := fieldValue_prefix (got_short req) hcut
        obtain rfl : v = w := Option.some.inj (hv.symm.trans hw)
        obtain rfl : v' = v := unescape_prefix hpre h ht (List.takeWhile_prefix _).length_le
        have hclean : cstr t = t := Option.some.inj (h.symm.trans ht)
        exact ⟨v', t, hv, hcut, ht, hfits, hclean ▸ zero_not_mem_cstr t⟩
  · rintro ⟨w, t, hw, hcut, ht, hfits, hclean⟩
    obtain rfl : v = w := Option.some.inj (hv.symm.trans hw)
    rw [fieldText, hcut, Option.bind_some, ht]
    simp [hfits, cstr_eq_self hclean]

theorem fieldText_length {name : List UInt8} {size : Nat} (body : List UInt8) (h : 0 < size) :
    (fieldText name size body).length < size := by
  rw [fieldText]
  split
  next t _ =>
    split
    next hfits => exact (List.takeWhile_prefix _).length_le.trans_lt hfits
    next => exact h
  next => exact h

/-- A field whose text is empty gives way to the next choice. -/
theorem chosen_text {body name other : List UInt8} {size : Nat} (hsize : 0 < size)
    (hname : 0 ∉ name) (hamp : 38 ∉ name) (hne : name ≠ []) :
    cstr (if (provFormField body name size).2 && (provFormField body name size).1.toList.headD 0 ≠ 0
      then (provFormField body name size).1.toList else other) =
      if fieldText name size body ≠ [] then fieldText name size body else cstr other := by
  have hfield : cstr (provFormField body name size).1.toList = fieldText name size body ∧
      (fieldText name size body ≠ [] → (provFormField body name size).2 = true) :=
    provFormField_text hsize hname hamp hne
  obtain ⟨htext, hgot⟩ := hfield
  generalize provFormField body name size = field at htext hgot ⊢
  rw [← htext] at hgot ⊢
  by_cases hempty : cstr field.1.toList ≠ []
  · rw [if_pos hempty, if_pos]
    simpa only [Bool.and_eq_true, decide_eq_true_eq] using ⟨hgot hempty, cstr_head.mpr hempty⟩
  · rw [if_neg hempty, if_neg]
    simpa only [Bool.and_eq_true, decide_eq_true_eq] using fun h => hempty (cstr_head.mp h.2)

theorem provCheckSsid_ne {ssid : List UInt8} (h : provCheckSsid (some ssid) = .ok) :
    cstr ssid ≠ [] := by
  refine cstr_head.mp fun hzero => ?_
  rw [provCheckSsid, if_pos hzero] at h
  cases h

theorem readBody_got {req : HttpPost} {bufSize : Nat} {body : List UInt8}
    (h : readBody req bufSize = some body) : body = req.got := by
  unfold readBody at h
  split_ifs at h
  exact (Option.some.inj h).symm

theorem wifiPostSsid_text (body : List UInt8) :
    cstr (wifiPostSsid (provFormField body (ascii "manual") (provNvsSsidMax + 1))
      (provFormField body (ascii "ssid") (provNvsSsidMax + 1))) =
      if fieldText (ascii "manual") (provNvsSsidMax + 1) body ≠ [] then
        fieldText (ascii "manual") (provNvsSsidMax + 1) body
      else fieldText (ascii "ssid") (provNvsSsidMax + 1) body := by
  rw [wifiPostSsid, chosen_text (by decide) (by decide) (by decide) (by decide),
    chosen_text (by decide) (by decide) (by decide) (by decide)]
  refine if_congr Iff.rfl rfl ?_
  split
  next => rfl
  next hempty => exact (not_not.mp hempty).symm

/-- The credentials a form is tried with, in terms of what arrived of it. -/
theorem wifiPost_tries {req : HttpPost} {creds : ProvCreds} (h : wifiPost req = .tries creds) :
    cstr creds.psk.toList = fieldText (ascii "psk") (provNvsPskMax + 1) req.got ∧
    cstr creds.ssid.toList ≠ [] ∧
    cstr creds.ssid.toList =
      if fieldText (ascii "manual") (provNvsSsidMax + 1) req.got ≠ [] then
        fieldText (ascii "manual") (provNvsSsidMax + 1) req.got
      else fieldText (ascii "ssid") (provNvsSsidMax + 1) req.got := by
  unfold wifiPost at h
  split_ifs at h with hauth
  cases hbody : readBody req bodyMax with
  | none => rw [hbody] at h; cases h
  | some body =>
    obtain rfl := readBody_got hbody
    simp only [hbody] at h
    split_ifs at h with hcheck
    have hok := not_not.mp hcheck
    obtain rfl := WifiPost.tries.inj h
    refine ⟨(provFormField_text (by decide) (by decide) (by decide) (by decide)).1, ?_, ?_⟩
    · refine provCheckSsid_ne ?_
      unfold ProvCreds.check at hok
      by_contra hbad
      rw [if_neg hbad] at hok
      exact hbad hok
    · rw [cstr_snprintf, ← wifiPostSsid_text, List.take_eq_self_iff, wifiPostSsid_text]
      split
      next => exact Nat.le_of_lt_succ (fieldText_length req.got (Nat.succ_pos provNvsSsidMax))
      next => exact Nat.le_of_lt_succ (fieldText_length req.got (Nat.succ_pos provNvsSsidMax))

/-- A field that was posted empty, or not at all, leaves nothing. -/
theorem fieldText_empty {req : HttpPost} {name : List UInt8} {size : Nat}
    (h : (fieldValue name req.posted).getD [] = []) : fieldText name size req.got = [] := by
  rw [fieldText]
  cases hcut : fieldValue name (cstr req.got) with
  | none => rfl
  | some v' =>
    obtain ⟨v, hv, hpre⟩ := fieldValue_prefix (got_short req) hcut
    rw [hv, Option.getD_some] at h
    obtain rfl := List.prefix_nil.mp (h ▸ hpre)
    simp [unescape, cstr]

theorem psk_used_iff {req : HttpPost} {name : List UInt8} {size : Nat} :
    (∀ v, fieldValue name req.posted = some v →
      unescape hexPair v = some (fieldText name size req.got)) ↔
      (fieldValue name req.posted).getD [] = [] ∨ FieldFits req name size := by
  cases hv : fieldValue name req.posted with
  | none => simp
  | some v =>
    simp only [Option.some.injEq, forall_eq', Option.getD_some]
    by_cases hempty : v = []
    · have htext : fieldText name size req.got = [] := fieldText_empty (by rw [hv]; exact hempty)
      simp [hempty, htext, unescape]
    · simp [hempty, fieldText_eq_iff hv hempty]

theorem named_used_iff {req : HttpPost} {name : List UInt8} {size : Nat}
    (h : (fieldValue name req.posted).getD [] ≠ []) :
    (∃ v, fieldValue name req.posted = some v ∧
      unescape hexPair v = some (fieldText name size req.got)) ↔ FieldFits req name size := by
  cases hv : fieldValue name req.posted with
  | none => simp [hv] at h
  | some v =>
    have hne : v ≠ [] := by simpa [hv] using h
    simpa using fieldText_eq_iff hv hne

theorem FieldFits.text {req : HttpPost} {name : List UInt8} {size : Nat}
    (h : FieldFits req name size) (hne : (fieldValue name req.posted).getD [] ≠ []) :
    fieldText name size req.got ≠ [] := fun hnil => by
  obtain ⟨v, hv, htext⟩ := (named_used_iff hne).mpr h
  rw [hnil, unescape_nil_iff] at htext
  simp [hv, htext] at hne

/-- A form that gets as far as the radio is used exactly when its passphrase and the field that names
the network fit, or the name comes out right by luck. -/
theorem form_used_exactly_iff (req : HttpPost) (creds : ProvCreds) (h : wifiPost req = .tries creds) :
    UsedExactly req.posted creds ↔
      ((fieldValue (ascii "psk") req.posted).getD [] = [] ∨
        FieldFits req (ascii "psk") (provNvsPskMax + 1)) ∧
      (FieldFits req (nameField req.posted) (provNvsSsidMax + 1) ∨ SameByLuck req) := by
  obtain ⟨hpsk, hnonempty, hssid⟩ := wifiPost_tries h
  unfold UsedExactly
  rw [hpsk]
  refine and_congr psk_used_iff ?_
  by_cases htyped : (fieldValue (ascii "manual") req.posted).getD [] ≠ []
  · have hname : nameField req.posted = ascii "manual" := if_pos htyped
    rw [hname]
    by_cases htext : fieldText (ascii "manual") (provNvsSsidMax + 1) req.got ≠ []
    · have hluck : ¬SameByLuck req := fun hl => htext hl.2.1
      rw [hssid, if_pos htext, named_used_iff htyped]
      simp [hluck]
    · have hfits : ¬FieldFits req (ascii "manual") (provNvsSsidMax + 1) := fun hf =>
        htext (hf.text htyped)
      rw [hssid, if_neg htext]
      simp only [hfits, false_or, SameByLuck, hname, not_not.mp htext, true_and,
        Option.bind_eq_some_iff]
  · have hname : nameField req.posted = ascii "ssid" := if_neg htyped
    have htext : fieldText (ascii "manual") (provNvsSsidMax + 1) req.got = [] :=
      fieldText_empty (not_not.mp htyped)
    have hluck : ¬SameByLuck req := fun hl => absurd (hname.symm.trans hl.1) (by decide)
    rw [if_neg (not_not.mpr htext)] at hssid
    have hlisted : (fieldValue (ascii "ssid") req.posted).getD [] ≠ [] := fun hnil =>
      hnonempty (hssid.trans (fieldText_empty hnil))
    rw [hname, hssid, named_used_iff hlisted]
    simp [hluck]

def homeForm : HttpPost := ⟨true, ascii "ssid=casa%2B&manual=&psk=12345678", 100⟩

theorem home_form_used :
    ∃ creds, wifiPost homeForm = .tries creds ∧ UsedExactly homeForm.posted creds := by
  refine ⟨⟨fill _ (ascii "casa+"), fill _ (ascii "12345678")⟩, by decide +kernel, ?_⟩
  rw [form_used_exactly_iff homeForm _ (by decide +kernel)]
  refine ⟨.inr ⟨ascii "12345678", ascii "12345678", ?_⟩, .inl ⟨ascii "casa%2B", ascii "casa+", ?_⟩⟩
  all_goals decide +kernel

/-- A passphrase with a stray percent sign becomes an open network, and a typed name of 33 characters
the listed network. -/
theorem bad_field_accepted :
    (wifiPost ⟨true, ascii "ssid=casa&psk=senha100%", 100⟩ =
        .tries ⟨fill _ (ascii "casa"), zeros _⟩ ∧
      ¬UsedExactly (ascii "ssid=casa&psk=senha100%") ⟨fill _ (ascii "casa"), zeros _⟩) ∧
    wifiPost ⟨true, ascii "ssid=casa&manual=123456789012345678901234567890123", 100⟩ =
        .tries ⟨fill _ (ascii "casa"), zeros _⟩ ∧
      ¬UsedExactly (ascii "ssid=casa&manual=123456789012345678901234567890123")
        ⟨fill _ (ascii "casa"), zeros _⟩ := by
  refine ⟨⟨by decide +kernel, fun h => ?_⟩, by decide +kernel, fun h => ?_⟩
  · have hpsk := h.1 (ascii "senha100%") (by decide +kernel)
    exact absurd hpsk (by decide +kernel)
  · obtain ⟨v, hv, hname⟩ := h.2
    have htyped : fieldValue (nameField (ascii "ssid=casa&manual=123456789012345678901234567890123"))
        (ascii "ssid=casa&manual=123456789012345678901234567890123") =
        some (ascii "123456789012345678901234567890123") := by decide +kernel
    obtain rfl := Option.some.inj (htyped.symm.trans hv)
    exact absurd hname (by decide +kernel)

end GateAccess

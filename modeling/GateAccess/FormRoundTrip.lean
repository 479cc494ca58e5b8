import GateAccess.HexText
import GateAccess.ProvForm

namespace GateAccess

def hexDigitUpper (n : UInt8) : UInt8 := if n < 10 then 48 + n else 55 + n

/-- A hex digit in either case. -/
def SpellsNibble (c n : UInt8) : Prop := c = hexDigit n ∨ c = hexDigitUpper n

/-- The texts a browser may post for a value. -/
inductive UrlEncodes : List UInt8 → List UInt8 → Prop
  | nil : UrlEncodes [] []
  | plain {c : UInt8} {value text} : c ∉ ascii "&=+%" → UrlEncodes value text →
      UrlEncodes (c :: value) (c :: text)
  | space {value text} : UrlEncodes value text → UrlEncodes (32 :: value) (43 :: text)
  | escape {c hi lo : UInt8} {value text} : SpellsNibble hi (c >>> 4) → SpellsNibble lo (c &&& 15) →
      UrlEncodes value text → UrlEncodes (c :: value) (37 :: hi :: lo :: text)

def unreserved (c : UInt8) : Bool :=
  isDigit c || (65 ≤ c && c ≤ 90) || (97 ≤ c && c ≤ 122) || c ∈ ascii "-._~"

/-- A field of a form with a text that encodes its value. -/
structure FormField where
  name : List UInt8
  value : List UInt8
  text : List UInt8
  named : name ≠ []
  plain : name.all unreserved = true
  noNul : 0 ∉ value
  encoded : UrlEncodes value text

def FormField.bytes (field : FormField) : List UInt8 := field.name ++ 61 :: field.text

def formBody (fields : List FormField) : List UInt8 := [38].intercalate (fields.map FormField.bytes)

theorem hexVal_spells {c n : UInt8} (hn : n.toNat < 16) (h : SpellsNibble c n) : hexVal c = some n := by
  have all : ∀ k < 16, hexVal (hexDigit (UInt8.ofNat k)) = some (UInt8.ofNat k) ∧
      hexVal (hexDigitUpper (UInt8.ofNat k)) = some (UInt8.ofNat k) := by decide
  have hboth := all n.toNat hn
  rw [UInt8.ofNat_toNat] at hboth
  rcases h with rfl | rfl
  · exact hboth.1
  · exact hboth.2

theorem hexPair_spells {c hi lo : UInt8} (hhi : SpellsNibble hi (c >>> 4))
    (hlo : SpellsNibble lo (c &&& 15)) : hexPair hi lo = some c := by
  rw [hexPair, hexVal_spells (high_nibble_lt c) hhi, hexVal_spells (low_nibble_lt c) hlo]
  exact congrArg some (nibbles_join c)

theorem UrlEncodes.unescape {value text : List UInt8} (h : UrlEncodes value text) :
    unescape hexPair text = some value := by
  induction h with
  | nil => rfl
  | @plain c value text hc _ ih =>
    have hclean : c ≠ 43 ∧ c ≠ 37 := ⟨fun h => hc (by rw [h]; decide), fun h => hc (by rw [h]; decide)⟩
    rw [unescape_plain _ hclean.1 hclean.2, ih]
    rfl
  | space _ ih =>
    rw [unescape_plus, ih]
    rfl
  | escape hhi hlo _ ih =>
    rw [unescape_escape, hexPair_spells hhi hlo, ih]
    rfl

theorem spells_ne {c n d : UInt8} (h : SpellsNibble c n) (hn : n.toNat < 16) (hd : hexVal d = none) :
    c ≠ d := by
  rintro rfl
  rw [hexVal_spells hn h] at hd
  cases hd

/-- A separator, or a byte the value does not have, stays out of the text. -/
theorem UrlEncodes.not_mem {value text : List UInt8} (h : UrlEncodes value text) {d : UInt8}
    (hdigit : hexVal d = none) (hplus : d ≠ 43) (hescape : d ≠ 37)
    (hvalue : d ∈ value → d ∈ ascii "&=+%") : d ∉ text := by
  induction h with
  | nil => simp
  | plain hc _ ih =>
    simp only [List.mem_cons, not_or] at hvalue ⊢
    exact ⟨fun h => hc (h ▸ hvalue (.inl h)), ih fun hmem => hvalue (.inr hmem)⟩
  | space _ ih =>
    simp only [List.mem_cons, not_or] at hvalue ⊢
    exact ⟨hplus, ih fun hmem => hvalue (.inr hmem)⟩
  | @escape c hi lo value text hhi hlo _ ih =>
    simp only [List.mem_cons, not_or] at hvalue ⊢
    exact ⟨hescape, (spells_ne hhi (high_nibble_lt c) hdigit).symm,
      (spells_ne hlo (low_nibble_lt c) hdigit).symm, ih fun hmem => hvalue (.inr hmem)⟩

theorem not_mem_unreserved {name : List UInt8} (h : name.all unreserved = true) {d : UInt8}
    (hd : unreserved d = false) : d ∉ name := fun hmem => by
  rw [List.all_eq_true.mp h d hmem] at hd
  cases hd

theorem FormField.not_mem_amp (field : FormField) : 38 ∉ field.bytes := by
  have hname := not_mem_unreserved field.plain (d := 38) (by decide)
  have htext := field.encoded.not_mem (d := 38) (by decide) (by decide) (by decide) fun _ => by decide
  simp [FormField.bytes, hname, htext]

theorem FormField.not_mem_nul (field : FormField) : 0 ∉ field.bytes := by
  have hname := not_mem_unreserved field.plain (d := 0) (by decide)
  have htext := field.encoded.not_mem (d := 0) (by decide) (by decide) (by decide)
    fun h => absurd h field.noNul
  simp [FormField.bytes, hname, htext]

theorem cstr_formBody (fields : List FormField) : cstr (formBody fields) = formBody fields := by
  refine cstr_eq_self (not_mem_intercalate (by decide) fun bytes hbytes => ?_)
  obtain ⟨field, -, rfl⟩ := List.mem_map.mp hbytes
  exact field.not_mem_nul

/-- A field has one equals sign, so only its own name goes before it. -/
theorem valueOf_field (name : List UInt8) (field : FormField) :
    valueOf name field.bytes = if field.name = name then some field.text else none := by
  have hname := not_mem_unreserved field.plain (d := 61) (by decide)
  have htext := field.encoded.not_mem (d := 61) (by decide) (by decide) (by decide) fun _ => by decide
  unfold valueOf FormField.bytes
  by_cases heq : field.name = name
  · rw [if_pos heq, if_pos (by rw [heq]; simp), heq, ← List.drop_drop, List.drop_left' rfl]
    rfl
  · rw [if_neg heq, if_neg]
    rintro ⟨more, hmore⟩
    rw [List.append_assoc, List.singleton_append] at hmore
    rcases List.append_eq_append_iff.mp hmore with ⟨mid, hfield, hrest⟩ | ⟨mid, hasked, hrest⟩
    · cases mid with
      | nil => simp at hfield; exact heq hfield
      | cons c mid =>
        obtain ⟨rfl, -⟩ := List.cons.inj hrest
        simp [hfield] at hname
    · cases mid with
      | nil => simp at hasked; exact heq hasked.symm
      | cons c mid =>
        have hlater := (List.cons.inj hrest).2
        simp [hlater] at htext

theorem fieldValue_form (name : List UInt8) (fields : List FormField) :
    fieldValue name (formBody fields) =
      (fields.find? fun field => field.name = name).map FormField.text := by
  have hfind : (fields.map FormField.bytes).findSome? (valueOf name) =
      (fields.find? fun field => field.name = name).map FormField.text := by
    induction fields with
    | nil => rfl
    | cons field fields ih =>
      rw [List.map_cons, List.findSome?_cons, valueOf_field, List.find?_cons, ih]
      by_cases heq : field.name = name <;> simp [heq]
  rw [← hfind]
  cases hnil : fields with
  | nil =>
    rw [formBody, List.map_nil, List.intercalate_nil, fieldValue_single name (by simp), valueOf_nil]
    rfl
  | cons field rest =>
    rw [fieldValue, formBody, List.splitOn_intercalate 38 (fun bytes hbytes => ?_) (by simp)]
    obtain ⟨field, -, rfl⟩ := List.mem_map.mp hbytes
    exact field.not_mem_amp

theorem FormField.cstr_name (field : FormField) : cstr field.name = field.name :=
  cstr_eq_self (not_mem_unreserved field.plain (by decide))

/-- A field's name is asked for: what comes out, in terms of what the form holds. -/
theorem provFormField_form (asked : FormField) (fields : List FormField) (size : Nat) :
    provFormField (formBody fields) asked.name size =
      match (fields.find? fun field => field.name = asked.name).filter (·.value.length < size) with
      | some field => (fill _ field.value, true)
      | none => (zeros _, false) := by
  have hbody : 0 ∉ formBody fields := cstr_formBody fields ▸ zero_not_mem_cstr (formBody fields)
  have hamp := not_mem_unreserved asked.plain (d := 38) (by decide)
  have hnul := not_mem_unreserved asked.plain (d := 0) (by decide)
  rw [provFormField, cstr_formBody, asked.cstr_name]
  by_cases hsize : size = 0
  · rw [if_pos (.inl hsize), hsize]
    cases fields.find? fun field => field.name = asked.name <;> rfl
  · rw [if_neg (not_or.mpr ⟨hsize, asked.named⟩), formScan_eq hnul hamp hbody le_rfl, fieldValue_form]
    cases fields.find? fun field => field.name = asked.name with
    | none => rfl
    | some field =>
      simp only [Option.map_some, provUrlDecode_eq _ (Nat.pos_of_ne_zero hsize),
        field.encoded.unescape]
      by_cases hfits : field.value.length < size <;> simp [Option.filter, hfits]

/-- The name is a run of whole fields as they stand in the body, up to the name of the next. -/
def RunsOver (fields : List FormField) (name : List UInt8) : Prop :=
  ∃ before run field after, fields = before ++ run ++ field :: after ∧ run ≠ [] ∧
    name = formBody run ++ 38 :: field.name

theorem formBody_cons {fields : List FormField} (field : FormField) (h : fields ≠ []) :
    formBody (field :: fields) = field.bytes ++ 38 :: formBody fields := by
  cases fields with
  | nil => exact absurd rfl h
  | cons next fields => rfl

/-- What is behind a separator is found behind the same separator. -/
theorem prefix_past {a name more : List UInt8} {d : UInt8} (ha : d ∉ a)
    (h : name ++ [d] <+: a ++ more) : ∃ rest, name = a ++ rest ∧ rest ++ [d] <+: more := by
  obtain ⟨tail, htail⟩ := h
  rw [List.append_assoc] at htail
  rcases List.append_eq_append_iff.mp htail with ⟨mid, hname, hrest⟩ | ⟨mid, hname, hrest⟩
  · cases mid with
    | nil => exact ⟨[], by simpa using hname.symm, tail, by simpa using hrest⟩
    | cons c mid =>
      obtain ⟨rfl, -⟩ := List.cons.inj hrest
      exact absurd (by rw [hname]; simp) ha
  · exact ⟨mid, hname, tail, by rw [List.append_assoc]; exact hrest.symm⟩

/-- Every equals sign of a form ends the name of a field. -/
theorem name_before_equals {fields : List FormField} {name : List UInt8}
    (h : name ++ [61] <+: formBody fields) :
    ∃ run field after, fields = run ++ field :: after ∧
      ((run = [] ∧ name = field.name) ∨ (run ≠ [] ∧ name = formBody run ++ 38 :: field.name)) := by
  induction fields generalizing name with
  | nil => simp [formBody] at h
  | cons field fields ih =>
    have hname := not_mem_unreserved field.plain (d := 61) (by decide)
    have htext := field.encoded.not_mem (d := 61) (by decide) (by decide) (by decide) fun _ => by decide
    obtain ⟨sep, hbody, hsep⟩ : ∃ sep, formBody (field :: fields) = field.name ++ 61 :: (field.text ++ sep) ∧
        (sep = [] ∨ sep = 38 :: formBody fields) := by
      by_cases hlast : fields = []
      · exact ⟨[], by simp [hlast, formBody, FormField.bytes], .inl rfl⟩
      · exact ⟨_, by rw [formBody_cons field hlast]; simp [FormField.bytes], .inr rfl⟩
    rw [hbody] at h
    obtain ⟨rest, rfl, hrest⟩ := prefix_past hname h
    cases rest with
    | nil => exact ⟨[], field, fields, rfl, .inl ⟨rfl, List.append_nil _⟩⟩
    | cons c rest =>
      obtain ⟨rfl, hvalue⟩ := List.cons_prefix_cons.mp hrest
      obtain ⟨rest, rfl, hnext⟩ := prefix_past htext hvalue
      rcases hsep with rfl | rfl
      · simp at hnext
      cases rest with
      | nil => simp at hnext
      | cons c rest =>
        obtain ⟨rfl, hlater⟩ := List.cons_prefix_cons.mp hnext
        obtain ⟨run, later, after, hfields, hrun⟩ := ih hlater
        refine ⟨field :: run, later, after, by rw [hfields]; rfl, .inr ⟨by simp, ?_⟩⟩
        rcases hrun with ⟨rfl, rfl⟩ | ⟨hne, rfl⟩
        · simp [formBody, FormField.bytes]
        · rw [formBody_cons field hne]
          simp [FormField.bytes]

/-- The walk goes past every field of another name, and stops nowhere else. -/
theorem formScan_none {name : List UInt8} (h0 : 0 ∉ name) {fields : List FormField}
    (hnot : name ∉ fields.map FormField.name) (hruns : ¬RunsOver fields name) (n : Nat) :
    formScan name n (formBody fields) = none := by
  induction n generalizing fields with
  | zero => rfl
  | succ n ih =>
    have hbody : 0 ∉ formBody fields := cstr_formBody fields ▸ zero_not_mem_cstr (formBody fields)
    have hmiss : ¬name ++ [61] <+: formBody fields := by
      intro hfound
      obtain ⟨run, field, after, hfields, ⟨-, hsame⟩ | ⟨hne, hrun⟩⟩ := name_before_equals hfound
      · exact hnot (by rw [hfields, hsame]; simp)
      · exact hruns ⟨[], run, field, after, hfields, hne, hrun⟩
    rw [formScan, if_neg fun h => hmiss ((formScan_match h0 hbody).mp h)]
    split_ifs
    · rfl
    cases fields with
    | nil => rfl
    | cons field fields =>
      have hall : ∀ c ∈ field.bytes, (decide (c ≠ 38)) = true := fun c hc => by
        simpa using fun h : c = 38 => field.not_mem_amp (h ▸ hc)
      by_cases hlast : fields = []
      · rw [hlast, formBody, List.map_singleton, List.intercalate_singleton,
          List.dropWhile_eq_nil_iff.mpr hall]
      · rw [formBody_cons field hlast, List.dropWhile_append_of_pos hall]
        refine ih (fun h => hnot (List.mem_cons_of_mem _ h)) ?_
        rintro ⟨before, run, later, after, hfields, hne, hrun⟩
        exact hruns ⟨field :: before, run, later, after, by rw [hfields]; rfl, hne, hrun⟩

/-- Form fields round-trip: every field of a form comes back whole or not at all, and nothing else
does, unless a run of fields is taken for a name. -/
theorem form_round_trip (fields : List FormField) (hnames : (fields.map FormField.name).Nodup)
    (size : Nat) :
    (∀ field ∈ fields, field.value.length < size →
      provFormField (formBody fields) field.name size = (fill _ field.value, true)) ∧
    (∀ field ∈ fields, size ≤ field.value.length →
      provFormField (formBody fields) field.name size = (zeros _, false)) ∧
    ∀ name, cstr name ∉ fields.map FormField.name → ¬RunsOver fields (cstr name) →
      provFormField (formBody fields) name size = (zeros _, false) := by
  have hfound : ∀ field ∈ fields, (fields.find? fun f => f.name = field.name) = some field := by
    intro field hmem
    obtain ⟨before, after, rfl⟩ := List.append_of_mem hmem
    rw [List.map_append, List.map_cons, List.nodup_append] at hnames
    refine List.find?_eq_some_iff_append.mpr ⟨by simp, before, after, rfl, fun f hf => ?_⟩
    have hne := hnames.2.2 f.name (List.mem_map_of_mem hf) field.name List.mem_cons_self
    simpa using hne
  refine ⟨fun field hmem hfits => ?_, fun field hmem hlong => ?_, fun name hnot hruns => ?_⟩
  · rw [provFormField_form field, hfound field hmem]
    simp [Option.filter, hfits]
  · rw [provFormField_form field, hfound field hmem]
    simp [Option.filter, Nat.not_lt.mpr hlong]
  · rw [provFormField, cstr_formBody, formScan_none (zero_not_mem_cstr name) hnot hruns]
    exact ite_self _

def ssidField : FormField where
  name := ascii "ssid"
  value := ascii "a&"
  text := ascii "a%26"
  named := by decide
  plain := by decide
  noNul := by decide
  encoded := .plain (by decide) (.escape (.inl (by decide)) (.inl (by decide)) .nil)

def pskField : FormField where
  name := ascii "psk"
  value := ascii "a b"
  text := ascii "a+b"
  named := by decide
  plain := by decide
  noNul := by decide
  encoded := .plain (by decide) (.space (.plain (by decide) .nil))

/-- Its name begins the name of another field. -/
def pField : FormField where
  name := ascii "p"
  value := ascii "ok"
  text := ascii "ok"
  named := by decide
  plain := by decide
  noNul := by decide
  encoded := .plain (by decide) (.plain (by decide) .nil)

/-- Of the form `psk=a+b&ssid=a%26&p=ok` two fields are read, one does not fit, and one is not there. -/
theorem form_round_trip_ssid :
    provFormField (formBody [pskField, ssidField, pField]) (ascii "p") 3 = (fill _ (ascii "ok"), true) ∧
    provFormField (formBody [pskField, ssidField, pField]) (ascii "ssid") 3 =
      (fill _ (ascii "a&"), true) ∧
    provFormField (formBody [pskField, ssidField, pField]) (ascii "psk") 3 = (zeros _, false) ∧
    provFormField (formBody [pskField, ssidField, pField]) (ascii "ss") 3 = (zeros _, false) := by
  obtain ⟨hfits, hlong, hmissing⟩ := form_round_trip [pskField, ssidField, pField] (by decide) 3
  refine ⟨hfits pField (by simp) (by decide), hfits ssidField (by simp) (by decide),
    hlong pskField (by simp) (by decide), hmissing (ascii "ss") (by decide) ?_⟩
  rintro ⟨before, run, field, after, -, -, hname⟩
  have hamp : 38 ∈ cstr (ascii "ss") := by simp [hname]
  exact absurd hamp (by decide)

/-- A field of one letter and one byte. -/
def letterField (name value : UInt8) (hname : unreserved name = true) (hvalue : value ∉ ascii "&=+%")
    (hnul : value ≠ 0) : FormField where
  name := [name]
  value := [value]
  text := [value]
  named := by simp
  plain := by simp [hname]
  noNul := by simpa using hnul.symm
  encoded := .plain hvalue .nil

def runField : FormField where
  name := ascii "c"
  value := ascii "a=1&b"
  text := ascii "a%3D1%26b"
  named := by decide
  plain := by decide
  noNul := by decide
  encoded := .plain (by decide) (.escape (.inl (by decide)) (.inr (by decide)) (.plain (by decide)
    (.escape (.inl (by decide)) (.inl (by decide)) (.plain (by decide) .nil))))

/-- The form `a=1&b=2&c=a%3D1%26b`. -/
def runForm : List FormField :=
  [letterField 97 49 (by decide) (by decide) (by decide),
    letterField 98 50 (by decide) (by decide) (by decide), runField]

/-- No field has the name `a=1&b`, and asking for it gives the value of `b`. -/
theorem run_taken_for_name :
    (runForm.map FormField.name).Nodup ∧ ascii "a=1&b" ∉ runForm.map FormField.name ∧
      runField.value = ascii "a=1&b" ∧
      provFormField (formBody runForm) (ascii "a=1&b") 8 = (fill _ (ascii "2"), true) := by
  decide +kernel

end GateAccess

import GateAccess.Decimals
import GateAccess.HexText
import GateAccess.HtmlLexer
import GateAccess.WifiForm

namespace GateAccess

def scanMax : Nat := 12

/-- The size of the page's buffer. -/
def pageMax : Nat := 4096

/-- A network name as the radio reports it or `wifi_post` keeps it. -/
structure Ssid where
  bytes : List UInt8
  short : bytes.length ≤ provNvsSsidMax
  plain : 0 ∉ bytes

inductive WifiAuthMode
  | open
  | wep
  | wpaPsk
  | wpa2Psk
  | wpaWpa2Psk
  | wpa3Psk
  | wpa2Wpa3Psk
  | other
  deriving DecidableEq

structure ScanRecord where
  ssid : Ssid
  authmode : WifiAuthMode
  rssi : Int8

/-- What `net_link_scan` leaves in `records`; nothing when it fails. -/
structure ScanResult where
  records : List ScanRecord
  few : records.length ≤ scanMax

def css : List UInt8 :=
  ascii "<style>body\x7bfont-family:system-ui,sans-serif;margin:0;padding:1.5rem 1.25rem;" ++
  ascii "background:#101014;color:#e8e8ea;line-height:1.5;max-width:30rem\x7d" ++
  ascii "h1\x7bfont-size:1.3rem;margin:0 0 .25rem\x7dh2\x7bfont-size:1.05rem;margin:1.5rem 0 .5rem\x7d" ++
  ascii "p\x7bmargin:.5rem 0;color:#a8a8b0\x7db\x7bcolor:#e8e8ea\x7d" ++
  ascii "a\x7bcolor:#7fc4ff\x7d" ++
  ascii "label\x7bdisplay:block;margin:.75rem 0 .25rem\x7d" ++
  ascii "input,select\x7bwidth:100%;padding:.6rem;font-size:1rem;border-radius:.4rem;" ++
  ascii "border:1px solid #33333c;background:#1a1a20;color:#e8e8ea;box-sizing:border-box\x7d" ++
  ascii "button\x7bmargin-top:1rem;padding:.7rem 1.2rem;font-size:1rem;border:0;" ++
  ascii "border-radius:.4rem;background:#2f6fb0;color:#fff\x7d" ++
  ascii ".err\x7bcolor:#ff9b9b\x7d.ok\x7bcolor:#9bdfa0\x7d.warn\x7bcolor:#ffd48a\x7d</style>"

def authName : WifiAuthMode → List UInt8
  | .open => ascii "aberta"
  | .wep => ascii "WEP"
  | .wpaPsk => ascii "WPA"
  | .wpa2Psk => ascii "WPA2"
  | .wpaWpa2Psk => ascii "WPA/WPA2"
  | .wpa3Psk => ascii "WPA3"
  | .wpa2Wpa3Psk => ascii "WPA2/WPA3"
  | .other => ascii "?"

/-- `%x` of an error code. -/
def hexCode (err : UInt32) : List UInt8 :=
  match (hexText (put32 err).reverse).dropWhile (· = 48) with
  | [] => [48]
  | digits => digits

/-- What `wifi_get` and `wifi_post` put over the form. -/
inductive WifiMessage
  | none
  | invalidForm
  | refused (r : ProvResult)
  | notJoined (ssid : Ssid)
  | saved (ssid : Ssid)
  | notSaved (err : UInt32)

def WifiMessage.text : WifiMessage → List UInt8
  | .none => []
  | .invalidForm => ascii "<p class=\"err\">Formulario invalido ou longo demais.</p>"
  | .refused r =>
    cstr (snprintf 192 (ascii "<p class=\"err\">" ++ provResultText r ++ ascii "</p>")).toList
  | .notJoined ssid =>
    cstr (snprintf 320 (ascii "<p class=\"err\">Nao foi possivel conectar em <b>" ++ ssid.bytes ++
      (ascii "</b>. " ++ ascii "Nada foi salvo: verifique a senha e tente de novo.</p>"))).toList
  | .saved ssid =>
    cstr (snprintf 320 (ascii "<p class=\"ok\">Conectado e salvo: <b>" ++ ssid.bytes ++
      (ascii "</b>.</p>" ++ ascii "<p>O portao esta usando esta rede agora.</p>"))).toList
  | .notSaved err =>
    cstr (snprintf 320 (ascii "<p class=\"err\">Conectou, mas falhou ao gravar (0x" ++ hexCode err ++
      ascii ").</p>")).toList

def pageTop : List UInt8 :=
  ascii "<!DOCTYPE html><html lang=\"pt-br\"><head><meta charset=\"utf-8\">" ++
  ascii "<meta name=\"viewport\" content=\"width=device-width,initial-scale=1\">" ++
  ascii "<title>WiFi</title>" ++ css ++ ascii "</head><body>" ++
  ascii "<h1>Configurar WiFi</h1>"

def formTop : List UInt8 :=
  ascii "<form method=\"POST\" action=\"/wifi\">" ++
  ascii "<label for=\"s\">Rede encontrada</label>" ++
  ascii "<select id=\"s\" name=\"ssid\"><option value=\"\">-- escolher --</option>"

def pageHead (message : WifiMessage) : List UInt8 := pageTop ++ message.text ++ formTop

def optionStart : List UInt8 := ascii "<option value=\""

def ScanRecord.wep (r : ScanRecord) : Bool := r.authmode = .wep

def ScanRecord.attrEnd (r : ScanRecord) : List UInt8 :=
  ascii "\"" ++ (if r.wep then ascii " disabled" else []) ++ ascii ">"

/-- What is behind the name in the text of an option. -/
def ScanRecord.details (r : ScanRecord) : List UInt8 :=
  ascii " (" ++ authName r.authmode ++ ascii ", " ++ decimalInt r.rssi.toInt ++ ascii " dBm)" ++
    (if r.wep then ascii " - nao suportada" else [])

def optionText (r : ScanRecord) : List UInt8 :=
  optionStart ++ r.ssid.bytes ++ r.attrEnd ++ r.ssid.bytes ++ r.details ++ ascii "</option>"

def pageTail : List UInt8 :=
  ascii "</select>" ++
  ascii "<label for=\"m\">Ou digite o nome (rede oculta)</label>" ++
  ascii "<input id=\"m\" name=\"manual\" placeholder=\"deixe vazio se escolheu acima\">" ++
  ascii "<label for=\"p\">Senha</label>" ++
  ascii "<input id=\"p\" name=\"psk\" type=\"password\" " ++
  ascii "placeholder=\"vazio para rede aberta\" autocomplete=\"off\">" ++
  ascii "<button type=\"submit\">Salvar</button></form>" ++
  ascii "<p><a href=\"/\">Voltar</a></p></body></html>"

/-- `snprintf(body + n, sizeof(body) - n, ..)`: the text so far, and `n` moved by what it returns. -/
def appendAt (body : List UInt8 × Nat) (text : List UInt8) : List UInt8 × Nat :=
  (body.1.take body.2 ++ text.take (pageMax - body.2 - 1), body.2 + text.length)

def appendOptions (body : List UInt8 × Nat) : List ScanRecord → List UInt8 × Nat
  | [] => body
  | r :: rs =>
    if body.2 < pageMax - 256 then appendOptions (appendAt body (optionText r)) rs else body

/-- The page, unless the request is sent away. -/
def wifiPage (authenticated : Bool) (scan : ScanResult) (message : WifiMessage) :
    Option (List UInt8) :=
  if !authenticated then .none
  else
    let body := appendAt ([], 0) (pageHead message)
    let body := appendOptions body scan.records
    .some (appendAt body pageTail).1

/-- Markup that leaves the tokenizer where text is, and how long it is. -/
def Settles (text : List UInt8) (n : Nat) : Prop := htmlState .data text = .data ∧ text.length ≤ n

instance (text : List UInt8) (n : Nat) : Decidable (Settles text n) :=
  inferInstanceAs (Decidable (_ ∧ _))

theorem Settles.append {a b : List UInt8} {n m : Nat} (ha : Settles a n) (hb : Settles b m) :
    Settles (a ++ b) (n + m) := by
  refine ⟨?_, ?_⟩
  · rw [htmlState_append, ha.1, hb.1]
  · rw [List.length_append]
    exact Nat.add_le_add ha.2 hb.2

theorem css_settles : Settles css 665 := by
  rw [css]
  repeat rw [ascii_ofList]
  decide +kernel

theorem pageTop_settles : Settles pageTop 860 := by
  have hfirst : Settles (ascii "<!DOCTYPE html><html lang=\"pt-br\"><head><meta charset=\"utf-8\">" ++
      ascii "<meta name=\"viewport\" content=\"width=device-width,initial-scale=1\">" ++
      ascii "<title>WiFi</title>") 155 := by
    repeat rw [ascii_ofList]
    decide +kernel
  have hlast : Settles (ascii "</head><body>" ++ ascii "<h1>Configurar WiFi</h1>") 40 := by
    repeat rw [ascii_ofList]
    decide +kernel
  have hall := (hfirst.append css_settles).append hlast
  rw [← List.append_assoc] at hall
  exact hall

theorem formTop_settles : Settles formTop 160 := by
  rw [formTop]
  repeat rw [ascii_ofList]
  decide +kernel

theorem pageTail_short : pageTail.length ≤ 500 := by
  rw [pageTail]
  repeat rw [ascii_ofList]
  decide +kernel

/-- A message around the name it shows, if it shows one. -/
def WifiMessage.start : WifiMessage → List UInt8
  | .none => []
  | .invalidForm => ascii "<p class=\"err\">Formulario invalido ou longo demais.</p>"
  | .refused r => ascii "<p class=\"err\">" ++ provResultText r ++ ascii "</p>"
  | .notJoined _ => ascii "<p class=\"err\">Nao foi possivel conectar em <b>"
  | .saved _ => ascii "<p class=\"ok\">Conectado e salvo: <b>"
  | .notSaved err =>
    ascii "<p class=\"err\">Conectou, mas falhou ao gravar (0x" ++ hexCode err ++ ascii ").</p>"

def WifiMessage.name : WifiMessage → List UInt8
  | .notJoined ssid | .saved ssid => ssid.bytes
  | _ => []

def WifiMessage.rest : WifiMessage → List UInt8
  | .notJoined _ => ascii "</b>. " ++ ascii "Nada foi salvo: verifique a senha e tente de novo.</p>"
  | .saved _ => ascii "</b>.</p>" ++ ascii "<p>O portao esta usando esta rede agora.</p>"
  | _ => []

theorem cstr_printed {n : Nat} {text : List UInt8} (hplain : 0 ∉ text) (hfits : text.length < n) :
    cstr (snprintf n text).toList = text := by
  have hself := cstr_eq_self hplain
  rw [cstr_snprintf, hself, List.take_of_length_le (by omega)]

theorem hexCode_plain (err : UInt32) :
    (hexCode err).length ≤ 8 ∧ ∀ c ∈ hexCode err, c ≠ 0 ∧ c ≠ 60 := by
  unfold hexCode
  split
  next => decide +kernel
  next digits _ =>
    have hsub : (hexText (put32 err).reverse).dropWhile (· = 48) <:+ hexText (put32 err).reverse :=
      List.dropWhile_suffix _
    refine ⟨hsub.length_le.trans ?_, fun c hc => hexText_plain (hsub.subset hc)⟩
    rw [hexText_length]
    rfl

theorem WifiMessage.start_plain (m : WifiMessage) : Settles m.start 100 ∧ 0 ∉ m.start := by
  cases m with
  | none => decide
  | invalidForm =>
    rw [start, ascii_ofList]
    decide +kernel
  | notJoined | saved =>
    rw [start, ascii_ofList]
    decide +kernel
  | refused r => cases r <;> decide +kernel
  | notSaved err =>
    obtain ⟨hlen, hplain⟩ := hexCode_plain err
    have hcode : Settles (hexCode err) 8 :=
      ⟨(htmlState_plain fun h => (hplain 60 h).2 rfl).2, hlen⟩
    have hfirst : Settles (ascii "<p class=\"err\">Conectou, mas falhou ao gravar (0x") 60 ∧
        0 ∉ ascii "<p class=\"err\">Conectou, mas falhou ao gravar (0x" := by
      rw [ascii_ofList]
      decide +kernel
    have hlast : Settles (ascii ").</p>") 10 ∧ 0 ∉ ascii ").</p>" := by decide +kernel
    have hall := (hfirst.1.append hcode).append hlast.1
    refine ⟨⟨hall.1, hall.2.trans (by decide)⟩, fun h => ?_⟩
    rcases List.mem_append.mp h with h | h
    · rcases List.mem_append.mp h with h | h
      · exact hfirst.2 h
      · exact (hplain 0 h).1 rfl
    · exact hlast.2 h

theorem WifiMessage.name_plain (m : WifiMessage) : m.name.length ≤ 32 ∧ 0 ∉ m.name := by
  cases m with
  | notJoined ssid | saved ssid => exact ⟨ssid.short, ssid.plain⟩
  | none | invalidForm | refused | notSaved => simp [name]

theorem WifiMessage.rest_plain (m : WifiMessage) : m.rest.length ≤ 60 ∧ 0 ∉ m.rest := by
  cases m with
  | none | invalidForm | refused | notSaved => simp [rest]
  | notJoined | saved =>
    rw [rest]
    repeat rw [ascii_ofList]
    decide +kernel

/-- No message is cut. -/
theorem WifiMessage.text_eq (m : WifiMessage) : m.text = m.start ++ m.name ++ m.rest := by
  have hplain : 0 ∉ m.start ++ m.name ++ m.rest := by
    simp [m.start_plain.2, m.name_plain.2, m.rest_plain.2]
  have hlen : (m.start ++ m.name ++ m.rest).length < 320 := by
    have hstart := m.start_plain.1.2
    have hname := m.name_plain.1
    have hrest := m.rest_plain.1
    rw [List.length_append, List.length_append]
    omega
  have hprinted := cstr_printed hplain hlen
  cases m with
  | none => rfl
  | invalidForm => exact (List.append_nil _).symm
  | refused r =>
    obtain ⟨⟨-, hshort⟩, hstart⟩ := (refused r).start_plain
    simp only [name, rest, List.append_nil]
    exact cstr_printed hstart (Nat.lt_of_le_of_lt hshort (by decide))
  | notJoined ssid => exact hprinted
  | saved ssid => exact hprinted
  | notSaved err =>
    simp only [start, name, rest, List.append_nil] at hprinted ⊢
    exact hprinted

/-- What `wifi_post` says before it tries a network is one of these messages. -/
theorem wifiPost_message {req : HttpPost} {text : List UInt8} (h : wifiPost req = .page text) :
    ∃ message : WifiMessage, text = message.text := by
  unfold wifiPost at h
  split at h
  · cases h
  split at h
  · exact ⟨.invalidForm, (WifiPost.page.inj h).symm⟩
  · dsimp only at h
    split at h
    · exact ⟨.refused _, (WifiPost.page.inj h).symm⟩
    · cases h

theorem rssi_short (rssi : Int8) : (decimalInt rssi.toInt).length ≤ 4 := by
  have hlo := rssi.le_toInt
  have hhi := rssi.toInt_lt
  have hdigits : (decimal rssi.toInt.natAbs).length ≤ 3 := (decimal_length_le (by decide)).mpr (by omega)
  unfold decimalInt
  split
  · rw [List.length_cons]
    omega
  · omega

theorem optionText_short (r : ScanRecord) : (optionText r).length ≤ 140 := by
  have hname : r.ssid.bytes.length ≤ 32 := r.ssid.short
  have hrssi := rssi_short r.rssi
  have hauth : (authName r.authmode).length ≤ 9 := by cases r.authmode <;> decide +kernel
  have hend : r.attrEnd.length ≤ 11 := by
    rw [ScanRecord.attrEnd]
    cases r.wep <;> decide +kernel
  have hdetails : r.details.length ≤ 38 := by
    have hopen : (ascii " (").length = 2 ∧ (ascii ", ").length = 2 ∧ (ascii " dBm)").length = 5 := by
      decide +kernel
    have hwep : (if r.wep then ascii " - nao suportada" else []).length ≤ 16 := by
      cases r.wep <;> decide +kernel
    simp only [ScanRecord.details, List.length_append]
    omega
  have hmarkup : optionStart.length = 15 ∧ (ascii "</option>").length = 9 := by decide +kernel
  simp only [optionText, List.length_append]
  omega

theorem options_short (rs : List ScanRecord) :
    (rs.flatMap optionText).length ≤ rs.length * 140 := by
  induction rs with
  | nil => simp
  | cons r rs ih =>
    have hr := optionText_short r
    rw [List.flatMap_cons, List.length_append, List.length_cons]
    omega

theorem appendAt_fits {body text : List UInt8} (h : body.length + text.length < pageMax) :
    appendAt (body, body.length) text = (body ++ text, (body ++ text).length) := by
  have hroom : text.length ≤ pageMax - body.length - 1 := by omega
  rw [appendAt, List.take_of_length_le hroom, List.take_length, List.length_append]

/-- The loop reaches every record. -/
theorem appendOptions_fits {body : List UInt8} {rs : List ScanRecord}
    (h : body.length + rs.length * 140 ≤ pageMax - 256) :
    appendOptions (body, body.length) rs =
      (body ++ rs.flatMap optionText, (body ++ rs.flatMap optionText).length) := by
  induction rs generalizing body with
  | nil => simp [appendOptions]
  | cons r rs ih =>
    have hr := optionText_short r
    have hmax : pageMax = 4096 := rfl
    rw [List.length_cons] at h
    have hfits : body.length + (optionText r).length < pageMax := by omega
    have hnext : (body ++ optionText r).length + rs.length * 140 ≤ pageMax - 256 := by
      rw [List.length_append]
      omega
    rw [appendOptions, if_pos (by dsimp only; omega), appendAt_fits hfits, ih hnext,
      List.append_assoc, List.flatMap_cons]

/-- What the page is made of; nothing is left out or cut. -/
def pageParts (scan : ScanResult) (message : WifiMessage) : List UInt8 :=
  pageHead message ++ scan.records.flatMap optionText ++ pageTail

theorem wifiPage_eq (authenticated : Bool) (scan : ScanResult) (message : WifiMessage) :
    wifiPage authenticated scan message =
      if authenticated then some (pageParts scan message) else none := by
  have hhead : (pageHead message).length ≤ 1400 := by
    have htop := pageTop_settles.2
    have hform := formTop_settles.2
    have hstart := message.start_plain.1.2
    have hname := message.name_plain.1
    have hrest := message.rest_plain.1
    simp only [pageHead, message.text_eq, List.length_append]
    omega
  have hfew : scan.records.length ≤ 12 := scan.few
  have hmax : pageMax = 4096 := rfl
  have htop : appendAt ([], 0) (pageHead message) = (pageHead message, (pageHead message).length) := by
    have hempty : ([] : List UInt8).length + (pageHead message).length < pageMax := by
      rw [List.length_nil]
      omega
    exact appendAt_fits hempty
  have hloop : (pageHead message).length + scan.records.length * 140 ≤ pageMax - 256 := by omega
  have hlist := options_short scan.records
  have hbody : (pageHead message ++ scan.records.flatMap optionText).length + pageTail.length <
      pageMax := by
    have htail := pageTail_short
    rw [List.length_append]
    omega
  cases authenticated with
  | false => rfl
  | true =>
    simp only [wifiPage, Bool.not_true, Bool.false_eq_true, if_false, if_true]
    rw [htop, appendOptions_fits hloop, appendAt_fits hbody, pageParts]

end GateAccess

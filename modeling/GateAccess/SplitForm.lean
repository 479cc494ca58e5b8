import GateAccess.WifiForm

namespace GateAccess

/-- What `login_post` does about a form: up to the point where it tries the login. -/
inductive LoginPost
  | invalid
  | refused
  | logins (user : Bytes 64) (pass : Bytes 128)
  deriving DecidableEq

def loginPost (req : HttpPost) : LoginPost :=
  match readBody req bodyMax with
  | none => .invalid
  | some body =>
    let user := provFormField body (ascii "u") 64
    if !user.2 then .refused
    else
      let pass := provFormField body (ascii "p") 128
      if !pass.2 then .refused else .logins user.1 pass.1

/-- A form whose body comes in these pieces, one for each `httpd_req_recv` it would take. -/
def HttpPost.inPieces (authenticated : Bool) (pieces : List (List UInt8)) : HttpPost :=
  ⟨authenticated, pieces.flatten, (pieces.headD []).length⟩

def HttpPost.atOnce (req : HttpPost) : HttpPost := { req with delivered := req.posted.length }

/-- A form is acted on as if it had come at once, or refused; and no body is read short. -/
structure SameForm (req : HttpPost) : Prop where
  whole : ∀ body, readBody req bodyMax = some body → body.length = req.posted.length
  login : loginPost req = loginPost req.atOnce ∨ ∀ user pass, loginPost req ≠ .logins user pass
  wifi : wifiPost req = wifiPost req.atOnce ∨ ∀ creds, wifiPost req ≠ .tries creds

theorem SameForm.of_atOnce {req : HttpPost} (h : req.atOnce = req) : SameForm req where
  whole body hbody := by
    have hall : req.delivered = req.posted.length := by rw [← h]; rfl
    rw [readBody_got hbody, HttpPost.got, hall, List.take_length]
  login := .inl (by rw [h])
  wifi := .inl (by rw [h])

theorem SameForm.of_refused {req : HttpPost} (h : readBody req bodyMax = none) : SameForm req where
  whole body hbody := by
    rw [h] at hbody
    cases hbody
  login := .inr fun user pass => by simp [loginPost, h]
  wifi := .inr fun creds => by
    unfold wifiPost
    rw [h]
    split <;> simp

/-- A form means the same however it is split just when it is too long to be read or comes whole in
the first piece. -/
theorem split_form_iff (authenticated : Bool) (pieces : List (List UInt8))
    (hpieces : ∀ piece ∈ pieces, piece ≠ []) :
    SameForm (.inPieces authenticated pieces) ↔
      bodyMax ≤ pieces.flatten.length ∨ pieces.length ≤ 1 := by
  constructor
  · intro h
    by_contra hsplit
    obtain ⟨hshort, hmany⟩ := not_or.mp hsplit
    rcases pieces with _ | ⟨first, _ | ⟨second, rest⟩⟩
    · simp at hmany
    · simp at hmany
    have hfirst := List.length_pos_iff.mpr (hpieces first (by simp))
    have hsecond := List.length_pos_iff.mpr (hpieces second (by simp))
    have hlen : (first :: second :: rest).flatten.length =
        first.length + (second.length + rest.flatten.length) := by
      rw [List.flatten_cons, List.flatten_cons, List.length_append, List.length_append]
    have hgot : (HttpPost.inPieces authenticated (first :: second :: rest)).got = first := by
      simp [HttpPost.got, HttpPost.inPieces]
    have hread : readBody (.inPieces authenticated (first :: second :: rest)) bodyMax = some first := by
      have hposted : (HttpPost.inPieces authenticated (first :: second :: rest)).posted =
          (first :: second :: rest).flatten := rfl
      rw [readBody, hgot, hposted, if_neg (by omega), if_neg (by omega)]
    have hwhole : first.length = (first :: second :: rest).flatten.length := h.whole first hread
    omega
  · rintro (hlong | hone)
    · refine .of_refused ?_
      rw [readBody, if_pos (.inr hlong)]
    · refine .of_atOnce ?_
      rcases pieces with _ | ⟨first, _ | ⟨second, rest⟩⟩
      · rfl
      · simp [HttpPost.atOnce, HttpPost.inPieces]
      · simp at hone

/-- A form of 600 bytes in three pieces is refused as a whole; a short one in two is not the same. -/
theorem split_form_long_and_short :
    SameForm (.inPieces true (List.replicate 3 (List.replicate 200 97))) ∧
      ¬SameForm (.inPieces false [ascii "u=admin&p=sen", ascii "ha"]) := by
  constructor
  · exact (split_form_iff true (List.replicate 3 (List.replicate 200 97)) (by decide +kernel)).mpr
      (.inl (by decide +kernel))
  · intro h
    exact absurd ((split_form_iff false [ascii "u=admin&p=sen", ascii "ha"] (by decide)).mp h)
      (by decide)

/-- A password that comes in two pieces is tried without its end, and so is a passphrase. -/
theorem first_piece_used :
    ¬SameForm (.inPieces false [ascii "u=admin&p=sen", ascii "ha"]) ∧
    (loginPost (.inPieces false [ascii "u=admin&p=sen", ascii "ha"]) =
        .logins (fill _ (ascii "admin")) (fill _ (ascii "sen")) ∧
      loginPost (HttpPost.inPieces false [ascii "u=admin&p=sen", ascii "ha"]).atOnce =
        .logins (fill _ (ascii "admin")) (fill _ (ascii "senha"))) ∧
    wifiPost (.inPieces true [ascii "ssid=casa&psk=12345678", ascii "90"]) =
        .tries ⟨fill _ (ascii "casa"), fill _ (ascii "12345678")⟩ ∧
      wifiPost (HttpPost.inPieces true [ascii "ssid=casa&psk=12345678", ascii "90"]).atOnce =
        .tries ⟨fill _ (ascii "casa"), fill _ (ascii "1234567890")⟩ := by
  refine ⟨fun h => ?_, by decide +kernel⟩
  have hread : readBody (.inPieces false [ascii "u=admin&p=sen", ascii "ha"]) bodyMax =
      some (ascii "u=admin&p=sen") := by decide +kernel
  exact absurd (h.whole _ hread) (by decide +kernel)

end GateAccess

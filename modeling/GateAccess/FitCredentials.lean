import GateAccess.CredCheck
import GateAccess.FormRoundTrip

namespace GateAccess

/-- Two different characters somewhere. -/
def Varied (s : List UInt8) : Prop := ∃ c ∈ s, ∃ d ∈ s, c ≠ d

def Listed (s : List UInt8) : Prop := s ∈ placeholders ∨ s ∈ weakList

def SecretChar (c : UInt8) : Prop :=
  (65 ≤ c ∧ c ≤ 90) ∨ (97 ≤ c ∧ c ≤ 122) ∨ (48 ≤ c ∧ c ≤ 57) ∨ c = 95 ∨ c = 45

/-- The two halves of a bot token that no list names. -/
structure BotToken (id secret : List UInt8) : Prop where
  idLength : 5 ≤ id.length ∧ id.length ≤ 16
  idDigits : ∀ c ∈ id, 48 ≤ c ∧ c ≤ 57
  secretLength : 30 ≤ secret.length ∧ secret.length ≤ 64
  secretChars : ∀ c ∈ secret, SecretChar c
  varied : Varied secret
  fresh : id ++ 58 :: secret ∉ placeholders

/-- Credentials that a production build runs with. -/
structure Fit (c : Credentials) : Prop where
  adminPassword : ∃ s, c.adminPassword = some s ∧ 12 ≤ s.length ∧ Varied s ∧ ¬Listed s
  apPassword : ∃ s, c.provApPassword = some s ∧ 8 ≤ s.length ∧ s.length ≤ 63 ∧ Varied s ∧ ¬Listed s
  deliveryKey : ∃ key : Bytes 32, c.syncDeliveryKey = some (hexText key.toList) ∧
    Varied (hexText key.toList)
  deviceSalt : ∃ s, c.gateDeviceSalt = some s ∧ 16 ≤ s.length ∧ Varied s ∧ ¬Listed s
  identity : ∃ gateId rest, c.syncGateId = some gateId ∧ gateId ≠ [] ∧ gateId ∉ placeholders ∧
    c.syncUrl = some (ascii "https://" ++ rest) ∧ ascii "https://" ++ rest ∉ placeholders

theorem inList_iff {s : List UInt8} {list : List (List UInt8)} : inList s list = true ↔ s ∈ list := by
  induction list with
  | nil => simp [inList]
  | cons word list ih => by_cases h : s = word <;> simp [inList, h, ih]

theorem sameAs_iff {first : UInt8} {s : List UInt8} :
    sameAs first s = true ↔ ∀ c ∈ s, c = first := by
  induction s with
  | nil => simp [sameAs]
  | cons c s ih => by_cases h : c = first <;> simp [sameAs, h, ih]

theorem allSameChar_iff {s : List UInt8} : allSameChar s = false ↔ Varied s := by
  cases s with
  | nil => simp [allSameChar, Varied]
  | cons first s =>
    rw [allSameChar, ← Bool.not_eq_true, sameAs_iff]
    constructor
    · intro h
      obtain ⟨c, hc⟩ := not_forall.mp h
      obtain ⟨hmem, hne⟩ := Classical.not_imp.mp hc
      exact ⟨c, List.mem_cons_of_mem _ hmem, first, List.mem_cons_self, hne⟩
    · rintro ⟨c, hc, d, hd, hne⟩ hall
      have first_only : ∀ x ∈ first :: s, x = first := by simpa using hall
      exact hne ((first_only c hc).trans (first_only d hd).symm)

theorem digitLoop_iff {s : List UInt8} : digitLoop s = true ↔ ∀ c ∈ s, 48 ≤ c ∧ c ≤ 57 := by
  induction s with
  | nil => simp [digitLoop]
  | cons c s ih =>
    by_cases h : c < 48 ∨ c > 57
    · simp only [digitLoop, h, if_true, Bool.false_eq_true, false_iff, List.forall_mem_cons]
      intro hall
      rcases h with h | h
      · exact absurd hall.1.1 (UInt8.not_le.mpr h)
      · exact absurd hall.1.2 (UInt8.not_le.mpr h)
    · have hin : 48 ≤ c ∧ c ≤ 57 := by simpa [not_or] using h
      simp [digitLoop, h, ih, hin]

theorem secretLoop_iff {s : List UInt8} : secretLoop s = true ↔ ∀ c ∈ s, SecretChar c := by
  induction s with
  | nil => simp [secretLoop]
  | cons c s ih =>
    rw [secretLoop, List.forall_mem_cons, ← ih, SecretChar]
    split_ifs with h <;> simp [h]

theorem strchr_iff {c : UInt8} {s before after : List UInt8} :
    strchr c s = some (before, after) ↔ s = before ++ c :: after ∧ c ∉ before := by
  induction s generalizing before with
  | nil => simp [strchr]
  | cons d s ih =>
    by_cases h : d = c
    · subst d
      simp only [strchr, if_true, Option.some.injEq, Prod.mk.injEq]
      constructor
      · rintro ⟨rfl, rfl⟩
        simp
      · rintro ⟨hs, hc⟩
        cases before with
        | nil => simpa using hs
        | cons b before => simp_all
    · simp only [strchr, h, if_false, Option.map_eq_some_iff, Prod.mk.injEq, Prod.exists]
      constructor
      · rintro ⟨b, a, hr, rfl, rfl⟩
        obtain ⟨rfl, hc⟩ := ih.mp hr
        simp [hc, Ne.symm h]
      · rintro ⟨hs, hc⟩
        cases before with
        | nil => exact absurd (List.cons.inj hs).1 h
        | cons b before =>
          obtain ⟨rfl, rfl⟩ := List.cons.inj hs
          exact ⟨before, after, ih.mpr ⟨rfl, fun hb => hc (List.mem_cons_of_mem _ hb)⟩, rfl, rfl⟩

theorem strchr_none {c : UInt8} {s : List UInt8} : (strchr c s).isSome = false ↔ c ∉ s := by
  induction s with
  | nil => simp [strchr]
  | cons d s ih =>
    by_cases h : d = c
    · simp [strchr, h]
    · simp [strchr, h, ih, Ne.symm h]

/-- The lists come first, and then the check's own rules. -/
theorem credCheck_ok {s : CText} {own : List UInt8 → CredResult} :
    credCheck s own = .ok ↔ ∃ text, s = some text ∧ text ≠ [] ∧ ¬Listed text ∧ own text = .ok := by
  cases s with
  | none => simp [credCheck, commonChecks]
  | some text =>
    have hcommon : commonChecks (some text) = .ok ↔ text ≠ [] ∧ ¬Listed text := by
      by_cases hnil : text = []
      · simp [commonChecks, hnil]
      · by_cases hp : text ∈ placeholders
        · simp [commonChecks, hnil, Listed, inList_iff.mpr hp, hp]
        · by_cases hw : text ∈ weakList
          · simp [commonChecks, hnil, Listed, inList_iff, hp, hw]
          · simp [commonChecks, hnil, Listed, inList_iff, hp, hw]
    simp only [credCheck]
    split_ifs with h
    · refine ⟨fun heq => absurd heq h, ?_⟩
      rintro ⟨_, ⟨⟩, hne, hlisted, -⟩
      exact absurd (hcommon.mpr ⟨hne, hlisted⟩) h
    · obtain ⟨hne, hlisted⟩ := hcommon.mp (not_not.mp h)
      constructor
      · exact fun hok => ⟨text, rfl, hne, hlisted, hok⟩
      · rintro ⟨_, ⟨⟩, -, -, hok⟩
        exact hok

theorem SecretChar.ne_colon {c : UInt8} (h : SecretChar c) : c ≠ 58 := by
  rintro rfl
  simp [SecretChar] at h

/-- No common password holds a colon. -/
theorem token_not_weak (id secret : List UInt8) : id ++ 58 :: secret ∉ weakList := by
  have plain : ∀ word ∈ weakList, (58 : UInt8) ∉ word := by decide +kernel
  exact fun h => plain _ h (by simp)

theorem credCheckBotToken_ok {token : CText} :
    credCheckBotToken token = .ok ↔
      ∃ id secret, token = some (id ++ 58 :: secret) ∧ BotToken id secret := by
  rw [credCheckBotToken, credCheck_ok]
  constructor
  · rintro ⟨text, rfl, -, hlisted, hown⟩
    cases hcolon : strchr 58 text with
    | none => simp [hcolon] at hown
    | some halves =>
      obtain ⟨id, secret⟩ := halves
      obtain ⟨rfl, -⟩ := strchr_iff.mp hcolon
      simp only [hcolon] at hown
      split_ifs at hown with h₁ h₂ h₃ h₄ h₅ h₆ h₇
      simp only [credTgIdMinDigits, credTgIdMaxDigits, credTgSecretMinLen, credTgSecretMaxLen]
        at h₂ h₄ h₅
      exact ⟨id, secret, rfl, by omega, digitLoop_iff.mp (by simpa using h₃), by omega,
        secretLoop_iff.mp (by simpa using h₆), allSameChar_iff.mp (by simpa using h₇),
        fun h => hlisted (.inl h)⟩
  · rintro ⟨id, secret, rfl, h⟩
    have hid : 58 ∉ id := fun hmem => absurd (h.idDigits 58 hmem).2 (by decide)
    have hsecret : 58 ∉ secret := fun hmem => (h.secretChars 58 hmem).ne_colon rfl
    refine ⟨_, rfl, by simp, not_or.mpr ⟨h.fresh, token_not_weak id secret⟩, ?_⟩
    have hne : id ≠ [] := fun hnil => by
      have := h.idLength.1
      simp [hnil] at this
    have h₂ : ¬(id.length < credTgIdMinDigits ∨ id.length > credTgIdMaxDigits) := by
      have := h.idLength
      simp only [credTgIdMinDigits, credTgIdMaxDigits]
      omega
    have h₄ : ¬secret.length < credTgSecretMinLen := by
      have := h.secretLength.1
      simp only [credTgSecretMinLen]
      omega
    have h₅ : ¬secret.length > credTgSecretMaxLen := by
      have := h.secretLength.2
      simp only [credTgSecretMaxLen]
      omega
    simp [strchr_iff.mpr ⟨rfl, hid⟩, hne, strchr_none.mpr hsecret, h₂, digitLoop_iff.mpr h.idDigits,
      h₄, h₅, secretLoop_iff.mpr h.secretChars, allSameChar_iff.mpr h.varied]

theorem hexLoop_nibbles {s : List UInt8} :
    hexLoop s = true ↔ ∀ c ∈ s, (hexNibble c).isSome = true := by
  induction s with
  | nil => simp [hexLoop]
  | cons c s ih =>
    rw [hexLoop, List.forall_mem_cons, ← ih, hexNibble]
    split_ifs <;> simp_all

theorem hexBytes_length {s : List UInt8} {n : Nat} (hlen : s.length = n * 2)
    (h : hexLoop s = true) : (hexBytes s).length = n := by
  induction n generalizing s with
  | zero => simp [List.length_eq_zero_iff.mp (by omega), hexBytes]
  | succ n ih =>
    rcases s with _ | ⟨hi, _ | ⟨lo, rest⟩⟩
    · simp at hlen
    · simp only [List.length_singleton] at hlen
      omega
    · have digits := hexLoop_nibbles.mp h
      obtain ⟨a, ha⟩ := Option.isSome_iff_exists.mp (digits hi (by simp))
      obtain ⟨b, hb⟩ := Option.isSome_iff_exists.mp (digits lo (by simp))
      have hrest : hexLoop rest = true := hexLoop_nibbles.mpr fun c hc => digits c (by simp [hc])
      have hrestLen : rest.length = n * 2 := by
        simp only [List.length_cons] at hlen
        omega
      simp [hexBytes, ha, hb, ih hrestLen hrest]

theorem hexLoop_hexText (bs : List UInt8) : hexLoop (hexText bs) = true := by
  apply hexLoop_nibbles.mpr
  induction bs with
  | nil => simp [hexText]
  | cons b bs ih =>
    simp only [hexText, List.forall_mem_cons, hexNibble_hexDigit (high_nibble_lt b),
      hexNibble_hexDigit (low_nibble_lt b), Option.isSome_some, true_and]
    exact ih

/-- Lowercase digits and nothing else spell a key. -/
theorem hexLoop_key {s : List UInt8} :
    s.length = 64 ∧ hexLoop s = true ↔ ∃ key : Bytes 32, s = hexText key.toList := by
  constructor
  · rintro ⟨hlen, h⟩
    have hbytes : (hexBytes s).length = 32 := hexBytes_length (by omega) h
    exact ⟨⟨hexBytes s, hbytes⟩, (hexText_hexBytes (by omega)).symm⟩
  · rintro ⟨key, rfl⟩
    exact ⟨by simp, hexLoop_hexText _⟩

theorem credCheckDeliveryKey_ok {hex : CText} :
    credCheckDeliveryKey hex = .ok ↔
      ∃ key : Bytes 32, hex = some (hexText key.toList) ∧ Varied (hexText key.toList) := by
  rw [credCheckDeliveryKey, credCheck_ok]
  constructor
  · rintro ⟨text, rfl, -, -, hown⟩
    split_ifs at hown with h₁ h₂ h₃
    obtain ⟨key, rfl⟩ := hexLoop_key.mp ⟨not_not.mp h₁, by simpa using h₂⟩
    exact ⟨key, rfl, allSameChar_iff.mp (by simpa using h₃)⟩
  · rintro ⟨key, rfl, hvaried⟩
    have hlen : (hexText key.toList).length = 64 := by simp
    have listed : ∀ word ∈ placeholders ++ weakList, word.length = 64 → ¬Varied word := by
      intro word hword hlength
      have same : ∀ word ∈ placeholders ++ weakList, word.length = 64 → allSameChar word = true := by
        decide +kernel
      rw [← allSameChar_iff, same word hword hlength]
      decide
    refine ⟨_, rfl, fun hnil => by simp [hnil] at hlen, fun h => ?_, ?_⟩
    · exact listed _ (List.mem_append.mpr h) hlen hvaried
    · simp [credKeyHexLen, hexLoop_hexText, allSameChar_iff.mpr hvaried]

theorem credCheck_minLen {s : CText} {min : Nat} (hmin : 0 < min) :
    credCheck s (fun s =>
      if s.length < min then .tooShort else if allSameChar s then .notRandom else .ok) = .ok ↔
      ∃ text, s = some text ∧ min ≤ text.length ∧ Varied text ∧ ¬Listed text := by
  rw [credCheck_ok]
  constructor
  · rintro ⟨text, rfl, -, hlisted, hown⟩
    split_ifs at hown with h₁ h₂
    exact ⟨text, rfl, by omega, allSameChar_iff.mp (by simpa using h₂), hlisted⟩
  · rintro ⟨text, rfl, hlen, hvaried, hlisted⟩
    have hne : text ≠ [] := List.ne_nil_of_length_pos (by omega)
    refine ⟨text, rfl, hne, hlisted, ?_⟩
    rw [if_neg (by omega), allSameChar_iff.mpr hvaried]
    rfl

theorem credCheckAdminPassword_ok {password : CText} :
    credCheckAdminPassword password = .ok ↔
      ∃ s, password = some s ∧ 12 ≤ s.length ∧ Varied s ∧ ¬Listed s :=
  credCheck_minLen (by decide)

theorem credCheckDeviceSalt_ok {salt : CText} :
    credCheckDeviceSalt salt = .ok ↔
      ∃ s, salt = some s ∧ 16 ≤ s.length ∧ Varied s ∧ ¬Listed s :=
  credCheck_minLen (by decide)

theorem credCheckApPassword_ok {password : CText} :
    credCheckApPassword password = .ok ↔
      ∃ s, password = some s ∧ 8 ≤ s.length ∧ s.length ≤ 63 ∧ Varied s ∧ ¬Listed s := by
  rw [credCheckApPassword, credCheck_ok]
  constructor
  · rintro ⟨s, rfl, -, hlisted, hown⟩
    split_ifs at hown with h₁ h₂ h₃
    simp only [credApMinLen, credApMaxLen] at h₁ h₂
    exact ⟨s, rfl, by omega, by omega, allSameChar_iff.mp (by simpa using h₃), hlisted⟩
  · rintro ⟨s, rfl, hmin, hmax, hvaried, hlisted⟩
    have hne : s ≠ [] := List.ne_nil_of_length_pos (by omega)
    refine ⟨s, rfl, hne, hlisted, ?_⟩
    have hlong : ¬s.length > credApMaxLen := by
      simp only [credApMaxLen]
      omega
    have hshort : ¬s.length < credApMinLen := Nat.not_lt.mpr hmin
    rw [if_neg hshort, if_neg hlong, allSameChar_iff.mpr hvaried]
    rfl

theorem https_iff {url : List UInt8} :
    strncmpEq 8 url (ascii "https://") = true ↔ ∃ rest, url = ascii "https://" ++ rest := by
  have hscheme : (cstr (ascii "https://")).take 8 = ascii "https://" := by decide +kernel
  rw [strncmpEq_iff, hscheme]
  constructor
  · intro h
    have hprefix : ascii "https://" <+: url :=
      (h ▸ List.take_prefix 8 (cstr url)).trans (List.takeWhile_prefix _)
    obtain ⟨rest, hrest⟩ := hprefix
    exact ⟨rest, hrest.symm⟩
  · rintro ⟨rest, rfl⟩
    have hplain : ∀ c ∈ ascii "https://", decide (c ≠ 0) = true := by decide +kernel
    rw [cstr, List.takeWhile_append_of_pos hplain]
    exact List.take_left' (by decide +kernel)

theorem credCheckIdentity_ok {gateId url : CText} :
    credCheckIdentity gateId url = .ok ↔
      ∃ id rest, gateId = some id ∧ id ≠ [] ∧ id ∉ placeholders ∧
        url = some (ascii "https://" ++ rest) ∧ ascii "https://" ++ rest ∉ placeholders := by
  cases gateId with
  | none => simp [credCheckIdentity]
  | some id =>
    cases url with
    | none => simp [credCheckIdentity]
    | some url =>
      simp only [credCheckIdentity]
      constructor
      · intro h
        split_ifs at h with h₁ h₂ h₃
        simp only [Bool.or_eq_true, inList_iff, not_or, List.length_eq_zero_iff] at h₁ h₂
        obtain ⟨rest, rfl⟩ := https_iff.mp (by simpa using h₃)
        exact ⟨id, rest, rfl, h₁.1, h₂.1, rfl, h₂.2⟩
      · rintro ⟨_, rest, ⟨⟩, hid, hfresh, ⟨⟩, hurl⟩
        have hne : (ascii "https://" ++ rest).length ≠ 0 := by
          rw [List.length_append, show (ascii "https://").length = 8 by decide +kernel]
          omega
        have hlists : ¬(inList id placeholders || inList (ascii "https://" ++ rest) placeholders) := by
          simp [inList_iff, hfresh, hurl]
        rw [if_neg (not_or.mpr ⟨by simpa using hid, hne⟩), if_neg hlists, https_iff.mpr ⟨rest, rfl⟩]
        rfl

theorem clientHexToBytes_iff {n : Nat} {hex : List UInt8} (hlen : hex.length = n * 2) :
    (clientHexToBytes n hex).isSome = true ↔ ∀ c ∈ hex, (hexVal c).isSome = true := by
  induction n generalizing hex with
  | zero => simp [List.length_eq_zero_iff.mp (by omega : hex.length = 0), clientHexToBytes]
  | succ n ih =>
    match hex with
    | [] => simp at hlen
    | [_] =>
      simp only [List.length_singleton] at hlen
      omega
    | hi :: lo :: rest =>
      have hrest : rest.length = n * 2 := by
        simp only [List.length_cons] at hlen
        omega
      simp only [List.forall_mem_cons, ← ih hrest, clientHexToBytes, hexPair, List.headD_cons,
        List.tail_cons, List.drop_succ_cons, List.drop_zero]
      cases hexVal hi <;> cases hexVal lo <;> cases clientHexToBytes n rest <;> simp

theorem clientHexToBytes_hexText (bs : List UInt8) :
    clientHexToBytes bs.length (hexText bs) = some bs := by
  induction bs with
  | nil => rfl
  | cons b bs ih =>
    have hpair : hexPair (hexDigit (b >>> 4)) (hexDigit (b &&& 15)) = some b :=
      hexPair_spells (.inl rfl) (.inl rfl)
    simp only [List.length_cons, clientHexToBytes, hexText, List.headD_cons, List.tail_cons,
      List.drop_succ_cons, List.drop_zero, hpair, ih]

theorem clientKey_hexText (key : Bytes 32) :
    clientKey (some (hexText key.toList)) = some key.toList := by
  have h := clientHexToBytes_hexText key.toList
  rw [key.toList_length] at h
  rw [clientKey, if_neg (by simp), h]

theorem fit_iff {c : Credentials} :
    Fit c ↔ credCheckAdminPassword c.adminPassword = .ok ∧
      credCheckApPassword c.provApPassword = .ok ∧ credCheckDeliveryKey c.syncDeliveryKey = .ok ∧
      credCheckDeviceSalt c.gateDeviceSalt = .ok ∧
      credCheckIdentity c.syncGateId c.syncUrl = .ok := by
  rw [credCheckAdminPassword_ok, credCheckApPassword_ok, credCheckDeliveryKey_ok,
    credCheckDeviceSalt_ok, credCheckIdentity_ok]
  exact ⟨fun h => ⟨h.1, h.2, h.3, h.4, h.5⟩, fun ⟨h₁, h₂, h₃, h₄, h₅⟩ => ⟨h₁, h₂, h₃, h₄, h₅⟩⟩

theorem report_fst {what : String} {r : CredResult} : (report what r).1 = true ↔ r = .ok := by
  by_cases h : r = .ok <;> simp [report, h]

theorem guardReports_fit {c : Credentials} :
    (guardReports c).all Prod.fst = true ↔ Fit c := by
  simp [guardReports, fit_iff, report_fst]

theorem guard_passes {c : Credentials} {devConsole : Bool} {rounds : Nat} :
    (gateGuardCheck devConsole c rounds).1 = some true ↔ Fit c := by
  rw [← guardReports_fit, gateGuardCheck]
  split_ifs with hall
  all_goals simpa using hall

theorem guard_fit {c : Credentials} (h : Fit c) (devConsole : Bool) (rounds : Nat) :
    gateGuardCheck devConsole c rounds = (some true, [fitLine]) := by
  obtain ⟨h₁, h₂, h₃, h₄, h₅⟩ := fit_iff.mp h
  simp [gateGuardCheck, guardReports, h₁, h₂, h₃, h₄, h₅, report]

theorem guardReports_alarm {c : Credentials} {line : LogLine}
    (h : line ∈ (guardReports c).flatMap Prod.snd) : line.level = .error := by
  have hreport : ∀ {what r}, line ∈ (report what r).2 → line.level = .error := by
    intro what r hline
    by_cases hr : r = .ok
    · simp [report, hr] at hline
    · simp only [report, if_neg hr, List.mem_singleton] at hline
      rw [hline]
  obtain ⟨r, hr, hline⟩ := List.mem_flatMap.mp h
  simp only [guardReports, List.mem_cons, List.not_mem_nil, or_false] at hr
  rcases hr with rfl | rfl | rfl | rfl | rfl <;> exact hreport hline

/-- Unfit credentials are met with alarms and nothing else. -/
theorem guard_alarms {c : Credentials} (h : ¬Fit c) (devConsole : Bool) (rounds : Nat) :
    (gateGuardCheck devConsole c rounds).2 ≠ [] ∧
      ∀ line ∈ (gateGuardCheck devConsole c rounds).2, line.level ≠ .info := by
  have hbanners : ∀ line ∈ devBanner ++ haltBanner, line.level ≠ .info := by decide
  rw [← guardReports_fit] at h
  rw [gateGuardCheck, if_neg h]
  split_ifs
  · refine ⟨by simp [devBanner], fun line hline => ?_⟩
    rcases List.mem_append.mp hline with hline | hline
    · simp [guardReports_alarm hline]
    · exact hbanners line (List.mem_append_left _ hline)
  · refine ⟨by simp [haltBanner], fun line hline => ?_⟩
    rcases List.mem_append.mp hline with hline | hline
    · rcases List.mem_append.mp hline with hline | hline
      · simp [guardReports_alarm hline]
      · exact hbanners line (List.mem_append_right _ hline)
    · rw [List.eq_of_mem_replicate hline]
      decide

/-- A production build gets past the guard with fit credentials and stays halted with any others; a
development build goes on with both. Either logs the one good line when they are fit, and nothing but
errors and warnings when they are not. And fit credentials serve what takes them up later: both
channels get the key that is written down, and the access point its passphrase. -/
theorem guard_exact (c : Credentials) :
    (∀ rounds, (gateGuardCheck false c rounds).1 = none ↔ ¬Fit c) ∧
      (∀ rounds, (gateGuardCheck true c rounds).1 ≠ none) ∧
      (∀ devConsole rounds, (gateGuardCheck devConsole c rounds).1 = some true ↔ Fit c) ∧
      (∀ devConsole rounds, (gateGuardCheck devConsole c rounds).2 = [fitLine] ↔ Fit c) ∧
      (¬Fit c → ∀ devConsole rounds, (gateGuardCheck devConsole c rounds).2 ≠ [] ∧
        ∀ line ∈ (gateGuardCheck devConsole c rounds).2, line.level ≠ .info) ∧
      (Fit c → apPassphraseTaken c.provApPassword = true ∧ ∃ key : Bytes 32,
        c.syncDeliveryKey = some (hexText key.toList) ∧
        clientKey c.syncDeliveryKey = some key.toList) := by
  refine ⟨fun rounds => ?_, fun rounds => ?_, fun _ _ => guard_passes, fun devConsole rounds => ?_,
    guard_alarms, fun h => ⟨?_, ?_⟩⟩
  · rw [← @guard_passes c false rounds]
    simp only [gateGuardCheck, Bool.false_eq_true, if_false]
    split_ifs <;> simp
  · simp only [gateGuardCheck, if_true]
    split_ifs <;> simp
  · refine ⟨fun hlog => ?_, fun h => by rw [guard_fit h]⟩
    by_contra h
    exact (guard_alarms h devConsole rounds).2 fitLine (by simp [hlog]) rfl
  · obtain ⟨s, hs, hmin, hmax, -⟩ := h.apPassword
    simp only [apPassphraseTaken, hs, lenOf, Option.isNone_some, Bool.false_or, Bool.not_eq_true',
      Bool.or_eq_false_iff, decide_eq_false_iff_not]
    omega
  · obtain ⟨key, hkey, -⟩ := h.deliveryKey
    exact ⟨key, hkey, hkey ▸ clientKey_hexText key⟩

theorem clientKey_isSome {deliveryKey : CText} :
    (clientKey deliveryKey).isSome = true ↔
      ∃ key, deliveryKey = some key ∧ key.length = 64 ∧ ∀ d ∈ key, (hexVal d).isSome = true := by
  cases deliveryKey with
  | none => simp [clientKey]
  | some key =>
    simp only [clientKey, Option.some.injEq, exists_eq_left']
    split_ifs with h
    · simp [h]
    · rw [clientHexToBytes_iff (by omega)]
      exact ⟨fun hdigits => ⟨not_not.mp h, hdigits⟩, fun hkey => hkey.2⟩

theorem tgClientSetUp_iff {c : Credentials} :
    tgClientSetUp c = true ↔
      (∃ id secret, c.tgBotToken = some (id ++ 58 :: secret) ∧ BotToken id secret) ∧
        ∃ key, c.syncDeliveryKey = some key ∧ key.length = 64 ∧
          ∀ d ∈ key, (hexVal d).isSome = true := by
  rw [← credCheckBotToken_ok, ← clientKey_isSome, tgClientSetUp]
  split_ifs with h
  · simp [h]
  · simp [not_not.mp h]

/-- Nothing that ends a path or starts another part of a URL, and no terminator. -/
theorem BotToken.plain {id secret : List UInt8} (h : BotToken id secret) :
    ∀ d ∈ id ++ 58 :: secret, d ∉ 0 :: ascii "/?#%&+ " := by
  have chars : ∀ d ∈ id ++ 58 :: secret, d = 58 ∨ SecretChar d := by
    intro d hd
    rcases List.mem_append.mp hd with hd | hd
    · exact .inr (.inr (.inr (.inl (h.idDigits d hd))))
    rcases List.mem_cons.mp hd with rfl | hd
    · exact .inl rfl
    · exact .inr (h.secretChars d hd)
  have marks : ∀ d ∈ 0 :: ascii "/?#%&+ ", ¬(d = 58 ∨ SecretChar d) := by
    unfold SecretChar
    decide +kernel
  exact fun d hd hmark => marks d hmark (chars d hd)

theorem tgUrl_length {token : List UInt8} {offset : Nat} (htoken : token.length ≤ 81)
    (hoffset : offset < 2 ^ 64) : (tgUrl token offset).length < tgUrlSize := by
  have hcstr : (cstr token).length ≤ token.length := (List.takeWhile_prefix _).length_le
  have hdigits : (decimal offset).length ≤ 20 :=
    (decimal_length_le (by decide)).mpr (hoffset.trans (by decide))
  have h₁ : (ascii "https://api.telegram.org/bot").length = 28 := by decide +kernel
  have h₂ : (ascii "/getUpdates").length = 11 := by decide +kernel
  have h₃ : (ascii "?offset=").length = 8 := by decide +kernel
  have h₄ : (ascii "&timeout=50&limit=5").length = 19 := by decide +kernel
  simp only [tgUrl, List.length_append, h₁, h₂, h₃, h₄, tgUrlSize]
  omega

/-- The courier is on just when its token has a bot token's shape, the key is hexadecimal, in either
case, and the server has not refused the token; and then every request it makes fits its buffer,
whatever the offset, and the token stays within its own part of the path. -/
theorem courier_enabled_iff (c : Credentials) (poll : TgPollCtx) :
    (tgClientEnabled c poll = true ↔
      ((∃ id secret, c.tgBotToken = some (id ++ 58 :: secret) ∧ BotToken id secret) ∧
        ∃ key, c.syncDeliveryKey = some key ∧ key.length = 64 ∧
          ∀ d ∈ key, (hexVal d).isSome = true) ∧ poll.fatal = false) ∧
      ∀ token, c.tgBotToken = some token → tgClientEnabled c poll = true → ∀ offset < 2 ^ 64,
        (tgUrl token offset).length < tgUrlSize ∧
        (∃ query, tgUrl token offset =
          ascii "https://api.telegram.org/bot" ++ token ++ ascii "/getUpdates?" ++ query) ∧
        ∀ d ∈ token, d ∉ ascii "/?#%&+ " := by
  have henabled : tgClientEnabled c poll = true ↔ tgClientSetUp c = true ∧ poll.fatal = false := by
    simp [tgClientEnabled, tgPollIsFatal]
  refine ⟨by rw [henabled, tgClientSetUp_iff], fun token htoken hon offset hoffset => ?_⟩
  obtain ⟨⟨id, secret, hid, h⟩, -⟩ := tgClientSetUp_iff.mp (henabled.mp hon).1
  obtain rfl := Option.some.inj (htoken.symm.trans hid)
  have hlen : (id ++ 58 :: secret).length ≤ 81 := by
    have hidLen := h.idLength
    have hsecretLen := h.secretLength
    simp only [List.length_append, List.length_cons]
    omega
  have htext : cstr (id ++ 58 :: secret) = id ++ 58 :: secret :=
    cstr_eq_self fun hzero => h.plain 0 hzero List.mem_cons_self
  refine ⟨tgUrl_length hlen hoffset, ?_, fun d hd hmark => ?_⟩
  · refine ⟨ascii "offset=" ++ decimal offset ++ ascii "&timeout=50&limit=5", ?_⟩
    have hpath : ascii "/getUpdates?" = ascii "/getUpdates" ++ [63] := by decide +kernel
    have hoff : ascii "?offset=" = 63 :: ascii "offset=" := by decide +kernel
    rw [tgUrl, htext, hpath, hoff]
    simp
  · exact h.plain d hd (List.mem_cons_of_mem _ hmark)

end GateAccess

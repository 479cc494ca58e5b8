import GateAccess.HexText
import GateAccess.WifiForm
import GateAccess.ProvLogic

namespace GateAccess

/-- Both strings are read to the end of the longer one, whatever differs before it. -/
def provCtStrEqual (a b : List UInt8) : Bool :=
  let a := cstr a
  let b := cstr b
  let diff := (List.range (max a.length b.length)).foldl
    (fun diff i => diff ||| (a.getD i 0 ^^^ b.getD i 0).toUInt32)
    (UInt32.ofNat a.length ^^^ UInt32.ofNat b.length)
  diff = 0

/-- The login that `wifi_prov_init` is configured with, and how the web server matches the template of
a route with a path. -/
structure PortalCfg where
  adminUser : List UInt8
  adminPassword : List UInt8
  uriMatch : List UInt8 → List UInt8 → Bool

def provSessionLogin (cfg : PortalCfg) (ctx : ProvCtx) (user password : List UInt8) : ProvCtx × Bool :=
  let userOk := provCtStrEqual user cfg.adminUser
  let passOk := provCtStrEqual password cfg.adminPassword
  provLogin ctx (userOk && passOk)

def provSecondsLeft (ctx : ProvCtx) (nowMs : UInt32) : UInt32 :=
  if ctx.state ≠ .opened then 0
  else
    let elapsed := nowMs - ctx.openedMs
    if elapsed ≥ provSessionMs then 0 else (provSessionMs - elapsed) / 1000

def sidHexLen : Nat := 32

abbrev Sid := Bytes (sidHexLen + 1)

/-- `new_sid` on the sixteen bytes it draws. -/
def newSid (drawn : Bytes 16) : Sid := fill _ (hexText drawn.toList)

/-- The cookie header is none when the request has no such header. -/
def requestIsAuthenticated (ctx : ProvCtx) (sid : Sid) (cookie : Option (List UInt8)) : Bool :=
  if !provIsAuthenticated ctx || sid.toList.headD 0 = 0 then false
  else
    match cookie with
    | none => false
    | some value =>
      -- the header is not read when its buffer is too small for it
      if value.length ≥ 128 then false
      else
        match strstr (ascii "sid=") (cstr value) with
        | none => false
        | some at_ =>
          let got := (((cstr value).drop (at_ + 4)).takeWhile (· ≠ 59)).take sidHexLen
          provCtStrEqual got sid.toList

/-- A cookie header in which the first `sid=` is followed by this sid. -/
def Presents (cookie : Option (List UInt8)) (sid : List UInt8) : Prop :=
  ∃ value before rest, cookie = some value ∧ value.length < 128 ∧
    cstr value = before ++ (ascii "sid=" ++ (sid ++ rest)) ∧
    ∀ k < before.length, ¬ascii "sid=" <+: (cstr value).drop k

theorem foldl_or_eq_zero {f : Nat → UInt32} {is : List Nat} {diff : UInt32} :
    is.foldl (fun diff i => diff ||| f i) diff = 0 ↔ diff = 0 ∧ ∀ i ∈ is, f i = 0 := by
  induction is generalizing diff with
  | nil => simp
  | cons i is ih => simp [ih, UInt32.or_eq_zero_iff, and_assoc]

theorem xor_toUInt32_eq_zero {c d : UInt8} : (c ^^^ d).toUInt32 = 0 ↔ c = d := by
  rw [← UInt32.toNat_inj, UInt8.toNat_toUInt32, ← UInt8.xor_eq_zero_iff, ← UInt8.toNat_inj]
  rfl

/-- The comparison is a comparison. -/
theorem provCtStrEqual_iff {a b : List UInt8} : provCtStrEqual a b = true ↔ cstr a = cstr b := by
  have hzero : ∀ s : List UInt8, ∀ i < (cstr s).length, (cstr s).getD i 0 ≠ 0 := by
    intro s i hi heq
    rw [List.getD_eq_getElem _ _ hi] at heq
    exact zero_not_mem_cstr s (heq ▸ List.getElem_mem hi)
  simp only [provCtStrEqual, decide_eq_true_eq, foldl_or_eq_zero, List.mem_range,
    xor_toUInt32_eq_zero]
  constructor
  · rintro ⟨-, hsame⟩
    have hlen : (cstr a).length = (cstr b).length := by
      by_contra hne
      rcases Nat.lt_or_gt_of_ne hne with hlt | hlt
      · have heq := hsame (cstr a).length (by omega)
        rw [List.getD_eq_default _ _ le_rfl] at heq
        exact hzero b _ hlt heq.symm
      · have heq := hsame (cstr b).length (by omega)
        rw [List.getD_eq_default (cstr b) _ le_rfl] at heq
        exact hzero a _ hlt heq
    refine List.ext_getElem hlen fun i ha hb => ?_
    have heq := hsame i (by omega)
    rwa [List.getD_eq_getElem _ _ ha, List.getD_eq_getElem _ _ hb] at heq
  · intro heq
    simp [heq]

theorem provSessionLogin_eq (cfg : PortalCfg) (ctx : ProvCtx) (user password : List UInt8) :
    provSessionLogin cfg ctx user password =
      provLogin ctx (decide (cstr user = cstr cfg.adminUser ∧
        cstr password = cstr cfg.adminPassword)) := by
  have hflag : (provCtStrEqual user cfg.adminUser && provCtStrEqual password cfg.adminPassword) =
      decide (cstr user = cstr cfg.adminUser ∧ cstr password = cstr cfg.adminPassword) := by
    rw [Bool.eq_iff_iff, Bool.and_eq_true, decide_eq_true_eq, provCtStrEqual_iff, provCtStrEqual_iff]
  rw [provSessionLogin, hflag]

theorem hexText_clean {bs : List UInt8} {c : UInt8} (h : c ∈ hexText bs) : c ≠ 0 ∧ c ≠ 59 := by
  have hdigit : ∀ n : UInt8, n.toNat < 16 → hexDigit n ≠ 0 ∧ hexDigit n ≠ 59 := by
    intro n hn
    have all : ∀ k < 16, hexDigit (UInt8.ofNat k) ≠ 0 ∧ hexDigit (UInt8.ofNat k) ≠ 59 := by decide
    have := all n.toNat hn
    rwa [UInt8.ofNat_toNat] at this
  induction bs with
  | nil => cases h
  | cons b bs ih =>
    rcases List.mem_cons.mp h with rfl | h
    · exact hdigit _ (high_nibble_lt b)
    rcases List.mem_cons.mp h with rfl | h
    · exact hdigit _ (low_nibble_lt b)
    · exact ih h

/-- What a fresh sid reads as. -/
theorem cstr_newSid (drawn : Bytes 16) : cstr (newSid drawn).toList = hexText drawn.toList := by
  have hlen : (hexText drawn.toList).length ≤ sidHexLen + 1 := by simp [sidHexLen]
  rw [newSid, cstr_fill hlen]
  exact cstr_eq_self fun h => (hexText_clean h).1 rfl

/-- The search stops at the tag a presented sid stands behind. -/
theorem presented_iff {value sid : List UInt8} :
    (∃ before rest, value = before ++ (ascii "sid=" ++ (sid ++ rest)) ∧
      ∀ k < before.length, ¬ascii "sid=" <+: value.drop k) ↔
    ∃ k rest, strstr (ascii "sid=") value = some k ∧ value.drop (k + 4) = sid ++ rest := by
  constructor
  · rintro ⟨before, rest, hvalue, hfirst⟩
    refine ⟨before.length, rest, strstr_eq (by rw [hvalue]; simp) ?_ hfirst, ?_⟩
    · rw [hvalue, List.drop_left]
      exact List.prefix_append _ _
    · rw [hvalue, ← List.drop_drop, List.drop_left]
      rfl
  · rintro ⟨k, rest, hfound, hrest⟩
    obtain ⟨after, hafter⟩ := strstr_some hfound
    rw [← List.drop_drop, ← hafter] at hrest
    obtain rfl : after = sid ++ rest := hrest
    refine ⟨value.take k, rest, ?_, fun j hj => ?_⟩
    · rw [hafter, List.take_append_drop]
    · rw [List.length_take] at hj
      exact strstr_least hfound j (by omega)

/-- What is read behind the tag is a sid exactly when the header goes on with it. -/
theorem read_sid_iff {after sid : List UInt8} (hlen : sid.length = sidHexLen)
    (hclean : ∀ c ∈ sid, c ≠ 59) :
    (after.takeWhile (· ≠ 59)).take sidHexLen = sid ↔ ∃ rest, after = sid ++ rest := by
  constructor
  · intro heq
    have hpre : sid <+: after := by
      rw [← heq]
      exact (List.take_prefix sidHexLen _).trans (List.takeWhile_prefix _)
    obtain ⟨rest, hrest⟩ := hpre
    exact ⟨rest, hrest.symm⟩
  · rintro ⟨rest, rfl⟩
    rw [List.takeWhile_append_of_pos fun c hc => by simpa using hclean c hc, ← hlen, List.take_left]

/-- A request is authenticated exactly when the session is and the request presents the sid. -/
theorem requestIsAuthenticated_iff (ctx : ProvCtx) (cookie : Option (List UInt8)) (drawn : Bytes 16) :
    requestIsAuthenticated ctx (newSid drawn) cookie = true ↔
      provIsAuthenticated ctx = true ∧ Presents cookie (hexText drawn.toList) := by
  have hhead : (newSid drawn).toList.headD 0 ≠ 0 := by
    rw [cstr_head, cstr_newSid, ← List.length_pos_iff]
    simp
  have hlen : (hexText drawn.toList).length = sidHexLen := by simp [sidHexLen]
  unfold requestIsAuthenticated
  by_cases hauth : provIsAuthenticated ctx = true
  · simp only [hauth, Bool.not_true, hhead, decide_false, Bool.or_self, Bool.false_eq_true, if_false,
      true_and]
    cases cookie with
    | none => simp [Presents]
    | some value =>
      simp only [Presents, Option.some.injEq, exists_and_left, exists_eq_left']
      by_cases hlong : value.length ≥ 128
      · have hshort : ¬value.length < 128 := by omega
        simp [hlong]
      · have hshort : value.length < 128 := by omega
        rw [if_neg hlong, presented_iff]
        simp only [hshort, true_and]
        cases hfound : strstr (ascii "sid=") (cstr value) with
        | none => simp
        | some k =>
          have hplain : 0 ∉ (((cstr value).drop (k + 4)).takeWhile (· ≠ 59)).take sidHexLen :=
            fun h => zero_not_mem_cstr value
              (List.mem_of_mem_drop ((List.takeWhile_sublist _).subset (List.mem_of_mem_take h)))
          simp only [Option.some.injEq]
          rw [provCtStrEqual_iff, cstr_newSid, cstr_eq_self hplain,
            read_sid_iff hlen fun c hc => (hexText_clean hc).2]
          constructor
          · rintro ⟨rest, hrest⟩
            exact ⟨k, rest, rfl, hrest⟩
          · rintro ⟨_, rest, rfl, hrest⟩
            exact ⟨rest, hrest⟩
  · simp [hauth]

end GateAccess

import GateAccess.CBytes
import Mathlib.Data.Fintype.Pi

namespace GateAccess

abbrev acHashLen : Nat := 32
abbrev acIdLen : Nat := 9
abbrev acMaxSlots : Nat := 5
abbrev acCodeLen : Nat := 9
def acRequiredDigits : Nat := 6
def acRequiredLetters : Nat := 2
def acRequiredSpecials : Nat := 1
def acTransientMaxS : Int := 15 * 60

inductive AcResult
  | granted
  | deniedUnknown
  | deniedNotYet
  | deniedExpired
  | deniedLockout
  | deniedNoClock
  | deniedBadFormat
  deriving DecidableEq

structure AcSlot where
  occupied : Bool
  transient : Bool
  id : Bytes acIdLen
  hash : Bytes acHashLen
  validFrom : Int
  validUntil : Int
  deriving DecidableEq

def AcSlot.zero : AcSlot := ⟨false, false, zeros _, zeros _, 0, 0⟩

structure AcCtx where
  slots : Fin acMaxSlots → AcSlot
  clockTrusted : Bool
  failedAttempts : UInt8
  lockoutUntil : Int
  maxFailedAttempts : UInt8
  lockoutSeconds : Int

def AcCtx.setSlot (ctx : AcCtx) (i : Fin acMaxSlots) (s : AcSlot) : AcCtx :=
  { ctx with slots := Function.update ctx.slots i s }

def findById (ctx : AcCtx) (id : List UInt8) : Option (Fin acMaxSlots) :=
  (List.finRange acMaxSlots).find? fun i =>
    (ctx.slots i).occupied && strncmpEq acIdLen (ctx.slots i).id.toList id

def firstFree (ctx : AcCtx) : Option (Fin acMaxSlots) :=
  (List.finRange acMaxSlots).find? fun i => !(ctx.slots i).occupied

def acInit (maxFailedAttempts : UInt8) (lockoutSeconds : Int) : AcCtx where
  slots := fun _ => AcSlot.zero
  clockTrusted := false
  failedAttempts := 0
  lockoutUntil := 0
  maxFailedAttempts := maxFailedAttempts
  lockoutSeconds := lockoutSeconds

def acRestoreAttempts (ctx : AcCtx) (failedAttempts : UInt8) (lockoutUntil : Int) : AcCtx :=
  { ctx with failedAttempts := failedAttempts, lockoutUntil := lockoutUntil }

def acIsLockedOut (ctx : AcCtx) (now : Int) : Bool := ctx.lockoutUntil > now

def acTick (ctx : AcCtx) (now : Int) : AcCtx :=
  if ctx.lockoutUntil ≠ 0 ∧ ctx.lockoutUntil ≤ now then
    { ctx with lockoutUntil := 0, failedAttempts := 0 }
  else ctx

/-- The character loop of `ac_format_valid`, over the string without its terminator. -/
def acFormatLoop : List UInt8 → Nat → Nat → Nat → Nat → Bool
  | [], digits, letters, specials, len =>
    len == acCodeLen && digits == acRequiredDigits && letters == acRequiredLetters &&
      specials == acRequiredSpecials
  | c :: cs, digits, letters, specials, len =>
    if len + 1 > acCodeLen then false
    else if isDigit c then acFormatLoop cs (digits + 1) letters specials (len + 1)
    else if 65 ≤ c ∧ c ≤ 68 then acFormatLoop cs digits (letters + 1) specials (len + 1)
    else if c = 42 ∨ c = 35 then acFormatLoop cs digits letters (specials + 1) (len + 1)
    else false

def acFormatValid (code : List UInt8) : Bool := acFormatLoop (cstr code) 0 0 0 0

/-- `strncpy` into the id field, then its last byte set to NUL. -/
def idField (id : List UInt8) : Bytes acIdLen :=
  ⟨(strncpy (acIdLen - 1) id).toList ++ [0], by simp⟩

def upsert (ctx : AcCtx) (id : List UInt8) (hash : Bytes acHashLen) (validFrom validUntil : Int)
    (transient : Bool) : AcCtx × Option (Fin acMaxSlots) :=
  if id.headD 0 = 0 then (ctx, none)
  else if validUntil ≤ validFrom then (ctx, none)
  else
    match (findById ctx id).or (firstFree ctx) with
    | none => (ctx, none)
    | some idx =>
      (ctx.setSlot idx ⟨true, transient, idField id, hash, validFrom, validUntil⟩, some idx)

def acUpsert (ctx : AcCtx) (id : List UInt8) (hash : Bytes acHashLen)
    (validFrom validUntil : Int) : AcCtx × Option (Fin acMaxSlots) :=
  upsert ctx id hash validFrom validUntil false

def acUpsertTransient (ctx : AcCtx) (id : List UInt8) (hash : Bytes acHashLen)
    (validFrom validUntil : Int) : AcCtx × Option (Fin acMaxSlots) :=
  upsert ctx id hash validFrom
    (if validUntil > validFrom + acTransientMaxS then validFrom + acTransientMaxS else validUntil)
    true

/-- The table half of `ac_revoke_transient`; the count it returns only reaches a log line. -/
def acRevokeTransient (ctx : AcCtx) : AcCtx :=
  { ctx with slots := fun i =>
      if (ctx.slots i).occupied && (ctx.slots i).transient then AcSlot.zero else ctx.slots i }

def isHex (c : UInt8) : Bool := isDigit c || (97 ≤ c && c ≤ 102)

def acIdIsDev (id : List UInt8) : Bool :=
  if id.headD 0 = 0 then true
  else if !(cstr id).all isHex then true
  else (cstr id).length ≠ 8

def acRevoke (ctx : AcCtx) (id : List UInt8) : AcCtx × Bool :=
  match findById ctx id with
  | none => (ctx, false)
  | some idx => (ctx.setSlot idx AcSlot.zero, true)

/-- The table half of `ac_purge_expired`. -/
def acPurgeExpired (ctx : AcCtx) (now : Int) : AcCtx :=
  { ctx with slots := fun i =>
      if (ctx.slots i).occupied && (ctx.slots i).validUntil < now then AcSlot.zero else ctx.slots i }

def registerFailure (ctx : AcCtx) (now : Int) : AcCtx :=
  let failed := if ctx.failedAttempts < 255 then ctx.failedAttempts + 1 else ctx.failedAttempts
  { ctx with
    failedAttempts := failed
    lockoutUntil :=
      if ctx.maxFailedAttempts > 0 ∧ failed ≥ ctx.maxFailedAttempts then now + ctx.lockoutSeconds
      else ctx.lockoutUntil }

/-- The scan of `ac_evaluate`: it does not stop at a match, so the last one stands. -/
def matchSlot (ctx : AcCtx) (hash : Bytes acHashLen) : Option (Fin acMaxSlots) :=
  (List.finRange acMaxSlots).foldl (fun found i =>
    if (ctx.slots i).occupied && ctEqual (ctx.slots i).hash.toList hash.toList then some i
    else found) none

/-- The third component is what `out_id` receives, when it is written. -/
def acEvaluate (ctx : AcCtx) (hash : Bytes acHashLen) (now : Int) :
    AcCtx × AcResult × Option (Bytes acIdLen) :=
  if !ctx.clockTrusted then (ctx, .deniedNoClock, none)
  else
    let ctx := acTick ctx now
    if acIsLockedOut ctx now then (ctx, .deniedLockout, none)
    else
      match matchSlot ctx hash with
      | none => (registerFailure ctx now, .deniedUnknown, none)
      | some i =>
        if now < (ctx.slots i).validFrom then (ctx, .deniedNotYet, none)
        else if now > (ctx.slots i).validUntil then (ctx, .deniedExpired, none)
        else ({ ctx with failedAttempts := 0, lockoutUntil := 0 }, .granted,
          some (ctx.slots i).id)

@[simp] theorem setSlot_same (ctx : AcCtx) (i : Fin acMaxSlots) (s : AcSlot) :
    (ctx.setSlot i s).slots i = s := by simp [AcCtx.setSlot]

theorem setSlot_other (ctx : AcCtx) {i j : Fin acMaxSlots} (s : AcSlot) (h : j ≠ i) :
    (ctx.setSlot i s).slots j = ctx.slots j := by simp [AcCtx.setSlot, h]

@[simp] theorem acTick_slots (ctx : AcCtx) (now : Int) : (acTick ctx now).slots = ctx.slots := by
  unfold acTick; split <;> rfl

@[simp] theorem acTick_clockTrusted (ctx : AcCtx) (now : Int) :
    (acTick ctx now).clockTrusted = ctx.clockTrusted := by
  unfold acTick; split <;> rfl

@[simp] theorem acTick_maxFailedAttempts (ctx : AcCtx) (now : Int) :
    (acTick ctx now).maxFailedAttempts = ctx.maxFailedAttempts := by
  unfold acTick; split <;> rfl

@[simp] theorem acTick_lockoutSeconds (ctx : AcCtx) (now : Int) :
    (acTick ctx now).lockoutSeconds = ctx.lockoutSeconds := by
  unfold acTick; split <;> rfl

@[simp] theorem registerFailure_slots (ctx : AcCtx) (now : Int) :
    (registerFailure ctx now).slots = ctx.slots := rfl

@[simp] theorem registerFailure_clockTrusted (ctx : AcCtx) (now : Int) :
    (registerFailure ctx now).clockTrusted = ctx.clockTrusted := rfl

/-- The counter saturates at the top of its byte. -/
theorem registerFailure_failedAttempts (ctx : AcCtx) (now : Int) :
    (registerFailure ctx now).failedAttempts.toNat = min 255 (ctx.failedAttempts.toNat + 1) := by
  have hb := ctx.failedAttempts.toNat_lt
  by_cases hf : ctx.failedAttempts < 255
  · have hl := UInt8.lt_iff_toNat_lt.mp hf
    simp only [registerFailure, hf, if_true, UInt8.toNat_add]
    simp at hl ⊢
    omega
  · have hl := UInt8.lt_iff_toNat_lt.not.mp hf
    simp only [registerFailure, hf, if_false]
    simp at hl
    omega

theorem registerFailure_lockoutUntil (ctx : AcCtx) (now : Int) :
    (registerFailure ctx now).lockoutUntil =
      if 0 < ctx.maxFailedAttempts.toNat ∧
          ctx.maxFailedAttempts.toNat ≤ (registerFailure ctx now).failedAttempts.toNat
      then now + ctx.lockoutSeconds else ctx.lockoutUntil := by
  simp only [registerFailure, gt_iff_lt, ge_iff_le, UInt8.lt_iff_toNat_lt, UInt8.le_iff_toNat_le,
    UInt8.toNat_zero]

theorem acIsLockedOut_iff {ctx : AcCtx} {now : Int} :
    acIsLockedOut ctx now = true ↔ now < ctx.lockoutUntil := by
  simp [acIsLockedOut]

theorem acIsLockedOut_eq_false {ctx : AcCtx} {now : Int} :
    acIsLockedOut ctx now = false ↔ ctx.lockoutUntil ≤ now := by
  simp [acIsLockedOut]

theorem matchSlot_fold (p : Fin acMaxSlots → Bool) (is : List (Fin acMaxSlots))
    (found : Option (Fin acMaxSlots)) :
    (∀ i, is.foldl (fun found i => if p i then some i else found) found = some i →
      found = some i ∨ p i = true) ∧
    (is.foldl (fun found i => if p i then some i else found) found = none →
      found = none ∧ ∀ i ∈ is, p i = false) := by
  induction is generalizing found with
  | nil => exact ⟨fun i h => Or.inl h, fun h => ⟨h, by simp⟩⟩
  | cons j is ih =>
    obtain ⟨hsome, hnone⟩ := ih (if p j then some j else found)
    by_cases hj : p j = true
    · simp only [List.foldl_cons, hj, if_true] at hsome hnone ⊢
      refine ⟨fun i h => ?_, fun h => absurd (hnone h).1 (by simp)⟩
      rcases hsome i h with he | hp
      · exact Or.inr (by rw [← Option.some.inj he, hj])
      · exact Or.inr hp
    · simp only [List.foldl_cons, hj, Bool.false_eq_true, if_false] at hsome hnone ⊢
      refine ⟨hsome, fun h => ⟨(hnone h).1, ?_⟩⟩
      intro i hi
      rcases List.mem_cons.mp hi with rfl | hi
      · simpa using hj
      · exact (hnone h).2 i hi

theorem matchSlot_some {ctx : AcCtx} {hash : Bytes acHashLen} {i : Fin acMaxSlots}
    (h : matchSlot ctx hash = some i) :
    (ctx.slots i).occupied = true ∧ (ctx.slots i).hash = hash := by
  rcases (matchSlot_fold _ _ none).1 i h with hn | hp
  · simp at hn
  · simpa using hp

inductive AcVerdict (ctx : AcCtx) (hash : Bytes acHashLen) (now : Int) :
    AcCtx × AcResult × Option (Bytes acIdLen) → Prop
  | noClock : ctx.clockTrusted = false → AcVerdict ctx hash now (ctx, .deniedNoClock, none)
  | lockout : ctx.clockTrusted = true → now < (acTick ctx now).lockoutUntil →
      AcVerdict ctx hash now (acTick ctx now, .deniedLockout, none)
  | unknown : ctx.clockTrusted = true → (acTick ctx now).lockoutUntil ≤ now →
      matchSlot ctx hash = none →
      AcVerdict ctx hash now (registerFailure (acTick ctx now) now, .deniedUnknown, none)
  | notYet (i) : ctx.clockTrusted = true → (acTick ctx now).lockoutUntil ≤ now →
      matchSlot ctx hash = some i → now < (ctx.slots i).validFrom →
      AcVerdict ctx hash now (acTick ctx now, .deniedNotYet, none)
  | expired (i) : ctx.clockTrusted = true → (acTick ctx now).lockoutUntil ≤ now →
      matchSlot ctx hash = some i → (ctx.slots i).validUntil < now →
      AcVerdict ctx hash now (acTick ctx now, .deniedExpired, none)
  | granted (i) : ctx.clockTrusted = true → (acTick ctx now).lockoutUntil ≤ now →
      matchSlot ctx hash = some i → (ctx.slots i).validFrom ≤ now →
      now ≤ (ctx.slots i).validUntil →
      AcVerdict ctx hash now ({ acTick ctx now with failedAttempts := 0, lockoutUntil := 0 },
        .granted, some (ctx.slots i).id)

theorem matchSlot_tick (ctx : AcCtx) (now : Int) (hash : Bytes acHashLen) :
    matchSlot (acTick ctx now) hash = matchSlot ctx hash := by
  simp [matchSlot]

theorem acEvaluate_verdict (ctx : AcCtx) (hash : Bytes acHashLen) (now : Int) :
    AcVerdict ctx hash now (acEvaluate ctx hash now) := by
  unfold acEvaluate
  by_cases ht : ctx.clockTrusted = true
  · simp only [ht, Bool.not_true, Bool.false_eq_true, if_false]
    by_cases hl : acIsLockedOut (acTick ctx now) now = true
    · simp only [hl, if_true]
      exact .lockout ht (acIsLockedOut_iff.mp hl)
    · have hle : (acTick ctx now).lockoutUntil ≤ now := by
        simpa [acIsLockedOut_iff] using hl
      simp only [hl, Bool.false_eq_true, if_false, matchSlot_tick, acTick_slots]
      cases hm : matchSlot ctx hash with
      | none => exact .unknown ht hle hm
      | some i =>
        by_cases hf : now < (ctx.slots i).validFrom
        · simp only [hf, if_true]
          exact .notYet i ht hle hm hf
        · by_cases hu : now > (ctx.slots i).validUntil
          · simp only [hf, hu, if_false, if_true]
            exact .expired i ht hle hm hu
          · simp only [hf, hu, if_false]
            simpa only [acTick_slots] using
              AcVerdict.granted i ht hle hm (by omega) (by omega)
  · have hf : ctx.clockTrusted = false := by simpa using ht
    simp only [hf, Bool.not_false, if_true]
    exact .noClock hf

theorem acEvaluate_granted {ctx : AcCtx} {h : Bytes acHashLen} {now : Int}
    (hg : (acEvaluate ctx h now).2.1 = .granted) :
    ctx.clockTrusted = true ∧ ∃ i, (ctx.slots i).occupied = true ∧ (ctx.slots i).hash = h ∧
      (ctx.slots i).validFrom ≤ now ∧ now ≤ (ctx.slots i).validUntil ∧
      (acEvaluate ctx h now).2.2 = some (ctx.slots i).id := by
  have hv := acEvaluate_verdict ctx h now
  generalize acEvaluate ctx h now = out at hv hg ⊢
  cases hv with
  | noClock | lockout | unknown | notYet | expired => simp at hg
  | granted i ht _ hm hf hu =>
    obtain ⟨hocc, hhash⟩ := matchSlot_some hm
    exact ⟨ht, i, hocc, hhash, hf, hu, rfl⟩

@[simp] theorem acEvaluate_clockTrusted (ctx : AcCtx) (hash : Bytes acHashLen) (now : Int) :
    (acEvaluate ctx hash now).1.clockTrusted = ctx.clockTrusted := by
  have hv := acEvaluate_verdict ctx hash now
  generalize acEvaluate ctx hash now = out at hv
  cases hv <;> simp

@[simp] theorem acEvaluate_slots (ctx : AcCtx) (hash : Bytes acHashLen) (now : Int) :
    (acEvaluate ctx hash now).1.slots = ctx.slots := by
  have hv := acEvaluate_verdict ctx hash now
  generalize acEvaluate ctx hash now = out at hv
  cases hv <;> simp

end GateAccess

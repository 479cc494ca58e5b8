import GateAccess.EntryHistory

namespace GateAccess

variable {hash : List UInt8 → Bytes acHashLen}

theorem gateOnKey_open {g : GateCtrl} {key : UInt8} {now : UiNow}
    (hb : g.ui.entryLen.toNat < acCodeLen) (ho : (gateOnKey hash g key now).2.openLock = true) :
    g.ui.clockTrusted = true ∧ acIsLockedOut g.ac now.epoch = false ∧
      g.ui.entryLen.toNat + 1 = acCodeLen ∧
      ∃ code, hashInput g key now = some code ∧
        code = (putByte (putByte g.buf g.ui.entryLen.toNat key) acCodeLen 0).toList ∧
        (acEvaluate g.ac (hash code) now.epoch).2.1 = .granted ∧
        (gateOnKey hash g key now).2.matchedId =
          (acEvaluate g.ac (hash code) now.epoch).2.2.getD (zeros _) := by
  have hk := gateOnKey_step hash key now hb
  generalize gateOnKey hash g key now = out at hk ho ⊢
  cases hk with
  | noClock | lockedOut | typed => simp [GateOut.zero] at ho
  | submitted ui ht hl _ _ hlen hn hin =>
    refine ⟨ht, hl, hlen, _, hin, ?_, of_decide_eq_true ho, rfl⟩
    have h9 : acCodeLen = 9 := rfl
    have hone : ui.entryLen ≠ 1 := by
      intro h
      rw [h, h9] at hn
      simp at hn
    have hpred : ui.entryLen.toNat - 1 = g.ui.entryLen.toNat := by omega
    simp [codeArg, storeKey, hone, hn, ← hlen]

theorem putByte_code {b : Bytes (acCodeLen + 1)} {k : Nat} {key : UInt8} (hk : k + 1 = acCodeLen) :
    (putByte (putByte b k key) acCodeLen 0).toList = b.toList.take k ++ [key] ++ [0] := by
  have h8 : k = 8 := by have h9 : acCodeLen = 9 := rfl; omega
  subst h8
  have hlen : b.toList.length = 10 := by simp
  have hfull : ((b.toList.set 8 key).set 9 0).take 10 = (b.toList.set 8 key).set 9 0 :=
    List.take_of_length_le (by simp)
  change (b.toList.set 8 key).set 9 0 = _
  rw [← hfull, take_set_succ (by simp), take_set_succ (by simp)]

/-- The door opens only for a live code: the nine keys behind the grant are the last nine
pressed, in one undisturbed stretch, and a slot in its window holds their hash. -/
theorem open_lock_only_for_live_code (maxFailedAttempts : UInt8) (lockoutSeconds : Int)
    (es : List GateEvent) (key : UInt8) (now : UiNow)
    (sorted : EpochsInOrder (es ++ [.key key now])) (g : GateCtrl)
    (hg : g = exec (gateStep hash) (gateBoot maxFailedAttempts lockoutSeconds) es)
    (ho : (gateOnKey hash g key now).2.openLock = true) :
    ∃ before seg, trace (gateStep hash) (gateBoot maxFailedAttempts lockoutSeconds) es =
        before ++ seg ∧
      (keysOf seg ++ [key]).length = acCodeLen ∧
      hashInput g key now = some (keysOf seg ++ [key] ++ [0]) ∧
      (∀ p ∈ seg ++ [(g, .key key now)], LiveKey p) ∧
      (∀ p ∈ seg, Undisturbed hash p) ∧
      g.ac.clockTrusted = true ∧ acIsLockedOut g.ac now.epoch = false ∧
      ∃ i, (g.ac.slots i).occupied = true ∧
        (g.ac.slots i).hash = hash (keysOf seg ++ [key] ++ [0]) ∧
        (g.ac.slots i).validFrom ≤ now.epoch ∧ now.epoch ≤ (g.ac.slots i).validUntil ∧
        (g.ac.slots i).id = (gateOnKey hash g key now).2.matchedId := by
  have hist : EntryHistory hash
      (trace (gateStep hash) (gateBoot maxFailedAttempts lockoutSeconds) es) g := by
    rw [hg]
    exact entryHistory_run es (sorted.snoc hash (gateBoot 0 0)).1
  obtain ⟨htrust, hl, hlen, code, hin, hcode, hgr, hid⟩ := gateOnKey_open hist.short ho
  obtain ⟨before, seg, hsteps, hkeys, hseg⟩ := hist.typed
  rw [putByte_code hlen, ← hkeys] at hcode
  subst hcode
  obtain ⟨hac, i, hocc, hhash, hf, hu, hout⟩ := acEvaluate_granted hgr
  refine ⟨before, seg, hsteps, ?_, hin, ?_, fun p hp => (hseg p hp).2, hac, hl,
    i, hocc, hhash, hf, hu, by rw [hid, hout]; rfl⟩
  · rw [List.length_append, hkeys, List.length_take, List.length_singleton]
    have h9 : acCodeLen = 9 := rfl
    have hb : g.buf.toList.length = 10 := by simp
    omega
  · intro p hp
    rcases List.mem_append.mp hp with hp | hp
    · exact (hseg p hp).1
    · have he : p = (g, .key key now) := by simpa using hp
      subst he
      intro key' now' hk
      obtain ⟨rfl, rfl⟩ := GateEvent.key.inj hk
      exact ⟨hac, htrust, hl⟩

def openingRun : List GateEvent :=
  [.clockTrusted true, .upsert (ascii "0a1b2c3d") (zeros _) 0 100] ++
    List.replicate 8 (.key 55 ⟨1000, 10⟩)

theorem open_lock_opening_run :
    ∃ before seg, trace (gateStep fun _ => zeros _) (gateBoot 5 300) openingRun = before ++ seg ∧
      (keysOf seg ++ [55]).length = 9 := by
  obtain ⟨before, seg, hsteps, hlen, _⟩ :=
    @open_lock_only_for_live_code (fun _ => zeros _) 5 300 openingRun 55 ⟨1100, 11⟩
      (by decide +kernel) _ rfl (by decide +kernel)
  exact ⟨before, seg, hsteps, hlen⟩

end GateAccess

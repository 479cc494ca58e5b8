import GateAccess.GateRun

namespace GateAccess

variable (hash : List UInt8 → Bytes acHashLen)

/-- What ties the three halves of an entry to the run behind it: the characters held are the
ones the last undisturbed stretch of keys typed, and they were typed outside any lockout. -/
structure EntryHistory (steps : List (GateCtrl × GateEvent)) (g : GateCtrl) : Prop where
  trust : g.ac.clockTrusted = g.ui.clockTrusted
  short : g.ui.entryLen.toNat < acCodeLen
  offScreen : g.ui.screen ≠ .entry → g.ui.entryLen = 0
  typed : ∃ before seg, steps = before ++ seg ∧
    keysOf seg = g.buf.toList.take g.ui.entryLen.toNat ∧
    ∀ p ∈ seg, LiveKey p ∧ Undisturbed hash p
  unlocked : g.ui.entryLen ≠ 0 →
    ∃ p ∈ steps, ∃ t, p.2.epoch = some t ∧ g.ac.lockoutUntil ≤ t

variable {hash}

theorem EntryHistory.reset {steps : List (GateCtrl × GateEvent)} {g : GateCtrl}
    (trust : g.ac.clockTrusted = g.ui.clockTrusted) (h0 : g.ui.entryLen = 0) :
    EntryHistory hash steps g where
  trust := trust
  short := by rw [h0]; decide
  offScreen := fun _ => h0
  typed := ⟨steps, [], by simp, by simp [keysOf, h0], by simp⟩
  unlocked := fun h => absurd h0 h

theorem take_set_succ {α : Type*} {xs : List α} {k : Nat} {x : α} (hk : k < xs.length) :
    (xs.set k x).take (k + 1) = xs.take k ++ [x] := by
  rw [List.take_add_one, List.take_set_of_le (Nat.le_refl k)]
  simp [hk]

theorem storeKey_take {g : GateCtrl} {k : Nat} (hn : g.ui.entryLen.toNat = k + 1)
    (hk : k < acCodeLen) (key : UInt8) :
    (storeKey g key).buf.toList.take (k + 1) = g.buf.toList.take k ++ [key] := by
  have h9 : acCodeLen = 9 := rfl
  by_cases hone : g.ui.entryLen = 1
  · have hz : k = 0 := by
      have h1 : g.ui.entryLen.toNat = 1 := by rw [hone]; rfl
      omega
    simp only [storeKey, hone, hz, if_true]
    rfl
  · have hpred : g.ui.entryLen.toNat - 1 = k := by omega
    have hle : g.ui.entryLen.toNat ≤ acCodeLen := by omega
    simp only [storeKey, hone, if_false, hpred, hle, if_true]
    exact take_set_succ (by simp; omega)

theorem EntryHistory.carry {steps : List (GateCtrl × GateEvent)} {g g' : GateCtrl} {e : GateEvent}
    (h : EntryHistory hash steps g) (hc : e.char = none) (hu : Undisturbed hash (g, e))
    (trust : g'.ac.clockTrusted = g'.ui.clockTrusted) (hs : g'.ui.screen = g.ui.screen)
    (hl : g'.ui.entryLen = g.ui.entryLen) (hb : g'.buf = g.buf)
    (unlocked : g.ui.entryLen ≠ 0 →
      ∃ p ∈ steps ++ [(g, e)], ∃ t, p.2.epoch = some t ∧ g'.ac.lockoutUntil ≤ t) :
    EntryHistory hash (steps ++ [(g, e)]) g' := by
  obtain ⟨before, seg, hsteps, hkeys, hseg⟩ := h.typed
  refine ⟨trust, by rw [hl]; exact h.short, by rw [hs, hl]; exact h.offScreen, ?_,
    by rw [hl]; exact unlocked⟩
  refine ⟨before, seg ++ [(g, e)], by rw [hsteps, List.append_assoc], ?_, ?_⟩
  · rw [hb, hl, ← hkeys]
    simp [keysOf, hc]
  · intro p hp
    rcases List.mem_append.mp hp with hp | hp
    · exact hseg p hp
    · have he : p = (g, e) := by simpa using hp
      subst he
      refine ⟨fun key now hk => ?_, hu⟩
      have hk' : e = .key key now := hk
      simp [hk', GateEvent.char] at hc

def InOrder (steps : List (GateCtrl × GateEvent)) (e : GateEvent) : Prop :=
  ∀ p ∈ steps, ∀ t, p.2.epoch = some t → ∀ t', e.epoch = some t' → t ≤ t'

theorem EntryHistory.no_lockout {steps : List (GateCtrl × GateEvent)} {g : GateCtrl}
    {e : GateEvent} {t : Int} (h : EntryHistory hash steps g) (ho : InOrder steps e)
    (he : e.epoch = some t) (hl : acIsLockedOut g.ac t = true) : g.ui.entryLen = 0 := by
  by_contra hn
  obtain ⟨p, hp, t', ht', hle⟩ := h.unlocked hn
  have := ho p hp t' ht' t he
  have := acIsLockedOut_iff.mp hl
  omega

theorem entryLen_held {ui : UiCtx} (h : ui.screen ≠ .entry → ui.entryLen = 0) :
    (if ui.screen = .entry then ui.entryLen.toNat else 0) = ui.entryLen.toNat := by
  by_cases hscreen : ui.screen = .entry
  · rw [if_pos hscreen]
  · rw [if_neg hscreen, h hscreen]
    rfl

theorem EntryHistory.key {steps : List (GateCtrl × GateEvent)} {g : GateCtrl} {key : UInt8}
    {now : UiNow} (h : EntryHistory hash steps g) (ho : InOrder steps (.key key now)) :
    EntryHistory hash (steps ++ [(g, .key key now)]) (gateOnKey hash g key now).1 := by
  have hk := gateOnKey_step hash key now h.short
  have hout : Undisturbed hash (g, .key key now) ↔
      (gateOnKey hash g key now).2.submitted = false := Iff.rfl
  generalize gateOnKey hash g key now = out at hk hout
  cases hk with
  | noClock ui h0 htr => exact .reset (h.trust.trans htr.symm) h0
  | lockedOut buf _ hl _ => exact .reset h.trust (h.no_lockout ho rfl hl)
  | submitted ui ht _ htr =>
    obtain ⟨h0, hui, hac⟩ := submit_entry hash (storeKey ⟨g.ac, ui, g.buf⟩ key) now
    exact .reset (hac.trans (h.trust.trans (ht.trans (htr.symm.trans hui.symm)))) h0
  | typed ui ht hl hs htr hn hlt =>
    have h9 : acCodeLen = 9 := rfl
    rw [entryLen_held h.offScreen] at hn
    obtain ⟨before, seg, hsteps, hkeys, hseg⟩ := h.typed
    refine ⟨h.trust.trans (ht.trans htr.symm), hlt, fun hne => absurd hs hne, ?_, ?_⟩
    · refine ⟨before, seg ++ [(g, .key key now)], by rw [hsteps, List.append_assoc], ?_, ?_⟩
      · have hbuf := @storeKey_take ⟨g.ac, ui, g.buf⟩ g.ui.entryLen.toNat hn (by omega) key
        have hkey : keysOf (seg ++ [(g, GateEvent.key key now)]) = keysOf seg ++ [key] := by
          simp [keysOf, GateEvent.char]
        have hui : (storeKey ⟨g.ac, ui, g.buf⟩ key).ui = ui := rfl
        rw [hkey, hkeys, hui, hn, hbuf]
      · intro p hp
        rcases List.mem_append.mp hp with hp | hp
        · exact hseg p hp
        · have he : p = (g, .key key now) := by simpa using hp
          subst he
          refine ⟨fun key' now' hk' => ?_, hout.mpr rfl⟩
          obtain ⟨rfl, rfl⟩ := GateEvent.key.inj hk'
          exact ⟨h.trust.trans ht, ht, hl⟩
    · intro _
      exact ⟨(g, .key key now), by simp, now.epoch, rfl, acIsLockedOut_eq_false.mp hl⟩

theorem EntryHistory.longPress {steps : List (GateCtrl × GateEvent)} {g : GateCtrl} {now : UiNow}
    (h : EntryHistory hash steps g) (ho : InOrder steps (.longPress now)) :
    EntryHistory hash (steps ++ [(g, .longPress now)]) (gateOnLongPress g now).1 := by
  obtain ⟨htr, h0 | ⟨hsame, hl⟩⟩ := uiOnLongPress_entry g.ui g.ac now
  · exact .reset (h.trust.trans htr.symm) h0
  · refine .reset (h.trust.trans htr.symm) ?_
    change (uiOnLongPress g.ui g.ac now).1.entryLen = 0
    rw [hsame]
    exact h.no_lockout ho rfl hl

theorem EntryHistory.tick {steps : List (GateCtrl × GateEvent)} {g : GateCtrl} {now : UiNow}
    (h : EntryHistory hash steps g) :
    EntryHistory hash (steps ++ [(g, .tick now)]) (gateTick g now).1 := by
  have htrust : (gateTick g now).1.ac.clockTrusted = (gateTick g now).1.ui.clockTrusted :=
    (gateTickAc_clockTrusted g now).trans (h.trust.trans (uiTick_clockTrusted _ _ _).symm)
  rcases uiTick_entry g.ui (gateTickAc g now) now with h0 | ⟨hsame, hl⟩
  · exact .reset htrust h0
  · have hui : (gateTick g now).1.ui = g.ui := by simp [gateTick, hsame]
    refine h.carry rfl (by simp [Undisturbed, hsame]) htrust (by rw [hui]) (by rw [hui])
      (by simp [gateTick, hsame]) fun hn => ?_
    by_cases ht : g.ui.clockTrusted = true
    · exact ⟨(g, .tick now), by simp, now.epoch, rfl, acIsLockedOut_eq_false.mp (hl ht)⟩
    · obtain ⟨p, hp, t, hpt, hle⟩ := h.unlocked hn
      refine ⟨p, List.mem_append_left _ hp, t, hpt, ?_⟩
      simpa [gateTick, gateTickAc, ht] using hle

theorem EntryHistory.clockTrusted {steps : List (GateCtrl × GateEvent)} {g : GateCtrl}
    {trusted : Bool} (h : EntryHistory hash steps g) :
    EntryHistory hash (steps ++ [(g, .clockTrusted trusted)])
      (gateAppSetClockTrusted g trusted) := by
  cases trusted with
  | false => exact .reset rfl rfl
  | true =>
    refine h.carry rfl rfl rfl rfl rfl rfl fun hn => ?_
    obtain ⟨p, hp, t, hpt, hle⟩ := h.unlocked hn
    exact ⟨p, List.mem_append_left _ hp, t, hpt, hle⟩

theorem EntryHistory.table {steps : List (GateCtrl × GateEvent)} {g : GateCtrl} {e : GateEvent}
    (h : EntryHistory hash steps g) (he : e.epoch = none)
    (ht : ∀ trusted, e ≠ .clockTrusted trusted) :
    EntryHistory hash (steps ++ [(g, e)]) (gateStep hash g e) := by
  obtain ⟨ac, ⟨slots, rfl⟩, hg⟩ := gateStep_table hash (g := g) he ht
  have hc : e.char = none := by cases e <;> first | rfl | simp [GateEvent.epoch] at he
  have hu : Undisturbed hash (g, e) := by
    cases e with
    | key | longPress | tick => simp [GateEvent.epoch] at he
    | clockTrusted trusted => exact absurd rfl (ht trusted)
    | upsert | upsertTransient | revoke | revokeTransient | sync => trivial
  rw [hg]
  refine h.carry hc hu h.trust rfl rfl rfl fun hn => ?_
  obtain ⟨p, hp, t, hpt, hle⟩ := h.unlocked hn
  exact ⟨p, List.mem_append_left _ hp, t, hpt, hle⟩

theorem EntryHistory.step {steps : List (GateCtrl × GateEvent)} {g : GateCtrl} {e : GateEvent}
    (h : EntryHistory hash steps g) (ho : InOrder steps e) :
    EntryHistory hash (steps ++ [(g, e)]) (gateStep hash g e) := by
  cases e with
  | key key now => exact h.key ho
  | longPress now => exact h.longPress ho
  | tick now => exact h.tick
  | clockTrusted trusted => exact h.clockTrusted
  | upsert | upsertTransient | revoke | revokeTransient | sync => exact h.table rfl (by simp)

def EpochsInOrder (es : List GateEvent) : Prop :=
  (es.filterMap GateEvent.epoch).Pairwise (· ≤ ·)

instance (es : List GateEvent) : Decidable (EpochsInOrder es) :=
  inferInstanceAs (Decidable (List.Pairwise _ _))

theorem EpochsInOrder.init {es : List GateEvent} {e : GateEvent} (h : EpochsInOrder (es ++ [e])) :
    EpochsInOrder es := by
  rw [EpochsInOrder, List.filterMap_append, List.pairwise_append] at h
  exact h.1

/-- The last event comes after all steps that have the epochs of the events before it. -/
theorem EpochsInOrder.inOrder {es : List GateEvent} {e : GateEvent} (h : EpochsInOrder (es ++ [e]))
    {steps : List (GateCtrl × GateEvent)}
    (hsame : steps.filterMap (fun p => p.2.epoch) = es.filterMap GateEvent.epoch) :
    InOrder steps e := by
  rw [EpochsInOrder, List.filterMap_append, List.pairwise_append, ← hsame] at h
  refine fun p hp t ht t' ht' => h.2.2 t ?_ t' ?_
  · exact List.mem_filterMap.mpr ⟨p, hp, ht⟩
  · simp [ht']

theorem EpochsInOrder.snoc {es : List GateEvent} {e : GateEvent} (h : EpochsInOrder (es ++ [e]))
    (hash : List UInt8 → Bytes acHashLen) (g : GateCtrl) :
    EpochsInOrder es ∧ InOrder (trace (gateStep hash) g es) e := by
  refine ⟨h.init, h.inOrder ?_⟩
  rw [← trace_map_snd (gateStep hash) g es, List.filterMap_map]
  simp

theorem entryHistory_run {maxFailedAttempts : UInt8} {lockoutSeconds : Int}
    (es : List GateEvent) (h : EpochsInOrder es) :
    EntryHistory hash (trace (gateStep hash) (gateBoot maxFailedAttempts lockoutSeconds) es)
      (exec (gateStep hash) (gateBoot maxFailedAttempts lockoutSeconds) es) := by
  induction es using List.reverseRecOn with
  | nil => exact .reset rfl rfl
  | append_singleton es e ih =>
    obtain ⟨hes, ho⟩ := h.snoc hash (gateBoot maxFailedAttempts lockoutSeconds)
    rw [trace_append, exec_append]
    exact (ih hes).step ho

end GateAccess

import GateAccess.GateRun

namespace GateAccess

/-- No character is held once no entry is in progress. -/
def Wiped (g : GateCtrl) : Prop := g.ui.screen ≠ .entry → g.buf = zeros _

/-- Trust in the clock is withdrawn while characters of an entry are held. -/
def DropsEntry (p : GateCtrl × GateEvent) : Prop :=
  p.2 = .clockTrusted false ∧ p.1.ui.screen = .entry ∧ p.1.buf ≠ zeros _

structure EntryHeld (g : GateCtrl) : Prop where
  wiped : Wiped g
  counted : g.ui.screen ≠ .entry → g.ui.entryLen = 0
  trusted : g.ui.screen = .entry → g.ui.clockTrusted = true
  short : g.ui.entryLen.toNat < acCodeLen

variable {hash : List UInt8 → Bytes acHashLen}

theorem EntryHeld.cleared {g : GateCtrl} (hs : g.ui.screen ≠ .entry) (h0 : g.ui.entryLen = 0)
    (hb : g.buf = zeros _) : EntryHeld g where
  wiped := fun _ => hb
  counted := fun _ => h0
  trusted := fun h => absurd h hs
  short := by rw [h0]; decide

theorem EntryHeld.init (ac : AcCtx) : EntryHeld (gateInit ac uiInit) :=
  .cleared (by simp [gateInit, uiInit]) rfl rfl

/-- The screen an entry is on may change its count, never the characters under it. -/
theorem EntryHeld.carry {g g' : GateCtrl} (h : EntryHeld g) (hs : g'.ui.screen = g.ui.screen)
    (ht : g.ui.clockTrusted = true → g'.ui.clockTrusted = true)
    (hn : g'.ui.entryLen = g.ui.entryLen ∨ g'.ui.entryLen = 0)
    (hb : g.ui.screen ≠ .entry → g'.buf = g.buf) : EntryHeld g' where
  wiped := fun hne => by
    rw [hs] at hne
    rw [hb hne, h.wiped hne]
  counted := fun hne => by
    rw [hs] at hne
    rcases hn with hn | hn
    · rw [hn, h.counted hne]
    · exact hn
  trusted := fun he => ht (h.trusted (hs ▸ he))
  short := by
    rcases hn with hn | hn
    · rw [hn]; exact h.short
    · rw [hn]; decide

theorem uiOnResult_screen (ctx : UiCtx) (ac : AcCtx) (r : AcResult) (now : UiNow) :
    (uiOnResult ctx ac r now).1.screen ≠ .entry := by
  by_cases hl : acIsLockedOut ac now.epoch = true <;> cases r <;> simp [uiOnResult, hl, goIdle]

theorem EntryHeld.key {g : GateCtrl} (h : EntryHeld g) (key : UInt8) (now : UiNow) :
    EntryHeld (gateOnKey hash g key now).1 := by
  have hk := uiOnKey_step g.ui g.ac now
  rw [gateOnKey_eq]
  generalize uiOnKey g.ui g.ac now = stepped at hk
  cases hk with
  | noClock hf =>
    have hne : g.ui.screen ≠ .entry := fun he => by simp [h.trusted he] at hf
    exact .cleared (by simp) rfl (h.wiped hne)
  | lockedOut ht hl =>
    by_cases h0 : g.ui.entryLen = 0
    · rw [if_pos h0]
      exact h.carry rfl id (Or.inl rfl) fun _ => rfl
    · rw [if_neg h0, if_neg (by simp)]
      exact h.carry rfl id (Or.inl rfl) fun hne => absurd (h.counted hne) h0
  | typed n ht hl hn =>
    have hlen := typed_toNat h.short hn
    have h0 : n ≠ 0 := by
      intro h0
      simp [h0] at hlen
    rw [if_neg h0]
    by_cases hs : n.toNat ≥ uiCodeLen
    · rw [if_pos (if_pos hs)]
      exact .cleared (uiOnResult_screen _ _ _ _) (submit_entry hash _ now).1 rfl
    · rw [if_neg (by simp [hs])]
      exact ⟨fun hne => absurd rfl hne, fun hne => absurd rfl hne, fun _ => ht,
        Nat.lt_of_not_le hs⟩

theorem EntryHeld.longPress {g : GateCtrl} (h : EntryHeld g) (now : UiNow) :
    EntryHeld (gateOnLongPress g now).1 := by
  unfold gateOnLongPress uiOnLongPress
  split_ifs
  · exact h
  · exact .cleared (by simp [goIdle]) rfl rfl

theorem EntryHeld.tick {g : GateCtrl} (h : EntryHeld g) (now : UiNow) :
    EntryHeld (gateTick g now).1 := by
  have hout : (gateTick g now).1 = ⟨gateTickAc g now, (uiTick g.ui (gateTickAc g now) now).1,
      if (uiTick g.ui (gateTickAc g now) now).2 = .clearBuffer then zeros _ else g.buf⟩ := rfl
  have ht := uiTick_clockTrusted g.ui (gateTickAc g now) now
  have hs := uiTick_screen g.ui (gateTickAc g now) now
  rw [hout]
  generalize uiTick g.ui (gateTickAc g now) now = stepped at hs ht
  rcases hs with ⟨hs, -, -, hn, ha⟩ | ⟨hi, ha⟩
  · refine h.carry hs (fun h' => ht.trans h') hn fun _ => ?_
    simp [ha]
  · refine .cleared (by simp [hi, goIdle]) (by simp [hi]) ?_
    by_cases he : g.ui.screen = .entry
    · exact if_pos (ha he)
    · simp [h.wiped he]

theorem EntryHeld.step {g : GateCtrl} {e : GateEvent} (h : EntryHeld g)
    (hd : ¬DropsEntry (g, e)) : EntryHeld (gateStep hash g e) := by
  cases e with
  | key key now => exact h.key key now
  | longPress now => exact h.longPress now
  | tick now => exact h.tick now
  | clockTrusted trusted =>
    cases trusted with
    | true => exact h.carry rfl (fun _ => rfl) (Or.inl rfl) fun _ => rfl
    | false =>
      refine .cleared (by simp [gateStep, gateAppSetClockTrusted, uiSetClockTrusted, goIdle]) rfl ?_
      by_contra hb
      by_cases hs : g.ui.screen = .entry
      · exact hd ⟨rfl, hs, hb⟩
      · exact hb (h.wiped hs)
  | upsert | upsertTransient | revoke | revokeTransient | sync =>
    exact h.carry rfl id (Or.inl rfl) fun _ => rfl

theorem DropsEntry.not_wiped {g : GateCtrl} {e : GateEvent} (h : DropsEntry (g, e)) :
    ¬Wiped (gateStep hash g e) := by
  obtain ⟨rfl, -, hb⟩ := h
  exact fun hw => hb (hw (by simp [gateStep, gateAppSetClockTrusted, uiSetClockTrusted, goIdle]))

/-- The characters outlive their entry exactly where trust in the clock is withdrawn under it. -/
theorem plaintext_wiped_iff (ac : AcCtx) (es : List GateEvent) :
    (∀ before after, es = before ++ after →
        Wiped (exec (gateStep hash) (gateInit ac uiInit) before)) ↔
      ∀ p ∈ trace (gateStep hash) (gateInit ac uiInit) es, ¬DropsEntry p := by
  exact always_iff_steps (Q := fun p => ¬DropsEntry p) (EntryHeld.init ac) (fun _ h => h.wiped)
    (fun _ _ h hd => h.step hd) fun _ _ hw hd => hd.not_wiped hw

/-- One key, then the clock is no longer trusted. -/
def droppedEntry : List GateEvent := [.clockTrusted true, .key 49 ⟨1000, 10⟩, .clockTrusted false]

theorem plaintext_outlives_entry :
    ¬Wiped (exec (gateStep fun _ => zeros _) (gateInit (acInit 5 300) uiInit) droppedEntry) := by
  intro wiped
  have hb := wiped (by decide)
  exact absurd (congrArg (fun b => b.head) hb) (by decide)

end GateAccess

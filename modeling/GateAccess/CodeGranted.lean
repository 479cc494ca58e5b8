import GateAccess.DoorOpening

namespace GateAccess

variable (hash : List UInt8 → Bytes acHashLen)

/-- What happens while a code is typed: keys outside a lockout, and ticks that leave the entry
alone. -/
def TypingStep (p : GateCtrl × GateEvent) : Prop :=
  match p.2 with
  | .key _ now => acIsLockedOut p.1.ac now.epoch = false
  | .tick now => (uiTick p.1.ui (gateTickAc p.1 now) now).1 = p.1.ui
  | _ => False

/-- A gate with no entry in progress opens for every code a slot accepts at the time of its last
key. -/
def GrantsValid (g : GateCtrl) : Prop :=
  ∀ (es : List GateEvent) (key : UInt8) (now : UiNow) (i : Fin acMaxSlots),
    g.ui.entryLen = 0 →
    (∀ p ∈ trace (gateStep hash) g es, TypingStep p) →
    (keysOf (trace (gateStep hash) g es)).length + 1 = acCodeLen →
    acIsLockedOut (exec (gateStep hash) g es).ac now.epoch = false → 0 ≤ now.epoch →
    matchSlot g.ac (hash (keysOf (trace (gateStep hash) g es) ++ [key] ++ [0])) = some i →
    (g.ac.slots i).validFrom ≤ now.epoch → now.epoch ≤ (g.ac.slots i).validUntil →
    (gateOnKey hash (exec (gateStep hash) g es) key now).2.result = .granted ∧
      (gateOnKey hash (exec (gateStep hash) g es) key now).2.openLock = true

variable {hash}

theorem codeArg_storeKey {g : GateCtrl} {k : Nat} (hn : g.ui.entryLen.toNat = k + 1)
    (hk : k + 1 = acCodeLen) (key : UInt8) :
    codeArg (storeKey g key) = g.buf.toList.take k ++ [key] ++ [0] := by
  have hfull : codeArg (storeKey g key) = (codeArg (storeKey g key)).take (acCodeLen + 1) :=
    (List.take_of_length_le (by simp [codeArg])).symm
  have hset : codeArg (storeKey g key) = (storeKey g key).buf.toList.set acCodeLen 0 := rfl
  have htake := storeKey_take hn (by omega) key
  rw [hk] at htake
  rw [hfull, hset, take_set_succ (by simp), htake]

structure Typing (slots : Fin acMaxSlots → AcSlot) (keys : List UInt8) (g : GateCtrl) : Prop where
  trusted : g.ac.clockTrusted = true ∧ g.ui.clockTrusted = true
  slots : g.ac.slots = slots
  count : g.ui.entryLen.toNat = keys.length
  onScreen : keys ≠ [] → g.ui.screen = .entry
  held : g.buf.toList.take keys.length = keys

/-- What a key does to the screen of a gate that is trusted and not locked out. -/
theorem Typing.typed {slots : Fin acMaxSlots → AcSlot} {keys : List UInt8} {g : GateCtrl}
    (h : Typing slots keys g) {now : UiNow} (hl : acIsLockedOut g.ac now.epoch = false)
    (hlen : keys.length < acCodeLen) :
    ∃ ui, ui.screen = .entry ∧ ui.clockTrusted = true ∧ ui.entryLen.toNat = keys.length + 1 ∧
      uiOnKey g.ui g.ac now = (ui, if ui.entryLen.toNat ≥ uiCodeLen then .submit else .none) := by
  have hk := uiOnKey_step g.ui g.ac now
  generalize uiOnKey g.ui g.ac now = out at hk
  cases hk with
  | noClock hf => simp [h.trusted.2] at hf
  | lockedOut _ hl' => simp [hl] at hl'
  | typed n ht _ hn =>
    refine ⟨{ g.ui with
      screen := .entry, entryLen := n, entryDeadlineMs := now.ms + uiEntryTimeoutMs },
      rfl, ht, ?_, rfl⟩
    have hcount := typed_toNat (by rw [h.count]; exact hlen) hn
    by_cases hs : g.ui.screen = .entry
    · rw [hcount, if_pos hs, h.count]
    · have hnil : keys = [] := by
        by_contra hne
        exact hs (h.onScreen hne)
      rw [hcount, if_neg hs, hnil]
      rfl

/-- One more key of fewer than nine in all. -/
theorem Typing.key {slots : Fin acMaxSlots → AcSlot} {keys : List UInt8} {g : GateCtrl}
    (h : Typing slots keys g) {key : UInt8} {now : UiNow}
    (hl : acIsLockedOut g.ac now.epoch = false) (hlen : keys.length + 1 < acCodeLen) :
    Typing slots (keys ++ [key]) (gateOnKey hash g key now).1 := by
  obtain ⟨ui, hscreen, htrust, hn, hout⟩ := h.typed hl (by omega)
  have hne : ui.entryLen ≠ 0 := by
    intro h0
    simp [h0] at hn
  have hu9 : uiCodeLen = acCodeLen := rfl
  rw [gateOnKey_eq, hout, if_neg hne, if_neg (by simp; omega)]
  refine ⟨⟨h.trusted.1, htrust⟩, h.slots, ?_, fun _ => hscreen, ?_⟩
  · rw [List.length_append, List.length_singleton]
    exact hn
  · rw [List.length_append, List.length_singleton]
    exact (@storeKey_take ⟨g.ac, ui, g.buf⟩ keys.length hn (by omega) key).trans (by rw [h.held])

theorem uiTick_kept {ctx : UiCtx} {ac : AcCtx} {now : UiNow}
    (hq : (uiTick ctx ac now).1 = ctx) : (uiTick ctx ac now).2 = .none := by
  unfold uiTick at hq ⊢
  split_ifs at hq ⊢ with hl hs hd
  · rfl
  · have hscreen : UiScreen.idle = ctx.screen := congrArg UiCtx.screen hq
    rw [hs] at hscreen
    simp at hscreen
  · rfl
  · rfl
  · rfl

theorem Typing.tick {slots : Fin acMaxSlots → AcSlot} {keys : List UInt8} {g : GateCtrl}
    (h : Typing slots keys g) {now : UiNow}
    (hq : (uiTick g.ui (gateTickAc g now) now).1 = g.ui) :
    Typing slots keys (gateTick g now).1 := by
  have hout : (gateTick g now).1 = ⟨gateTickAc g now, g.ui, g.buf⟩ := by
    simp [gateTick, hq, uiTick_kept hq]
  rw [hout]
  exact ⟨⟨(gateTickAc_clockTrusted g now).trans h.trusted.1, h.trusted.2⟩,
    (gateTickAc_slots g now).trans h.slots, h.count, h.onScreen, h.held⟩

theorem typing_run {slots : Fin acMaxSlots → AcSlot} {keys : List UInt8} {g : GateCtrl}
    {es : List GateEvent} (h : Typing slots keys g)
    (hes : ∀ p ∈ trace (gateStep hash) g es, TypingStep p)
    (hlen : (keys ++ keysOf (trace (gateStep hash) g es)).length < acCodeLen) :
    Typing slots (keys ++ keysOf (trace (gateStep hash) g es)) (exec (gateStep hash) g es) := by
  induction es generalizing g keys with
  | nil => simpa [keysOf] using h
  | cons e es ih =>
    have hstep := hes (g, e) List.mem_cons_self
    have hrest : ∀ p ∈ trace (gateStep hash) (gateStep hash g e) es, TypingStep p :=
      fun p hp => hes p (List.mem_cons_of_mem _ hp)
    cases e with
    | key key now =>
      have hkeys : keys ++ keysOf (trace (gateStep hash) g (.key key now :: es)) =
          keys ++ [key] ++ keysOf (trace (gateStep hash) (gateOnKey hash g key now).1 es) := by
        simp [keysOf, GateEvent.char, gateStep]
      rw [hkeys] at hlen ⊢
      have hshort : keys.length + 1 < acCodeLen := by
        simp only [List.length_append, List.length_singleton] at hlen
        omega
      exact ih (h.key hstep hshort) hrest hlen
    | tick now =>
      have hkeys : keysOf (trace (gateStep hash) g (.tick now :: es)) =
          keysOf (trace (gateStep hash) (gateTick g now).1 es) := by
        simp [keysOf, GateEvent.char, gateStep]
      rw [hkeys] at hlen ⊢
      exact ih (h.tick hstep) hrest hlen
    | longPress | clockTrusted | upsert | upsertTransient | revoke | revokeTransient | sync =>
      exact hstep.elim

theorem acEvaluate_grants {ctx : AcCtx} {h : Bytes acHashLen} {now : Int} {i : Fin acMaxSlots}
    (ht : ctx.clockTrusted = true) (hl : acIsLockedOut ctx now = false) (hnow : 0 ≤ now)
    (hm : matchSlot ctx h = some i) (hf : (ctx.slots i).validFrom ≤ now)
    (hu : now ≤ (ctx.slots i).validUntil) : (acEvaluate ctx h now).2.1 = .granted := by
  have htick : acIsLockedOut (acTick ctx now) now = false := by
    rw [acIsLockedOut_eq_false] at hl ⊢
    unfold acTick
    split
    · exact hnow
    · exact hl
  unfold acEvaluate
  simp only [ht, htick, matchSlot_tick, hm, acTick_slots, Bool.not_true, Bool.false_eq_true,
    if_false, not_lt.mpr hf, gt_iff_lt, not_lt.mpr hu]

theorem grantsValid_of_trusted {g : GateCtrl} (hac : g.ac.clockTrusted = true)
    (hui : g.ui.clockTrusted = true) : GrantsValid hash g := by
  intro es key now i h0 hes hlen hl hnow hm hf hu
  have hstart : Typing g.ac.slots [] g := ⟨⟨hac, hui⟩, rfl, by rw [h0]; rfl, by simp, by simp⟩
  have htyped := typing_run hstart hes (by simp only [List.nil_append]; omega)
  rw [List.nil_append] at htyped
  generalize keysOf (trace (gateStep hash) g es) = keys at htyped hlen hm
  generalize exec (gateStep hash) g es = g' at htyped hl ⊢
  obtain ⟨ui, hscreen, htrust, hn, hout⟩ := htyped.typed hl (by omega)
  have hne : ui.entryLen ≠ 0 := by
    intro h0
    simp [h0] at hn
  have hu9 : uiCodeLen = acCodeLen := rfl
  have hcode : codeArg (storeKey ⟨g'.ac, ui, g'.buf⟩ key) = keys ++ [key] ++ [0] :=
    (@codeArg_storeKey ⟨g'.ac, ui, g'.buf⟩ keys.length hn hlen key).trans (by rw [htyped.held])
  have hgrant : (acEvaluate g'.ac (hash (keys ++ [key] ++ [0])) now.epoch).2.1 = .granted := by
    refine acEvaluate_grants htyped.trusted.1 hl hnow (i := i) ?_ ?_ ?_
    · simpa [matchSlot, htyped.slots] using hm
    · rwa [htyped.slots]
    · rwa [htyped.slots]
  rw [gateOnKey_eq, hout, if_neg hne, if_pos (by simp; omega)]
  have hresult : (submit hash (storeKey ⟨g'.ac, ui, g'.buf⟩ key) now).2.result = .granted := by
    rw [← hcode] at hgrant
    exact hgrant
  exact ⟨hresult, decide_eq_true hresult⟩

end GateAccess

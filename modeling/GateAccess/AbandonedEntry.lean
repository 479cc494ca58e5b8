import GateAccess.EntryHistory
import GateAccess.DarkPanel

namespace GateAccess

/-- A character in the buffer: when it was typed, and the ticks since the character before. -/
structure TypedKey where
  time : Nat
  ticks : List Nat
  deriving DecidableEq

/-- The gate, with who typed the characters its buffer holds. -/
structure EntryKeys where
  gate : GateCtrl
  keys : List TypedKey
  ticks : List Nat

variable (hash : List UInt8 → Bytes acHashLen)

def entryAct (uptime : Nat) (s : EntryKeys) (e : GateEvent) : EntryKeys :=
  let gate := gateStep hash s.gate (e.at uptime)
  match e with
  | .key _ now =>
    -- `gate_on_key` stores the character at this length, unless it is 0
    let n := (uiOnKey s.gate.ui s.gate.ac ⟨nowMs uptime, now.epoch⟩).1.entryLen.toNat
    if n = 0 then { s with gate := gate }
    else ⟨gate, s.keys.take (n - 1) ++ [⟨uptime, s.ticks⟩], []⟩
  | .tick _ => { s with gate := gate, ticks := s.ticks ++ [uptime] }
  | _ => { s with gate := gate }

abbrev entryRun (ac : AcCtx) (calls : List (Timed GateEvent)) : AtTime EntryKeys :=
  exec (timedStep (entryAct hash)) ⟨0, ⟨gateRestart ac, [], []⟩⟩ calls

def handled (calls : List (Timed GateEvent)) : List GateEvent :=
  calls.filterMap fun
    | .event e => some e
    | .wait _ => none

def InTime (a b : TypedKey) : Prop := b.time < a.time + uiEntryTimeoutMs.toNat

/-- A tick at this time sees that the entry was silent for too long after this key. -/
def SeesSilence (a : TypedKey) (tick : Nat) : Prop :=
  a.time + uiEntryTimeoutMs.toNat ≤ tick ∧
    ¬2 ^ 31 < (tick - (a.time + uiEntryTimeoutMs.toNat)) % 2 ^ 32

/-- A key that comes too late finds that a tick has come between. -/
def TickBetween (a b : TypedKey) : Prop :=
  a.time + uiEntryTimeoutMs.toNat ≤ b.time → ∃ tick ∈ b.ticks, SeesSilence a tick

instance (a b : TypedKey) : Decidable (InTime a b) := inferInstanceAs (Decidable (_ < _))

instance (a : TypedKey) (tick : Nat) : Decidable (SeesSilence a tick) :=
  inferInstanceAs (Decidable (_ ∧ _))

instance (a b : TypedKey) : Decidable (TickBetween a b) := inferInstanceAs (Decidable (_ → _))

def Unseen (a b : TypedKey) : Prop := ∀ tick ∈ b.ticks, ¬SeesSilence a tick

/-- No tick so far has seen the entry silent for too long. -/
structure OpenEntry (uptime : Nat) (s : EntryKeys) : Prop where
  enough : s.gate.ui.entryLen.toNat ≤ s.keys.length
  unseen : (s.keys.take s.gate.ui.entryLen.toNat).IsChain Unseen
  last : ∀ a ∈ (s.keys.take s.gate.ui.entryLen.toNat).getLast?,
    s.gate.ui.entryDeadlineMs = UInt32.ofNat (a.time + uiEntryTimeoutMs.toNat) ∧
      a.time ≤ uptime ∧ ∀ tick ∈ s.ticks, ¬SeesSilence a tick

theorem OpenEntry.none {uptime : Nat} {s : EntryKeys} (h : s.gate.ui.entryLen = 0) :
    OpenEntry uptime s := by
  constructor <;> simp [h]

theorem OpenEntry.same {uptime : Nat} {s s' : EntryKeys} (h : OpenEntry uptime s)
    (hui : s'.gate.ui.entryLen = s.gate.ui.entryLen)
    (hdeadline : s'.gate.ui.entryDeadlineMs = s.gate.ui.entryDeadlineMs)
    (hkeys : s'.keys = s.keys) (hticks : s'.ticks = s.ticks) : OpenEntry uptime s' := by
  constructor
  · rw [hui, hkeys]; exact h.enough
  · rw [hui, hkeys]; exact h.unseen
  · rw [hui, hkeys, hdeadline, hticks]; exact h.last

theorem OpenEntry.later {uptime : Nat} {s : EntryKeys} (h : OpenEntry uptime s) (ms : Nat) :
    OpenEntry (uptime + ms) s := by
  refine ⟨h.enough, h.unseen, fun a ha => ?_⟩
  obtain ⟨hdeadline, hpast, hticks⟩ := h.last a ha
  exact ⟨hdeadline, hpast.trans (Nat.le_add_right uptime ms), hticks⟩

/-- The keys of the entry with one more. -/
theorem OpenEntry.unseen_concat {uptime : Nat} {s : EntryKeys} (h : OpenEntry uptime s) (t : Nat) :
    (s.keys.take s.gate.ui.entryLen.toNat ++ [TypedKey.mk t s.ticks]).IsChain Unseen := by
  refine List.isChain_append.mpr ⟨h.unseen, List.isChain_singleton _, fun a ha b hb => ?_⟩
  have hb' : TypedKey.mk t s.ticks = b := by simpa using hb
  subst hb'
  exact (h.last a ha).2.2

theorem uiTick_waits {ctx : UiCtx} {ac : AcCtx} {now : UiNow} (hscreen : ctx.screen = .entry)
    (hkept : (uiTick ctx ac now).1.entryLen ≠ 0) : 0 < signed (ctx.entryDeadlineMs - now.ms) := by
  by_contra hpassed
  refine hkept ?_
  unfold uiTick
  by_cases hl : (ctx.clockTrusted && acIsLockedOut ac now.epoch) = true
  · rw [if_pos hl]
  · rw [if_neg hl, if_pos hscreen, if_pos (not_lt.mp hpassed)]
    rfl

theorem OpenEntry.tick {uptime : Nat} {s : EntryKeys} (h : OpenEntry uptime s) (now : UiNow)
    (hscreen : s.gate.ui.entryLen ≠ 0 → s.gate.ui.screen = .entry) :
    OpenEntry uptime (entryAct hash uptime s (.tick now)) := by
  by_cases hgone : (uiTick s.gate.ui (gateTickAc s.gate ⟨nowMs uptime, now.epoch⟩)
      ⟨nowMs uptime, now.epoch⟩).1.entryLen = 0
  · exact .none hgone
  have hkept := (uiTick_entry s.gate.ui (gateTickAc s.gate ⟨nowMs uptime, now.epoch⟩)
    ⟨nowMs uptime, now.epoch⟩).resolve_left hgone
  have hopen : s.gate.ui.entryLen ≠ 0 := by
    rw [hkept.1] at hgone
    exact hgone
  have hahead := uiTick_waits (hscreen hopen) hgone
  have hui : (entryAct hash uptime s (.tick now)).gate.ui = s.gate.ui := by
    simp [entryAct, GateEvent.at, gateStep, gateTick, hkept.1]
  refine ⟨by rw [hui]; exact h.enough, by rw [hui]; exact h.unseen, fun a ha => ?_⟩
  rw [hui] at ha ⊢
  obtain ⟨hdeadline, hpast, hticks⟩ := h.last a ha
  refine ⟨hdeadline, hpast, fun tick hmem => ?_⟩
  rcases List.mem_append.mp hmem with hold | hnew
  · exact hticks tick hold
  · obtain rfl : tick = uptime := by simpa using hnew
    rintro ⟨hdue, hseen⟩
    rw [hdeadline] at hahead
    exact absurd hahead (not_lt.mpr ((deadline_seen_iff hdue).mpr hseen))

theorem entryAct_typed {uptime : Nat} {s : EntryKeys} {now : UiNow} (key : UInt8)
    (hlen : (uiOnKey s.gate.ui s.gate.ac ⟨nowMs uptime, now.epoch⟩).1.entryLen.toNat =
      s.gate.ui.entryLen.toNat + 1) :
    entryAct hash uptime s (.key key now) =
      ⟨(gateOnKey hash s.gate key ⟨nowMs uptime, now.epoch⟩).1,
        s.keys.take s.gate.ui.entryLen.toNat ++ [⟨uptime, s.ticks⟩], []⟩ := by
  simp only [entryAct, hlen]
  rw [if_neg (by omega), Nat.add_sub_cancel]
  rfl

theorem entryAct_gate (uptime : Nat) (s : EntryKeys) (e : GateEvent) :
    (entryAct hash uptime s e).gate = gateStep hash s.gate (e.at uptime) := by
  cases e with
  | key key now =>
    simp only [entryAct]
    split
    · rfl
    · rfl
  | _ => rfl

theorem OpenEntry.key {uptime : Nat} {s : EntryKeys} (h : OpenEntry uptime s) (key : UInt8)
    (now : UiNow) (hshort : s.gate.ui.entryLen.toNat < acCodeLen)
    (hoff : s.gate.ui.screen ≠ .entry → s.gate.ui.entryLen = 0)
    (hfree : acIsLockedOut s.gate.ac now.epoch = true → s.gate.ui.entryLen = 0) :
    OpenEntry uptime (entryAct hash uptime s (.key key now)) := by
  have hk := uiOnKey_step s.gate.ui s.gate.ac ⟨nowMs uptime, now.epoch⟩
  have hgate : (entryAct hash uptime s (.key key now)).gate =
      (gateOnKey hash s.gate key ⟨nowMs uptime, now.epoch⟩).1 := entryAct_gate hash uptime s _
  rw [gateOnKey_eq] at hgate
  have htyped := @entryAct_typed hash uptime s now key
  generalize uiOnKey s.gate.ui s.gate.ac ⟨nowMs uptime, now.epoch⟩ = stepped at hk hgate htyped
  cases hk with
  | noClock =>
    rw [if_pos rfl] at hgate
    exact .none (by rw [hgate])
  | lockedOut _ hl =>
    rw [if_pos (hfree hl)] at hgate
    exact .none (by rw [hgate]; exact hfree hl)
  | typed n _ _ hn =>
    have hlen := typed_toNat hshort hn
    rw [entryLen_held hoff] at hlen
    have hpos : n ≠ 0 := fun h0 => by simp [h0] at hlen
    rw [if_neg hpos] at hgate
    by_cases hfull : n.toNat ≥ uiCodeLen
    · rw [if_pos (if_pos hfull)] at hgate
      exact .none (by rw [hgate]; exact (submit_entry hash _ _).1)
    · rw [if_neg (by rw [if_neg hfull]; exact UiAction.noConfusion)] at hgate
      have hui : (entryAct hash uptime s (.key key now)).gate.ui.entryLen = n := by
        rw [hgate]
        rfl
      have hdeadline : (entryAct hash uptime s (.key key now)).gate.ui.entryDeadlineMs =
          UInt32.ofNat (uptime + uiEntryTimeoutMs.toNat) := by
        rw [hgate]
        exact nowMs_add uptime uiEntryTimeoutMs
      have hkeys : (entryAct hash uptime s (.key key now)).keys =
          s.keys.take s.gate.ui.entryLen.toNat ++ [⟨uptime, s.ticks⟩] := by rw [htyped hlen]
      have hticks : (entryAct hash uptime s (.key key now)).ticks = [] := by rw [htyped hlen]
      have hall : (entryAct hash uptime s (.key key now)).keys.length = n.toNat := by
        rw [hkeys, List.length_append, List.length_take, List.length_singleton, hlen,
          Nat.min_eq_left h.enough]
      refine ⟨by rw [hui, hall], ?_, fun a ha => ?_⟩
      · rw [hui, ← hall, List.take_length, hkeys]
        exact h.unseen_concat uptime
      · rw [hui, ← hall, List.take_length, hkeys, List.getLast?_concat, Option.mem_some_iff] at ha
        subst ha
        exact ⟨hdeadline, Nat.le_refl uptime, by simp [hticks]⟩

theorem OpenEntry.act {uptime : Nat} {s : EntryKeys} (h : OpenEntry uptime s) {e : GateEvent}
    {steps : List (GateCtrl × GateEvent)} (hist : EntryHistory hash steps s.gate)
    (ho : InOrder steps e) : OpenEntry uptime (entryAct hash uptime s e) := by
  have hscreen : s.gate.ui.entryLen ≠ 0 → s.gate.ui.screen = .entry := fun hne => by
    by_contra hoff
    exact hne (hist.offScreen hoff)
  cases e with
  | key key now => exact h.key hash key now hist.short hist.offScreen (hist.no_lockout ho rfl)
  | tick now => exact h.tick hash now hscreen
  | longPress now =>
    obtain ⟨-, h0 | ⟨hsame, -⟩⟩ := uiOnLongPress_entry s.gate.ui s.gate.ac ⟨nowMs uptime, now.epoch⟩
    · exact .none h0
    · have hui : (entryAct hash uptime s (.longPress now)).gate.ui = s.gate.ui := congrArg Prod.fst hsame
      exact h.same (by rw [hui]) (by rw [hui]) rfl rfl
  | clockTrusted trusted =>
    cases trusted with
    | true => exact h.same rfl rfl rfl rfl
    | false => exact .none rfl
  | upsert | upsertTransient | revoke | revokeTransient | sync => exact h.same rfl rfl rfl rfl

@[simp] theorem at_epoch (uptime : Nat) (e : GateEvent) : (e.at uptime).epoch = e.epoch := by
  cases e <;> rfl

theorem InOrder.at {steps : List (GateCtrl × GateEvent)} {e : GateEvent} (h : InOrder steps e)
    (uptime : Nat) : InOrder steps (e.at uptime) := by
  intro p hp t ht t' ht'
  exact h p hp t ht t' (by rwa [at_epoch] at ht')

/-- An entry is open as long as no tick has seen it silent for too long. -/
theorem entryRun_open (ac : AcCtx) (calls : List (Timed GateEvent))
    (sorted : EpochsInOrder (handled calls)) :
    OpenEntry (entryRun hash ac calls).uptime (entryRun hash ac calls).state ∧
      ∃ steps, EntryHistory hash steps (entryRun hash ac calls).state.gate ∧
        steps.filterMap (fun p => p.2.epoch) = (handled calls).filterMap GateEvent.epoch := by
  induction calls using List.reverseRecOn with
  | nil => exact ⟨.none rfl, [], .reset rfl rfl, rfl⟩
  | append_singleton calls call ih =>
    rw [entryRun, exec_concat]
    cases call with
    | wait ms =>
      have hsame : handled (calls ++ [.wait ms]) = handled calls := by simp [handled]
      rw [hsame] at sorted ⊢
      obtain ⟨hopen, hist⟩ := ih sorted
      exact ⟨hopen.later ms, hist⟩
    | event e =>
      have hnew : handled (calls ++ [.event e]) = handled calls ++ [e] := by simp [handled]
      rw [hnew] at sorted ⊢
      obtain ⟨hopen, steps, hist, hepochs⟩ := ih sorted.init
      have ho := sorted.inOrder hepochs
      refine ⟨hopen.act hash hist ho,
        steps ++ [((entryRun hash ac calls).state.gate, e.at (entryRun hash ac calls).uptime)], ?_, ?_⟩
      · rw [timedStep, entryAct_gate]
        exact hist.step (ho.at _)
      · rw [List.filterMap_append, List.filterMap_append, hepochs]
        simp only [List.filterMap_cons, List.filterMap_nil, at_epoch]

theorem chain_congr {α : Type*} {R S T : α → α → Prop} {xs : List α} (hT : xs.IsChain T)
    (h : ∀ a b, T a b → (R a b ↔ S a b)) : xs.IsChain R ↔ xs.IsChain S := by
  induction hT with
  | nil => simp
  | singleton a => simp
  | cons_cons hab _ ih => rw [List.isChain_cons_cons, List.isChain_cons_cons, h _ _ hab, ih]

theorem TickBetween.inTime {a b : TypedKey} (hunseen : Unseen a b) :
    TickBetween a b ↔ InTime a b := by
  refine ⟨fun h => ?_, fun h hlate => absurd h (not_lt.mpr hlate)⟩
  by_contra hlate
  obtain ⟨tick, hmem, hsees⟩ := h (not_lt.mp hlate)
  exact hunseen tick hmem hsees

theorem gateOnKey_submitted {g : GateCtrl} {key : UInt8} {now : UiNow}
    (h : (gateOnKey hash g key now).2.submitted = true) : (uiOnKey g.ui g.ac now).2 = .submit := by
  by_contra hnone
  rw [gateOnKey_eq] at h
  split at h
  · cases h
  · cases h

/-- The nine keys of a submitted entry. -/
theorem submitted_keys {uptime : Nat} {s : EntryKeys} (h : OpenEntry uptime s) {key : UInt8}
    {now : UiNow} (hshort : s.gate.ui.entryLen.toNat < acCodeLen)
    (hoff : s.gate.ui.screen ≠ .entry → s.gate.ui.entryLen = 0)
    (hsub : (gateOnKey hash s.gate key ⟨nowMs uptime, now.epoch⟩).2.submitted = true) :
    (entryAct hash uptime s (.key key now)).keys.length = acCodeLen ∧
      (entryAct hash uptime s (.key key now)).keys.IsChain Unseen := by
  have hk := uiOnKey_step s.gate.ui s.gate.ac ⟨nowMs uptime, now.epoch⟩
  have hsubmit := gateOnKey_submitted hash hsub
  have htyped := @entryAct_typed hash uptime s now key
  generalize uiOnKey s.gate.ui s.gate.ac ⟨nowMs uptime, now.epoch⟩ = stepped at hk hsubmit htyped
  cases hk with
  | noClock => cases hsubmit
  | lockedOut => cases hsubmit
  | typed n _ _ hn =>
    have hlen := typed_toNat hshort hn
    rw [entryLen_held hoff] at hlen
    have hfull : n.toNat ≥ acCodeLen := by
      by_contra hmore
      rw [if_neg hmore] at hsubmit
      cases hsubmit
    rw [htyped hlen]
    refine ⟨?_, h.unseen_concat uptime⟩
    rw [List.length_append, List.length_take, List.length_singleton, Nat.min_eq_left h.enough]
    omega

/-- The keys of a submitted entry follow each other in time exactly when no late one overtook the
tick that was to abandon the entry. -/
theorem submitted_in_time_iff (ac : AcCtx) (calls : List (Timed GateEvent)) (key : UInt8) (now : UiNow)
    (sorted : EpochsInOrder (handled (calls ++ [.event (.key key now)])))
    (hsub : (gateOnKey hash (entryRun hash ac calls).state.gate key
      ⟨nowMs (entryRun hash ac calls).uptime, now.epoch⟩).2.submitted = true) :
    (entryRun hash ac (calls ++ [.event (.key key now)])).state.keys.length = acCodeLen ∧
      ((entryRun hash ac (calls ++ [.event (.key key now)])).state.keys.IsChain InTime ↔
        (entryRun hash ac (calls ++ [.event (.key key now)])).state.keys.IsChain TickBetween) := by
  have hnew : handled (calls ++ [.event (.key key now)]) = handled calls ++ [.key key now] := by
    simp [handled]
  rw [hnew] at sorted
  obtain ⟨hopen, steps, hist, -⟩ := entryRun_open hash ac calls sorted.init
  obtain ⟨hlen, hunseen⟩ := submitted_keys hash hopen hist.short hist.offScreen hsub
  rw [entryRun, exec_concat]
  refine ⟨hlen, ?_⟩
  exact (chain_congr hunseen fun a b h => TickBetween.inTime h).symm

/-- Eight keys in one pass of the loop, and a last pass 10 seconds and 10 ms after it. -/
def lateLastKey : List (Timed GateEvent) :=
  .event (.clockTrusted true) :: List.replicate 8 (.event (.key 49 ⟨0, 1800000000⟩)) ++
    [.event (.tick ⟨0, 1800000000⟩), .wait 9990, .event (.tick ⟨0, 1800000009⟩), .wait 20]

theorem submitted_in_time_late :
    (entryRun (fun _ => zeros _) (acInit 5 60)
        (lateLastKey ++ [.event (.key 49 ⟨0, 1800000010⟩)])).state.keys.length = acCodeLen ∧
      ((entryRun (fun _ => zeros _) (acInit 5 60)
          (lateLastKey ++ [.event (.key 49 ⟨0, 1800000010⟩)])).state.keys.IsChain InTime ↔
        (entryRun (fun _ => zeros _) (acInit 5 60)
          (lateLastKey ++ [.event (.key 49 ⟨0, 1800000010⟩)])).state.keys.IsChain TickBetween) :=
  submitted_in_time_iff (fun _ => zeros _) (acInit 5 60) lateLastKey 49 ⟨0, 1800000010⟩
    (by decide) (by decide)

/-- The ninth key comes 10 ms too late and the entry is submitted. -/
theorem abandoned_entry_submitted :
    (gateOnKey (fun _ => zeros _) (entryRun (fun _ => zeros _) (acInit 5 60) lateLastKey).state.gate 49
        ⟨nowMs (entryRun (fun _ => zeros _) (acInit 5 60) lateLastKey).uptime, 1800000010⟩).2.submitted =
      true ∧
    ¬(entryRun (fun _ => zeros _) (acInit 5 60)
        (lateLastKey ++ [.event (.key 49 ⟨0, 1800000010⟩)])).state.keys.IsChain InTime := by
  constructor
  · decide
  · decide

end GateAccess

import GateAccess.AttemptPersist
import GateAccess.OledScreens

namespace GateAccess

variable (hash : List UInt8 → Bytes acHashLen)

def GateEvent.hideKey : GateEvent → GateEvent
  | .key _ now => .key 0 now
  | e => e

/-- The string an event hands to the hash callback, if it submits an entry. -/
def submittedCode (g : GateCtrl) : GateEvent → Option (List UInt8)
  | .key key now => hashInput g key now
  | _ => none

/-- No occupied slot holds the hash of what this step submits. -/
def Misses (p : GateCtrl × GateEvent) : Prop :=
  ∀ code ∈ submittedCode p.1 p.2,
    ∀ i, (p.1.ac.slots i).occupied = true → (p.1.ac.slots i).hash ≠ hash code

instance (p : GateCtrl × GateEvent) : Decidable (Misses hash p) :=
  inferInstanceAs (Decidable (∀ code ∈ submittedCode p.1 p.2,
    ∀ i, (p.1.ac.slots i).occupied = true → (p.1.ac.slots i).hash ≠ hash code))

/-- All that a step lets out of the controller: its outcome, the two contexts after it and what
the panel shows at any moment until the next step. -/
structure Observation where
  out : GateOut
  ui : UiCtx
  ac : AcCtx
  render : UiNow → UiRender
  frame : OledFb → UiNow → OledFb

def observe (g : GateCtrl) (e : GateEvent) : Observation :=
  let after := gateStep hash g e
  { out := gateOut hash g e
    ui := after.ui
    ac := after.ac
    render := uiRender after.ui after.ac
    frame := fun fb now => oledCompose fb (uiRender after.ui after.ac now) }

/-- Two controllers that differ in nothing but the characters typed. -/
def SameButBuf (g g' : GateCtrl) : Prop := g.ac = g'.ac ∧ g.ui = g'.ui

variable {hash}

theorem matchSlot_eq_none {ctx : AcCtx} {h : Bytes acHashLen}
    (miss : ∀ i, (ctx.slots i).occupied = true → (ctx.slots i).hash ≠ h) :
    matchSlot ctx h = none := by
  cases hm : matchSlot ctx h with
  | none => rfl
  | some i =>
    obtain ⟨hocc, hhash⟩ := matchSlot_some hm
    exact absurd hhash (miss i hocc)

theorem acEvaluate_miss {ctx : AcCtx} {h h' : Bytes acHashLen} (now : Int)
    (hm : matchSlot ctx h = none) (hm' : matchSlot ctx h' = none) :
    acEvaluate ctx h now = acEvaluate ctx h' now := by
  unfold acEvaluate
  simp only [matchSlot_tick, hm, hm']

theorem submit_miss {g g' : GateCtrl} (now : UiNow) (same : SameButBuf g g')
    (hm : matchSlot g.ac (hash (codeArg g)) = none)
    (hm' : matchSlot g'.ac (hash (codeArg g')) = none) :
    submit hash g now = submit hash g' now := by
  obtain ⟨hac, hui⟩ := same
  rw [← hac] at hm'
  unfold submit
  rw [← hac, ← hui, acEvaluate_miss now.epoch hm hm']

theorem gateOnKey_same {g g' : GateCtrl} {key key' : UInt8} {now : UiNow}
    (same : SameButBuf g g') (miss : Misses hash (g, .key key now))
    (miss' : Misses hash (g', .key key' now)) :
    (gateOnKey hash g key now).2 = (gateOnKey hash g' key' now).2 ∧
      SameButBuf (gateOnKey hash g key now).1 (gateOnKey hash g' key' now).1 := by
  obtain ⟨ac, ui, buf⟩ := g
  obtain ⟨ac', ui', buf'⟩ := g'
  obtain ⟨rfl, rfl⟩ : ac = ac' ∧ ui = ui' := same
  have typed : SameButBuf (storeKey ⟨ac, (uiOnKey ui ac now).1, buf⟩ key)
      (storeKey ⟨ac, (uiOnKey ui ac now).1, buf'⟩ key') := ⟨rfl, rfl⟩
  unfold gateOnKey
  by_cases h0 : (uiOnKey ui ac now).1.entryLen = 0
  · simp only [h0, if_true]
    exact ⟨trivial, rfl, rfl⟩
  · by_cases ha : (uiOnKey ui ac now).2 = .submit
    · have hin : ((uiOnKey ui ac now).1.entryLen ≠ 0 ∧ (uiOnKey ui ac now).2 = .submit) := ⟨h0, ha⟩
      have hm := matchSlot_eq_none (miss _ (if_pos hin))
      have hm' := matchSlot_eq_none (miss' _ (if_pos hin))
      have hs := submit_miss now typed hm hm'
      simp only [h0, ha, if_true, if_false]
      rw [hs]
      exact ⟨rfl, rfl, rfl⟩
    · simp only [h0, ha, if_false]
      exact ⟨trivial, typed⟩

theorem hideKey_key {key : UInt8} {now : UiNow} {e : GateEvent}
    (h : (GateEvent.key key now).hideKey = e.hideKey) : ∃ key', e = .key key' now := by
  cases e <;> simp_all [GateEvent.hideKey]

theorem hideKey_other {e e' : GateEvent} (hc : e.char = none) (h : e.hideKey = e'.hideKey) :
    e' = e := by
  cases e <;> cases e' <;> simp_all [GateEvent.hideKey, GateEvent.char]

theorem gateStep_same {g g' : GateCtrl} {e e' : GateEvent} (same : SameButBuf g g')
    (he : e.hideKey = e'.hideKey) (miss : Misses hash (g, e)) (miss' : Misses hash (g', e')) :
    gateOut hash g e = gateOut hash g' e' ∧
      SameButBuf (gateStep hash g e) (gateStep hash g' e') := by
  cases e with
  | key key now =>
    obtain ⟨key', rfl⟩ := hideKey_key he
    exact gateOnKey_same same miss miss'
  | longPress | tick | clockTrusted | upsert | upsertTransient | revoke | revokeTransient | sync =>
    cases hideKey_other rfl he
    obtain ⟨ac, ui, buf⟩ := g
    obtain ⟨ac', ui', buf'⟩ := g'
    obtain ⟨rfl, rfl⟩ : ac = ac' ∧ ui = ui' := same
    exact ⟨rfl, rfl, rfl⟩

theorem observe_same {g g' : GateCtrl} {e e' : GateEvent} (same : SameButBuf g g')
    (he : e.hideKey = e'.hideKey) (miss : Misses hash (g, e)) (miss' : Misses hash (g', e')) :
    observe hash g e = observe hash g' e' := by
  obtain ⟨hout, hac, hui⟩ := gateStep_same same he miss miss'
  simp only [observe, hout, hac, hui]

theorem observations_same {g g' : GateCtrl} {es es' : List GateEvent} (same : SameButBuf g g')
    (he : es.map GateEvent.hideKey = es'.map GateEvent.hideKey)
    (miss : ∀ p ∈ trace (gateStep hash) g es, Misses hash p)
    (miss' : ∀ p ∈ trace (gateStep hash) g' es', Misses hash p) :
    (trace (gateStep hash) g es).map (fun p => observe hash p.1 p.2) =
      (trace (gateStep hash) g' es').map fun p => observe hash p.1 p.2 := by
  induction es generalizing es' g g' with
  | nil =>
    cases es' with
    | nil => rfl
    | cons e' es' => simp at he
  | cons e es ih =>
    cases es' with
    | nil => simp at he
    | cons e' es' =>
      obtain ⟨hev, hrest⟩ := List.cons.inj he
      have hm := miss (g, e) List.mem_cons_self
      have hm' := miss' (g', e') List.mem_cons_self
      have hnext := (gateStep_same same hev hm hm').2
      have htail := ih hnext hrest (fun p hp => miss p (List.mem_cons_of_mem _ hp))
        fun p hp => miss' p (List.mem_cons_of_mem _ hp)
      rw [trace_cons, trace_cons, List.map_cons, List.map_cons, htail]
      exact congrArg (· :: _) (observe_same same hev hm hm')

/-- Neither the characters of a refused entry nor their number can be seen from outside. -/
theorem keys_not_observable (g : GateCtrl) (es es' : List GateEvent)
    (same : es.map GateEvent.hideKey = es'.map GateEvent.hideKey)
    (miss : ∀ p ∈ trace (gateStep hash) g es, Misses hash p)
    (miss' : ∀ p ∈ trace (gateStep hash) g es', Misses hash p) :
    (trace (gateStep hash) g es).map (fun p => observe hash p.1 p.2) =
        (trace (gateStep hash) g es').map (fun p => observe hash p.1 p.2) ∧
      ∀ (ui : UiCtx) (ac : AcCtx) (now : UiNow) (n : UInt8), ui.screen = .entry →
        uiRender { ui with entryLen := n } ac now = uiRender ui ac now :=
  ⟨observations_same ⟨rfl, rfl⟩ same miss miss', fun _ _ _ _ _ => rfl⟩

def keysRun (keys : List UInt8) : List GateEvent :=
  [.clockTrusted true, .upsert (ascii "0a1b2c3d") (fill _ [49, 50, 51]) 0 100] ++
    keys.map (fun key => .key key ⟨1000, 10⟩) ++ [.tick ⟨1100, 10⟩]

theorem keys_not_observable_nine :
    (trace (gateStep (fill 32)) (gateBoot 5 300) (keysRun [54, 53, 52, 51, 50, 49, 66, 65, 42])).map
        (fun p => observe (fill 32) p.1 p.2) =
      (trace (gateStep (fill 32)) (gateBoot 5 300) (keysRun (List.replicate 9 65))).map
        fun p => observe (fill 32) p.1 p.2 :=
  (@keys_not_observable (fill 32) (gateBoot 5 300) (keysRun [54, 53, 52, 51, 50, 49, 66, 65, 42])
    (keysRun (List.replicate 9 65)) (by rfl) (by decide +kernel) (by decide +kernel)).1

end GateAccess
